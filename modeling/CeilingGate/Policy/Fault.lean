import CeilingGate.Files
import CeilingGate.Policy.Ceiling
import CeilingGate.Policy.Document
import CeilingGate.Yaml.Basic

/-! Why a policy cannot be loaded. -/
namespace CeilingGate.Policy

/-- Where in a document a quantity stands. -/
inductive Place
  | top
  | ofNamespace (name : RawText)
  | ofName (target : Target)
deriving DecidableEq, Repr

def Place.text : Place → RawText
  | .top => "global"
  | .ofNamespace name => "namespace \"" ++ name ++ "\""
  | .ofName t => "name \"" ++ t.name ++ "\" in namespace \"" ++ t.namespaceName ++ "\""

inductive Fault
  | unreadableFile (path : RawText) (cause : FileFault)
  | unreadableYaml (cause : Yaml.Failure) (source? : Option RawText)
  | notMapping (typeName : String)
  | invalid (issues : List Validation.Issue)
  | badQuantity (dimension : Dimension) (place : Place) (text : RawText) (cause : Quantity.Fault)
  | negative (dimension : Dimension) (place : Place) (text : RawText)
deriving DecidableEq, Repr

namespace Fault

def yamlProblem : Yaml.Failure → String
  | .malformed => "the text is not well formed"
  | .construction problem => problem
  | .badValue => "a scalar does not fit its tag"
  | .badType => "a node does not fit its tag"
  | .abort _ => "the document cannot be built"

def rejection (issues : List Validation.Issue) : Validation.Rejection :=
  ⟨"PolicyDocument", false, issues⟩

def message : Fault → RawText
  | .unreadableFile _ cause => "unable to read policy file: " ++ cause.message
  | .unreadableYaml cause _ => "unable to parse policy yaml: " ++ yamlProblem cause
  | .notMapping typeName => "policy document must be a mapping, got " ++ typeName
  | .invalid issues => "invalid policy document: " ++ (rejection issues).summary
  | .badQuantity d place _ cause =>
    "could not parse " ++ d.key ++ " for " ++ place.text ++ ": " ++ cause.message
  | .negative d place _ =>
    "could not parse " ++ d.key ++ " for " ++ place.text ++ ": must not be negative"

def quantityDetails (d : Dimension) (place : Place) (text : RawText) :
    List (String × Option RawText) :=
  [("field", some (.plain d.key)), ("key", some place.text), ("value", some text)]

/-- What names the offending part, for logs and messages. -/
def details : Fault → List (String × Option RawText)
  | .unreadableFile path _ => [("path", some path)]
  | .unreadableYaml _ source? => [("source", source?)]
  | .notMapping _ | .invalid _ => []
  | .badQuantity d place text _ => quantityDetails d place text
  | .negative d place text => quantityDetails d place text

end Fault

end CeilingGate.Policy
