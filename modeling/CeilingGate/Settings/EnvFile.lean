import CeilingGate.Keyed
import CeilingGate.Text.Basic

/-! Environment files: one binding a line, with comments, quotes, and references to other names. -/
namespace CeilingGate.EnvFile

open CeilingGate.Text

/-- A name and its content; a name that stands alone has none. -/
abbrev Binding := String × Option String

/-- A result and the rest of the text, or the place from which a line cannot be read. -/
abbrev Read (α : Type) := Except (List Char) (α × List Char)

def isInlineBlank (c : Char) : Bool := isBlank c && c != '\n' && c != '\r'

def isBreak (c : Char) : Bool := c == '\n' || c == '\r'

def dropInline (cs : List Char) : List Char := cs.dropWhile isInlineBlank

/-- The word `export` and the blanks behind it may come before a name. -/
def dropExport (cs : List Char) : List Char :=
  let word := "export".toList
  if word.isPrefixOf cs then
    match cs.drop word.length with
    | c :: rest => if isInlineBlank c then dropInline rest else cs
    | [] => cs
  else cs

/-- A name in single quotes or without quotes; a comment has none. -/
def readName (cs : List Char) : Read (Option String) :=
  match cs with
  | '#' :: _ => .ok (none, cs)
  | '\'' :: rest =>
    match rest.span (· != '\'') with
    | (c :: name, _ :: after) => .ok (some (String.ofList (c :: name)), after)
    | _ => .error cs
  | _ =>
    match cs.span fun c => c != '=' && c != '#' && !isBlank c with
    | ([], _) => .error cs
    | (name, after) => .ok (some (String.ofList name), after)

/-- Splits at the first quote that no backslash precedes. -/
def splitAtQuote? (quote : Char) : List Char → Option (List Char × List Char)
  | [] => none
  | c :: rest =>
    if c == quote then some ([], rest)
    else
      match rest with
      | q :: tail =>
        if c == '\\' && q == quote then
          (splitAtQuote? quote tail).map fun (body, after) => (c :: q :: body, after)
        else (splitAtQuote? quote (q :: tail)).map fun (body, after) => (c :: body, after)
      | [] => none

/-- Splits at the last quote. -/
def splitAtLast? (quote : Char) (cs : List Char) : Option (List Char × List Char) :=
  match cs.reverse.span (· != quote) with
  | (_, []) => none
  | (after, _ :: body) => some (body.reverse, after.reverse)

/-- The character that an escape stands for. -/
def escape? (quote c : Char) : Option Char :=
  if c == '\\' || c == '\'' then some c
  else if quote == '"' then
    match c with
    | '"' => some '"'
    | 'a' => some '\x07'
    | 'b' => some '\x08'
    | 'f' => some '\x0c'
    | 'n' => some '\n'
    | 'r' => some '\r'
    | 't' => some '\t'
    | 'v' => some '\x0b'
    | _ => none
  else none

/-- Replaces escapes; in single quotes only quotes and backslashes can be escaped. -/
def unescape (quote : Char) : List Char → List Char
  | '\\' :: c :: rest =>
    match escape? quote c with
    | some d => d :: unescape quote rest
    | none => '\\' :: unescape quote (c :: rest)
  | c :: rest => c :: unescape quote rest
  | [] => []

/-- A quoted content ends at the first quote that is not escaped, or else at the last one. -/
def readQuoted (quote : Char) (cs : List Char) : Read String :=
  match (splitAtQuote? quote cs).or (splitAtLast? quote cs) with
  | some (body, after) => .ok (String.ofList (unescape quote body), after)
  | none => .error (quote :: cs)

/-- The part of a line before a comment, which begins with a blank and a number sign. -/
def dropComment : List Char → List Char
  | c :: '#' :: rest => if isBlank c then [] else c :: dropComment ('#' :: rest)
  | c :: rest => c :: dropComment rest
  | [] => []

def readContent (cs : List Char) : Read String :=
  match cs with
  | [] => .ok ("", cs)
  | '\'' :: rest => readQuoted '\'' rest
  | '"' :: rest => readQuoted '"' rest
  | _ =>
    let (line, after) := cs.span fun c => !isBreak c
    .ok (String.ofList (stripEnd (dropComment line)), after)

/-- A content follows an equals sign. -/
def readAssigned (cs : List Char) : Read (Option String) :=
  match cs with
  | '=' :: rest => (readContent (dropInline rest)).map fun (s, after) => (some s, after)
  | _ => .ok (none, cs)

def skipComment (cs : List Char) : List Char :=
  match dropInline cs with
  | '#' :: rest => rest.dropWhile fun c => !isBreak c
  | _ => cs

def endLine (cs : List Char) : Read Unit :=
  match dropInline cs with
  | [] => .ok ((), [])
  | c :: rest => if isBreak c then .ok ((), rest) else .error cs

def readBinding (cs : List Char) : Except (List Char) (Option Binding × List Char) := do
  let (name?, afterName) ← readName (dropExport cs)
  let (content?, afterContent) ← readAssigned (dropInline afterName)
  let ((), rest) ← endLine (skipComment afterContent)
  return (name?.map fun name => (name, content?), rest)

/-- The bindings of a text; a line that cannot be read is skipped. -/
def readBindings (fuel : Nat) (cs : List Char) : List Binding :=
  match fuel with
  | 0 => []
  | fuel + 1 =>
    match cs.dropWhile isBlank with
    | [] => []
    | start =>
      match readBinding start with
      | .ok (binding?, rest) => binding?.toList ++ readBindings fuel rest
      | .error place => readBindings fuel ((place.dropWhile fun c => !isBreak c).drop 1)

/-- A reference to a name, with a content in case there is none: `${name}` or `${name:-content}`. -/
def reference? (cs : List Char) : Option (String × Option String × List Char) :=
  match cs with
  | '$' :: '\x7b' :: rest =>
    match rest.span fun c => c != '\x7d' && c != ':' with
    | (name, '\x7d' :: after) => some (String.ofList name, none, after)
    | (name, ':' :: '-' :: content) =>
      match content.span (· != '\x7d') with
      | (fallback, _ :: after) => some (String.ofList name, some (String.ofList fallback), after)
      | _ => none
    | _ => none
  | _ => none

/-- Replaces references by what `find?` knows of the names; an unknown name has no content. -/
def expand (find? : String → Option String) (fuel : Nat) (cs : List Char) : List Char :=
  match fuel, cs with
  | 0, _ | _, [] => cs
  | fuel + 1, c :: rest =>
    match reference? (c :: rest) with
    | some (name, fallback?, after) =>
      (((find? name).or fallback?).getD "").toList ++ expand find? fuel after
    | none => c :: expand find? fuel rest

/-- What a reference finds: earlier bindings count before the environment. A name that stands alone
hides the environment, but has no content. -/
def lookup (environment : List (String × String)) (done : List Binding) (name : String) :
    Option String :=
  match done.lookup name with
  | some content? => some (content?.getD "")
  | none => environment.lookup name

def resolve (environment : List (String × String)) (bindings : List Binding) : List Binding :=
  bindings.foldl (fun done (name, content?) =>
    let expanded? := content?.map fun s =>
      String.ofList (expand (lookup environment done) s.length s.toList)
    Keyed.insert done name expanded?) []

/-- The bindings of an environment file, with references replaced. -/
def read (environment : List (String × String)) (s : String) : List Binding :=
  resolve environment (readBindings (s.length + 1) s.toList)

end CeilingGate.EnvFile
