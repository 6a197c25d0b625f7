import CeilingGate.Settings.Sources

/-! The files of the certificate and its key: both or neither. -/
namespace CeilingGate.Settings

inductive TlsFault
  | incomplete
  | missingFile (path : RawText)
deriving DecidableEq, Repr

def TlsFault.message : TlsFault → String
  | .incomplete => "both --tls-cert-file and --tls-private-key-file are required for TLS"
  | .missingFile _ => "unable to load certificates"

def TlsFault.details : TlsFault → List (String × Option RawText)
  | .incomplete => []
  | .missingFile path => [("path", some path)]

/-- An empty path counts as none. -/
def isGiven (path? : Option RawText) : Bool := path?.any fun path => !path.isEmpty

/-- A broken text is the name of no file. -/
def isFile (files : Files) : RawText → Bool
  | .plain s => files.isFile (.ofText s)
  | .broken _ => false

/-- The paths of certificate and key, if the files are there. -/
def tlsFiles (files : Files) (s : Settings) : Except TlsFault (Option RawText × Option RawText) :=
  if isGiven s.tlsCertFile? != isGiven s.tlsKeyFile? then .error .incomplete
  else
    let paths := (s.tlsCertFile?.toList ++ s.tlsKeyFile?.toList).filter fun path => !path.isEmpty
    match paths.find? fun path => !isFile files path with
    | some path => .error (.missingFile path)
    | none => .ok (s.tlsCertFile?, s.tlsKeyFile?)

end CeilingGate.Settings
