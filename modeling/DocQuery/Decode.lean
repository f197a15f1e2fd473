import DocQuery.Json.Reader
import DocQuery.Yaml.Reader
/-!
# Decoding

Documents come in two formats and are decoded to the same values.  An error says where the text is at fault and
what is wrong there.
-/
namespace DocQuery

inductive Format where
  | json
  | yaml
  deriving DecidableEq, Repr

inductive DecodeError where
  | json (fault : Json.Fault) (position : Json.Position)
  | yaml (fault : Yaml.Fault) (line : Nat)
  deriving DecidableEq, Repr

namespace DecodeError

def line : DecodeError → Nat
  | .json _ p => p.line
  | .yaml _ l => l

def detail : DecodeError → String
  | .json f _ => f.message
  | .yaml f _ => f.message

def message : DecodeError → String
  | .json f p => s!"Invalid JSON at line {p.line}, column {p.column}: {f.message}"
  | .yaml f l => s!"Invalid YAML at line {l}: {f.message}"

end DecodeError

def decodeJson (text : String) : Except DecodeError Value :=
  match Json.document text.toList with
  | .ok v => .ok v
  | .error halt => .error (.json halt.fault (halt.position text.toList))

def decodeYaml (text : String) : Except DecodeError Value :=
  match Yaml.document text.toList with
  | .ok v => .ok v
  | .error halt => .error (.yaml halt.fault halt.line)

def decode (format : Format) (text : String) : Except DecodeError Value :=
  match format with
  | .json => decodeJson text
  | .yaml => decodeYaml text

end DocQuery
