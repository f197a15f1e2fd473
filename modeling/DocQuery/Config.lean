import DocQuery.Output
import DocQuery.Toml.Reader
/-!
# Settings

The settings of a user are read from a file.  What the file does not mention has its default, and a file that is
missing or wrong anywhere counts as empty.
-/
namespace DocQuery

structure Config where
  format : OutputFormat
  indented : Bool
  caseSensitiveSearch : Bool
  deriving DecidableEq, Repr

namespace Config

def default : Config := ⟨.json, true, false⟩

/-- The format that a value names: by a string, or by the only key of a table whose value holds nothing. -/
def formatOf? : Toml.Value → Option OutputFormat
  | .string name => OutputFormat.ofName? name
  | .table [(name, .table [])] => OutputFormat.ofName? name
  | .table [(name, .array [])] => OutputFormat.ofName? name
  | _ => none

def booleanOf? : Toml.Value → Option Bool
  | .boolean b => some b
  | _ => none

def setting {α : Type} (table : List (String × Toml.Value)) (name : String) (read : Toml.Value → Option α)
    (default : α) : Option α :=
  match table.lookup name with
  | some v => read v
  | none => some default

def ofTable? (table : List (String × Toml.Value)) : Option Config := do
  let format ← setting table "format" formatOf? default.format
  let indented ← setting table "pretty" booleanOf? default.indented
  let caseSensitiveSearch ← setting table "case_sensitive_search" booleanOf? default.caseSensitiveSearch
  return ⟨format, indented, caseSensitiveSearch⟩

def ofFile (content : Option ByteArray) : Config :=
  ((content.bind String.fromUTF8?).bind fun text => (Toml.parse? text).bind ofTable?).getD default

end Config
end DocQuery
