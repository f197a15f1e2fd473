import DocQuery.Json.Writer
/-!
# Output formats

A value is shown as JSON, as a table, as its keys, as its values one a line, or as plain text.  What has not the shape
that a format needs is shown in another way rather than refused.
-/
namespace DocQuery

inductive OutputFormat where
  | json
  | csv
  | keys
  | values
  | plain
  deriving DecidableEq, Repr

def OutputFormat.all : List OutputFormat :=
  [.json, .csv, .keys, .values, .plain]

def OutputFormat.name : OutputFormat → String
  | .json => "json"
  | .csv => "csv"
  | .keys => "keys"
  | .values => "values"
  | .plain => "plain"

def OutputFormat.ofName? (name : String) : Option OutputFormat :=
  all.find? fun format => format.name == name

/-! ## Tables -/

namespace Csv

def needsQuotes (c : Char) : Bool :=
  c == ',' || c == '"' || c == '\n' || c == '\r'

def doubled (cs : List Char) : List Char :=
  cs.flatMap fun c => if c = '"' then ['"', '"'] else [c]

def field (text : String) : List Char :=
  if text.toList.any needsQuotes then '"' :: (doubled text.toList ++ ['"']) else text.toList

def row (fields : List (List Char)) : List Char :=
  [','].intercalate fields

def cell (element : Value) (key : String) : List Char :=
  match element.get? key with
  | some v => field v.plainText
  | none => []

def table (keys : List String) (elements : List Value) : List Char :=
  ['\n'].intercalate (row (keys.map field) :: elements.map fun element => row (keys.map (cell element)))

/-- The table of a value.  Only an array that begins with an object has one. -/
def ofValue? : Value → Option String
  | .array (.object entries :: rest) =>
    some (String.ofList (table (Entries.keys entries) (.object entries :: rest)))
  | _ => none

end Csv

/-! ## Formats -/

namespace Value

def keyLines : Value → String
  | .object entries => "\n".intercalate (Entries.keys entries)
  | .array (.object entries :: _) => "\n".intercalate (Entries.keys entries)
  | _ => "Not a dictionary"

def valueLines : Value → String
  | .object entries => "\n".intercalate (entries.map fun e => e.2.plainText)
  | .array items => "\n".intercalate (items.map plainText)
  | .scalar s => s.plainText

def render (format : OutputFormat) (indented : Bool) (v : Value) : String :=
  match format with
  | .json => if indented then v.indentedJson else v.compactJson
  | .csv => (Csv.ofValue? v).getD v.compactJson
  | .keys => v.keyLines
  | .values => v.valueLines
  | .plain =>
    match v with
    | .scalar s => s.plainText
    | v => v.indentedJson

end Value
end DocQuery
