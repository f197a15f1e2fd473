import DocQuery.Filter.Basic
import DocQuery.Scalar.Bare
/-!
# Predicates from text

A filter is written as a field, an operator and a literal, with blanks around the operator where one likes.  The
field ends at the first blank or operator character, and the operator takes all operator characters in a row, so
`a>=1` is never read as `a > =1`.
-/
namespace DocQuery.Filter

def isOperatorChar (c : Char) : Bool :=
  c == '=' || c == '!' || c == '<' || c == '>' || c == '~'

def split (cs : List Char) : List Char × List Char × List Char :=
  let endsField (c : Char) : Bool := isOperatorChar c || Text.isBlank c
  let rest := Text.trimStart (cs.dropWhile fun c => !endsField c)
  (cs.takeWhile fun c => !endsField c, rest.takeWhile isOperatorChar, Text.trim (rest.dropWhile isOperatorChar))

/-- The literal of an operator.  A search takes its literal as text, with quotes removed. -/
def literal (operator : Operator) (cs : List Char) : Scalar :=
  match operator with
  | .search => .string (String.ofList ((Quoted.unquote? cs).getD cs))
  | _ => .ofText cs

def parse [Pattern.Engine] (text : String) : Except Error Predicate :=
  let cs := Text.trim text.toList
  let (field, symbol, value) := split cs
  let name := String.ofList field
  if field.isEmpty then .error (.malformed (.missingField (String.ofList cs)))
  else if field.contains '.' then .error (.malformed (.dottedField name))
  else if symbol.isEmpty then .error (.malformed (.missingOperator name))
  else
    match Operator.ofSymbol? (String.ofList symbol) with
    | none => .error (.malformed (.unknownOperator (String.ofList symbol)))
    | some operator =>
      if value.isEmpty then .error (.malformed (.missingValue name operator))
      else Predicate.ofScalar name operator (literal operator value)

end DocQuery.Filter
