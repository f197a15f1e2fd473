import DocQuery.Pattern.Engine
import DocQuery.Value.Equality
import DocQuery.Json.Writer
/-!
# Predicates

A filter tests one field of an object against a scalar.  A predicate holds the field, the test and the scalar; the
test that searches for a pattern holds that pattern, so there is a compiled pattern exactly where one is needed.
-/
namespace DocQuery

inductive Operator where
  | equal
  | notEqual
  | greater
  | less
  | greaterEqual
  | lessEqual
  | search
  deriving DecidableEq, Repr

namespace Operator

def all : List Operator :=
  [.equal, .notEqual, .greaterEqual, .lessEqual, .greater, .less, .search]

def symbol : Operator → String
  | .equal => "=="
  | .notEqual => "!="
  | .greater => ">"
  | .less => "<"
  | .greaterEqual => ">="
  | .lessEqual => "<="
  | .search => "~"

def ofSymbol? (symbol : String) : Option Operator :=
  all.find? fun op => op.symbol == symbol

def isOrdering : Operator → Bool
  | .greater | .less | .greaterEqual | .lessEqual => true
  | _ => false

end Operator

inductive Filter.Fault where
  | missingField (expression : String)
  | dottedField (field : String)
  | missingOperator (field : String)
  | unknownOperator (symbol : String)
  | missingValue (field : String) (operator : Operator)
  | notScalar (kind : String)
  deriving DecidableEq, Repr

def Filter.Fault.message : Filter.Fault → String
  | .missingField expression => s!"missing field name in '{expression}'"
  | .dottedField field => s!"field '{field}' must be a plain name; nested paths are not supported"
  | .missingOperator field => s!"expected an operator after '{field}' (one of == != > < >= <= ~)"
  | .unknownOperator symbol => s!"unknown operator '{symbol}' (expected one of == != > < >= <= ~)"
  | .missingValue field operator => s!"missing value after '{field} {operator.symbol}'"
  | .notScalar kind => s!"filter value must be a scalar, not {kind}"

/-- **Why there is no predicate**: the filter is malformed, or its pattern is no pattern. -/
inductive Filter.Error where
  | malformed (fault : Filter.Fault)
  | invalidPattern (pattern : String)
  deriving DecidableEq, Repr

def invalidPatternMessage (pattern : String) : String :=
  s!"Invalid pattern '{pattern}'"

def Filter.Error.message : Filter.Error → String
  | .malformed fault => s!"Invalid filter expression: {fault.message}"
  | .invalidPattern pattern => invalidPatternMessage pattern

/-- **A test of a field.** -/
inductive FieldTest where
  | equal
  | notEqual
  | greater
  | less
  | greaterEqual
  | lessEqual
  | search (pattern : Pattern)

def FieldTest.operator : FieldTest → Operator
  | .equal => .equal
  | .notEqual => .notEqual
  | .greater => .greater
  | .less => .less
  | .greaterEqual => .greaterEqual
  | .lessEqual => .lessEqual
  | .search _ => .search

def FieldTest.pattern? : FieldTest → Option Pattern
  | .search pattern => some pattern
  | _ => none

structure Predicate where
  field : String
  test : FieldTest
  literal : Scalar

namespace Predicate

def operator (p : Predicate) : Operator :=
  p.test.operator

def ofScalar [Pattern.Engine] (field : String) (operator : Operator) (literal : Scalar) :
    Except Filter.Error Predicate :=
  match operator with
  | .equal => .ok ⟨field, .equal, literal⟩
  | .notEqual => .ok ⟨field, .notEqual, literal⟩
  | .greater => .ok ⟨field, .greater, literal⟩
  | .less => .ok ⟨field, .less, literal⟩
  | .greaterEqual => .ok ⟨field, .greaterEqual, literal⟩
  | .lessEqual => .ok ⟨field, .lessEqual, literal⟩
  | .search =>
    match Pattern.compile? false literal.plainText with
    | some pattern => .ok ⟨field, .search pattern, literal⟩
    | none => .error (.invalidPattern literal.plainText)

def ofValue [Pattern.Engine] (field : String) (operator : Operator) (literal : Value) : Except Filter.Error Predicate :=
  match literal with
  | .scalar s => ofScalar field operator s
  | v => .error (.malformed (.notScalar v.kindName))

/-- Equality of predicates: field, operator and literal, the latter as values are equal. -/
def eqv (p q : Predicate) : Bool :=
  p.field == q.field && p.operator == q.operator && p.literal.eqv q.literal

def text (p : Predicate) : String :=
  match p.literal with
  | .string s => s!"{p.field} {p.operator.symbol} \"{s}\""
  | literal => s!"{p.field} {p.operator.symbol} {literal.plainText}"

/-! ## Testing -/

/-- Whether the value of the field passes.  Comparisons by size need two numbers, and a search needs a string. -/
def accepts (p : Predicate) (v : Value) : Bool :=
  let numbers (f : Number → Number → Bool) : Bool :=
    match v, p.literal with
    | .scalar (.number m), .number n => f m n
    | _, _ => false
  match p.test with
  | .equal => v.eqv (.scalar p.literal)
  | .notEqual => !v.eqv (.scalar p.literal)
  | .greater => numbers fun m n => n.lt m
  | .less => numbers fun m n => m.lt n
  | .greaterEqual => numbers fun m n => n.le m
  | .lessEqual => numbers fun m n => m.le n
  | .search pattern =>
    match v with
    | .scalar (.string s) => pattern.isMatch s
    | _ => false

def holds (p : Predicate) (element : Value) : Bool :=
  match element.get? p.field with
  | some v => p.accepts v
  | none => false

end Predicate
end DocQuery
