import DocQuery.Number
/-!
# Scalars

The values without parts.  A scalar is what a leaf of a document holds, and what a filter compares with.
-/
namespace DocQuery

inductive Scalar where
  | null
  | boolean (value : Bool)
  | number (value : Number)
  | string (value : String)
  deriving DecidableEq, Repr, Inhabited

namespace Scalar

def eqv : Scalar → Scalar → Bool
  | .null, .null => true
  | .boolean a, .boolean b => a == b
  | .number a, .number b => a.eqv b
  | .string a, .string b => a == b
  | _, _ => false

/-- The plain text of a scalar: a string without quotes, everything else as its literal. -/
def plainText : Scalar → String
  | .null => "null"
  | .boolean b => if b then "true" else "false"
  | .number n => String.ofList n.plainText
  | .string s => s

end Scalar
end DocQuery
