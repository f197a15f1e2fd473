import DocQuery.Double.Layout
/-!
# Numbers of a document

A number remembers whether it was written as an integer.  Two integers compare exactly; any other pair compares
as doubles, so `30` and `30.0` are equal.
-/
namespace DocQuery

def int64? (i : Int) : Option Int64 :=
  if h : Int64.minValue.toInt ≤ i ∧ i ≤ Int64.maxValue.toInt then some (Int64.ofIntLE i h.1 h.2) else none

theorem int64?_toInt (i : Int64) : int64? i.toInt = some i := by
  rw [int64?, dif_pos ⟨i.minValue_le_toInt, i.toInt_le⟩, Int64.ofIntLE_toInt]

theorem int64?_eq_some_iff {n : Int} {i : Int64} : int64? n = some i ↔ n = i.toInt := by
  constructor
  · intro h
    unfold int64? at h
    split at h
    · cases h
      exact Int64.toInt_ofIntLE.symm
    · cases h
  · intro h
    rw [h]
    exact int64?_toInt i

/-- **A number of a document**: a 64-bit integer or a double. -/
inductive Number where
  | integer (value : Int64)
  | float (value : Double)
  deriving DecidableEq, Repr

namespace Number

instance : Inhabited Number := ⟨.integer 0⟩

def isInteger : Number → Bool
  | .integer _ => true
  | .float _ => false

def toDouble : Number → Double
  | .integer i => .ofInt i.toInt
  | .float x => x

/-! ## Comparison -/

def eqv : Number → Number → Bool
  | .integer a, .integer b => a == b
  | a, b => a.toDouble.eqv b.toDouble

def lt : Number → Number → Bool
  | .integer a, .integer b => a < b
  | a, b => a.toDouble.lt b.toDouble

def le : Number → Number → Bool
  | .integer a, .integer b => a ≤ b
  | a, b => a.toDouble.le b.toDouble

/-! ## Plain text -/

def integerText (i : Int) : List Char :=
  if i < 0 then '-' :: Nat.toDigits 10 i.natAbs else Nat.toDigits 10 i.natAbs

/-- Plain text never has an exponent.  Of two equally near decimals the greater is taken. -/
def plainLayout : Layout := ⟨.up, fun _ => true⟩

/-- The plain text of a number.  An integer has no fraction, and an integral float shows one below `10^16`. -/
def plainText : Number → List Char
  | .integer i => integerText i.toInt
  | .float .nan => ['N', 'a', 'N']
  | .float (.infinite n) => (if n then ['-'] else []) ++ ['i', 'n', 'f']
  | .float (.finite n r) => plainLayout.finiteText n r

end Number
end DocQuery
