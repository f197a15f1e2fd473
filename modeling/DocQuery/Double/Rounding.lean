import DocQuery.Double.Basic
/-!
# Rounding to double precision, and arithmetic

Every operation computes its exact result as a fraction of natural numbers and rounds once, to the nearest
double, a tie going to the even significand.  `ofRatio` is the only place where rounding happens.
-/
namespace DocQuery.Double

/-- A quotient rounded to the nearest natural number, a half going to the even neighbour. -/
def roundDiv (num den : Nat) : Nat :=
  let q := num / den
  let r := num % den
  if 2 * r < den ∨ (2 * r = den ∧ q % 2 = 0) then q else q + 1

/-- The rank nearest to a magnitude of `num / den` units.  The scale is the least one at which the significand
fits in fifty-three bits.  Rounding up to the next power of two needs no care: the ranks run on across it. -/
def rankOfUnits (num den : Nat) : Nat :=
  let shift := (num / den).log2 - 52
  shift * Nat.pow 2 52 + roundDiv num (den * Nat.pow 2 shift)

/-- The double of a rank; past the largest finite one lies infinity. -/
def ofRank (negative : Bool) (rank : Nat) : Double :=
  if h : rank < ranks then .finite negative ⟨rank, h⟩ else .infinite negative

def ofRatio (negative : Bool) (num den : Nat) : Double :=
  ofRank negative (rankOfUnits (num * Nat.pow 2 unitExponent) den)

def ofNat (n : Nat) : Double :=
  ofRatio false n 1

def ofInt (i : Int) : Double :=
  ofRatio (i < 0) i.natAbs 1

/-! ## Arithmetic -/

/-- The sum.  Of two finite numbers it is exact before it is rounded; an exact zero is negative only if both
numbers are. -/
def add : Double → Double → Double
  | .nan, _ => .nan
  | _, .nan => .nan
  | .infinite m, .infinite n => if m = n then .infinite m else .nan
  | .infinite m, .finite .. => .infinite m
  | .finite .., .infinite n => .infinite n
  | .finite m r, .finite n s =>
    let total := signed m (units r) + signed n (units s)
    if total = 0 then zero (m && n)
    else ofRatio (total < 0) total.natAbs (Nat.pow 2 unitExponent)

def mul : Double → Double → Double
  | .nan, _ => .nan
  | _, .nan => .nan
  | .infinite m, .infinite n => .infinite (m != n)
  | .infinite m, .finite n r => if r.val = 0 then .nan else .infinite (m != n)
  | .finite m r, .infinite n => if r.val = 0 then .nan else .infinite (m != n)
  | .finite m r, .finite n s => ofRatio (m != n) (units r * units s) (Nat.pow 2 (2 * unitExponent))

def div : Double → Double → Double
  | .nan, _ => .nan
  | _, .nan => .nan
  | .infinite _, .infinite _ => .nan
  | .infinite m, .finite n _ => .infinite (m != n)
  | .finite m _, .infinite n => zero (m != n)
  | .finite m r, .finite n s =>
    if s.val = 0 then (if r.val = 0 then .nan else .infinite (m != n))
    else ofRatio (m != n) (units r) (units s)

end DocQuery.Double
