/-!
# Double-precision numbers

The sixty-four-bit binary numbers of IEEE 754, as a type of its own whose arithmetic is exact on natural
numbers, so that statements about comparison, rounding and printing are statements about `Nat` and `Int`.

The finite magnitudes are counted upwards from zero, and a magnitude is represented by its **rank** in that
count.  Below rank `2^52` the ranks are the multiples of the unit `2^-1074` themselves; every further run of
`2^52` ranks doubles the step.  Rank order is therefore the order of the magnitudes, and the rank with the
sign bit in front is the interchange format.
-/
namespace DocQuery

/-- The number of finite magnitudes: one past the rank of the largest. -/
def Double.ranks : Nat := 2047 * Nat.pow 2 52

/-- **A double-precision number.**  The payload of a not-a-number is not kept. -/
inductive Double where
  | nan
  | infinite (negative : Bool)
  | finite (negative : Bool) (rank : Fin Double.ranks)
  deriving DecidableEq, Repr

namespace Double

instance : Inhabited Double := ⟨.nan⟩

/-! ## Magnitudes -/

/-- The significand of a rank: below `2^53`, and at least `2^52` unless the exponent is the least. -/
def significand (rank : Nat) : Nat :=
  if rank < Nat.pow 2 52 then rank else Nat.pow 2 52 + rank % Nat.pow 2 52

def scale (rank : Nat) : Nat :=
  rank / Nat.pow 2 52 - 1

/-- The magnitude of a rank in units of `2^-1074`. -/
def units (rank : Nat) : Nat :=
  significand rank * Nat.pow 2 (scale rank)

def unitExponent : Nat := 1074

def zero (negative : Bool) : Double :=
  .finite negative ⟨0, by decide⟩

def isFinite : Double → Bool
  | .finite .. => true
  | _ => false

def isNaN : Double → Bool
  | .nan => true
  | _ => false

def neg : Double → Double
  | .nan => .nan
  | .infinite n => .infinite !n
  | .finite n r => .finite (!n) r

/-! ## Order -/

def signed (negative : Bool) (magnitude : Nat) : Int :=
  if negative then -(magnitude : Int) else magnitude

/-- The place of a number in the order of all numbers: its rank with its sign, the infinities one past the
largest rank.  The two zeros share a place, and a not-a-number has none. -/
def place? : Double → Option Int
  | .nan => none
  | .infinite n => some (signed n ranks)
  | .finite n r => some (signed n r)

/-- Numeric equality.  A not-a-number equals nothing, and the two zeros are equal. -/
def eqv (a b : Double) : Bool :=
  match a.place?, b.place? with
  | some x, some y => x == y
  | _, _ => false

/-- Whether a number is less than another; no comparison with a not-a-number holds. -/
def lt (a b : Double) : Bool :=
  match a.place?, b.place? with
  | some x, some y => x < y
  | _, _ => false

def le (a b : Double) : Bool :=
  match a.place?, b.place? with
  | some x, some y => x ≤ y
  | _, _ => false

/-! ## Interchange format -/

/-- The bits of a number, sign first; a not-a-number is written with its first fraction bit set. -/
def toBits : Double → Nat
  | .nan => ranks + Nat.pow 2 51
  | .infinite n => (if n then Nat.pow 2 63 else 0) + ranks
  | .finite n r => (if n then Nat.pow 2 63 else 0) + r

def ofBits (bits : UInt64) : Double :=
  let rank := bits.toNat % Nat.pow 2 63
  let negative := Nat.pow 2 63 ≤ bits.toNat
  if h : rank < ranks then .finite negative ⟨rank, h⟩
  else if rank = ranks then .infinite negative
  else .nan

end Double
end DocQuery
