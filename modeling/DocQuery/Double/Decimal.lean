import DocQuery.Double.Rounding
/-!
# Decimals of a double

A decimal is a natural number times a power of ten.  Reading rounds it to the nearest double.  Writing looks for
the fewest digits that read back: on the decimal grids of one digit, two digits and so on it tests the two
neighbours of the number, and takes the first grid on which one of them reads back.
-/
namespace DocQuery

/-- **A decimal**: `digits · 10^exponent`. -/
structure Decimal where
  digits : Nat
  exponent : Int
  deriving DecidableEq, Repr

inductive Tie where
  | even
  | up
  deriving DecidableEq, Repr

namespace Double

/-! ## Reading -/

/-- The double nearest to a decimal.  The two bounds on the exponent keep the powers of ten small; past them
the nearest double is infinity and zero. -/
def ofDecimal (negative : Bool) (d : Decimal) : Double :=
  if d.digits = 0 then zero negative
  else if 310 ≤ d.exponent then .infinite negative
  else if d.exponent + d.digits.log2 < -400 then zero negative
  else ofRatio negative (d.digits * Nat.pow 10 d.exponent.toNat) (Nat.pow 10 (-d.exponent).toNat)

/-! ## The fewest digits -/

def readsBack (rank : Nat) (d : Decimal) : Bool :=
  match ofDecimal false d with
  | .finite _ r => r.val == rank
  | _ => false

/-- The place before the leading digit: the least `p` with `num / den < 10^p`, for a positive magnitude
of a double. -/
def leadingPlace (num den : Nat) : Int :=
  (Nat.toDigits 10 (num * Nat.pow 10 350 / den)).length - 350

/-- The decimal with the given number of digits that reads back, the nearer one if two do. -/
def onGrid? (tie : Tie) (rank : Nat) (digits : Nat) : Option Decimal :=
  let exponent := leadingPlace (units rank) (Nat.pow 2 unitExponent) - digits
  let num := units rank * Nat.pow 10 (-exponent).toNat
  let den := Nat.pow 2 unitExponent * Nat.pow 10 exponent.toNat
  let below : Decimal := ⟨num / den, exponent⟩
  let above : Decimal := ⟨num / den + 1, exponent⟩
  let twice := 2 * (num % den)
  let preferBelow := twice < den || (twice == den && tie == .even && below.digits % 2 == 0)
  match readsBack rank below, readsBack rank above with
  | true, true => some (if preferBelow then below else above)
  | true, false => some below
  | false, true => some above
  | false, false => none

def exactDecimal (rank : Nat) : Decimal :=
  ⟨units rank * Nat.pow 5 unitExponent, -unitExponent⟩

/-- The decimal with the fewest digits that reads back as the magnitude of the rank.  Seventeen digits always
suffice; the exact decimal stands behind them so that the answer reads back in any case. -/
def shortest (tie : Tie) (rank : Nat) : Decimal :=
  ((List.range 17).findSome? fun n => onGrid? tie rank (n + 1)).getD (exactDecimal rank)

end Double
end DocQuery
