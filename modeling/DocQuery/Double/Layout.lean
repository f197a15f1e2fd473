import DocQuery.Double.Decimal
/-!
# Layouts of a double as text

The digits of a number are laid out either positionally (`0.001`, `30.0`) or with an exponent (`1.5e+300`).  A
layout says where each form is used and which of two equally near decimals is taken; the formats that write
numbers each fix one such record.
-/
namespace DocQuery

/-- **A way of writing numbers.**  `positional e` says whether a number whose leading digit stands for `10^e` is
written without an exponent. -/
structure Layout where
  tie : Tie
  positional : Int → Bool

namespace Layout

def visibleFractionBelow : Int := 16

def dropTrailingZeros (digits : List Char) : List Char :=
  (digits.reverse.dropWhile (· == '0')).reverse

/-- Digits with the point at a place: `place` digits stand before it, zeros filling up where there are none. -/
def positionalText (digits : List Char) (place : Int) : List Char :=
  if place ≤ 0 then '0' :: '.' :: (List.replicate (-place).toNat '0' ++ digits)
  else if digits.length ≤ place then
    digits ++ List.replicate (place.toNat - digits.length) '0' ++
      (if place ≤ visibleFractionBelow then ['.', '0'] else [])
  else digits.take place.toNat ++ '.' :: digits.drop place.toNat

def exponentText (digits : List Char) (exponent : Int) : List Char :=
  digits.take 1 ++ (if digits.length ≤ 1 then [] else '.' :: digits.drop 1) ++
    'e' :: (if exponent < 0 then '-' else '+') :: Nat.toDigits 10 exponent.natAbs

def magnitudeText (layout : Layout) (rank : Nat) : List Char :=
  if rank = 0 then ['0', '.', '0']
  else
    let decimal := Double.shortest layout.tie rank
    let written := Nat.toDigits 10 decimal.digits
    let place := decimal.exponent + written.length
    let digits := dropTrailingZeros written
    if layout.positional (place - 1) then positionalText digits place
    else exponentText digits (place - 1)

def finiteText (layout : Layout) (negative : Bool) (rank : Nat) : List Char :=
  (if negative then ['-'] else []) ++ layout.magnitudeText rank

end Layout
end DocQuery
