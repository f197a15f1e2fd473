import DocQuery.Json.Fault
import DocQuery.Number
/-!
# Numbers of JSON text

Digits are gathered into a significand of at most sixty-four bits.  From the first digit on that would not fit, the
digits of the whole part only raise the exponent and those of the fraction are dropped.  A number without fraction
and exponent is an integer if it fits; any other is the significand as a double, multiplied or divided once by a
power of ten that is itself a double.
-/
namespace DocQuery.Json

/-- The greatest significand: that of sixty-four bits without a sign. -/
def significandLimit : Nat := Nat.pow 2 64 - 1

/-- The greatest exponent that is read: that of thirty-two bits with a sign. -/
def exponentLimit : Nat := Nat.pow 2 31 - 1

/-- Digits gathered up to a limit: the number they make, how many were taken, and the text from the first
character that is no digit or would pass the limit. -/
def gather (limit : Nat) (number : Nat) : List Char → Nat × Nat × List Char
  | [] => (number, 0, [])
  | c :: cs =>
    if c.isDigit && 10 * number + (c.toNat - '0'.toNat) ≤ limit then
      let (n, taken, rest) := gather limit (10 * number + (c.toNat - '0'.toNat)) cs
      (n, taken + 1, rest)
    else (number, 0, c :: cs)

/-! ## The value of a float -/

def powerOfTen (n : Nat) : Double :=
  .ofNat (Nat.pow 10 n)

/-- A double scaled by a power of ten, or nothing when it becomes infinite.  Powers beyond `10^308` are taken off
in steps of that size. -/
def scaled? : Nat → Double → Int → Option Double
  | steps, f, e =>
    if e.natAbs ≤ 308 then
      if 0 ≤ e then
        let product := f.mul (powerOfTen e.natAbs)
        if product.isFinite then some product else none
      else some (f.div (powerOfTen e.natAbs))
    else if f.eqv (.zero false) then some f
    else if 0 ≤ e then none
    else
      match steps with
      | 0 => some (.zero false)
      | steps + 1 => scaled? steps (f.div (powerOfTen 308)) (e + 308)

def float (negative : Bool) (significand : Nat) (exponent : Int) (rest : List Char) :
    Except Halt (Number × List Char) :=
  match scaled? (exponent.natAbs / 308) (.ofNat significand) exponent with
  | some f => .ok (.float (if negative then f.neg else f), rest)
  | none => halt .numberOutOfRange rest

/-- The integer of a sign and a significand.  A negative zero and what does not fit are floats. -/
def integer (negative : Bool) (significand : Nat) : Number :=
  if negative && significand == 0 then .float (.zero true)
  else
    match int64? (Double.signed negative significand) with
    | some i => .integer i
    | none => .float (.ofRatio negative significand 1)

/-! ## Reading -/

def exponentPart (negative : Bool) (significand : Nat) (exponent : Int) (cs : List Char) :
    Except Halt (Number × List Char) :=
  let (down, digits) := match cs with
    | '+' :: r => (false, r)
    | '-' :: r => (true, r)
    | r => (false, r)
  match digits with
  | [] => halt .endInValue []
  | c :: _ =>
    if !c.isDigit then haltAt .invalidNumber digits
    else
      let (n, _, rest) := gather exponentLimit 0 digits
      if rest.head?.any Char.isDigit then
        if significand ≠ 0 && !down then haltAt .numberOutOfRange rest
        else .ok (.float (.zero negative), rest.dropWhile Char.isDigit)
      else float negative significand (if down then exponent - n else exponent + n) rest

def exponentOrEnd (negative : Bool) (significand : Nat) (exponent : Int) (cs : List Char) :
    Except Halt (Number × List Char) :=
  match cs with
  | 'e' :: r => exponentPart negative significand exponent r
  | 'E' :: r => exponentPart negative significand exponent r
  | r => float negative significand exponent r

def fractionPart (negative : Bool) (significand : Nat) (exponent : Int) (cs : List Char) :
    Except Halt (Number × List Char) :=
  match cs with
  | [] => halt .endInValue []
  | c :: _ =>
    if !c.isDigit then haltAt .invalidNumber cs
    else
      let (n, taken, rest) := gather significandLimit significand cs
      exponentOrEnd negative n (exponent - taken) (rest.dropWhile Char.isDigit)

def afterWhole (negative : Bool) (significand : Nat) (dropped : Nat) (cs : List Char) :
    Except Halt (Number × List Char) :=
  match cs with
  | '.' :: r => fractionPart negative significand dropped r
  | 'e' :: r => exponentPart negative significand dropped r
  | 'E' :: r => exponentPart negative significand dropped r
  | r => if dropped = 0 then .ok (integer negative significand, r) else float negative significand dropped r

def number (negative : Bool) (cs : List Char) : Except Halt (Number × List Char) :=
  match cs with
  | [] => halt .endInValue []
  | '0' :: r =>
    if r.head?.any Char.isDigit then haltAt .invalidNumber r else afterWhole negative 0 0 r
  | c :: _ =>
    if !c.isDigit then haltAt .invalidNumber cs
    else
      let (n, _, rest) := gather significandLimit 0 cs
      afterWhole negative n (rest.takeWhile Char.isDigit).length (rest.dropWhile Char.isDigit)

end DocQuery.Json
