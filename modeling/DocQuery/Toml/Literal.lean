import DocQuery.Scalar.Bare
import DocQuery.Text.Hexadecimal
/-!
# Numbers and dates of a settings file

Which words are numbers, dates and times.  Digits may be grouped by underscores, integers have sixty-four bits, and
dates exist in the calendar.
-/
namespace DocQuery.Toml

def isGrouped (isDigit : Char → Bool) (cs : List Char) : Bool :=
  let rec go (afterDigit : Bool) : List Char → Bool
    | [] => afterDigit
    | c :: cs => if c = '_' then afterDigit && go false cs else isDigit c && go true cs
  go false cs

def ungrouped (cs : List Char) : List Char :=
  cs.filter (· != '_')

def isWhole (cs : List Char) : Bool :=
  isGrouped Char.isDigit cs && (cs.head? != some '0' || cs.length == 1)

/-- Digits of a base of at most sixteen that make a number of sixty-four bits. -/
def fitsBase (base : Nat) (cs : List Char) : Bool :=
  let isDigit (c : Char) : Bool := (Text.hexValue? c).any (· < base)
  let value := (ungrouped cs).foldl (fun n c => base * n + (Text.hexValue? c).getD 0) 0
  isGrouped isDigit cs && value < Nat.pow 2 63

def isInteger (cs : List Char) : Bool :=
  match cs with
  | '0' :: 'x' :: digits => fitsBase 16 digits
  | '0' :: 'o' :: digits => fitsBase 8 digits
  | '0' :: 'b' :: digits => fitsBase 2 digits
  | _ =>
    let (negative, digits) := Scalar.splitSign cs
    isWhole digits && (int64? (Double.signed negative (Nat.ofDigitChars 10 (ungrouped digits) 0))).isSome

/-- A number with a fraction or an exponent, whose value is finite, or one of the words for what is no number or
not finite. -/
def isFloat (cs : List Char) : Bool :=
  let (_, magnitude) := Scalar.splitSign cs
  if magnitude = ['i', 'n', 'f'] || magnitude = ['n', 'a', 'n'] then true
  else
    let isExponentMark (c : Char) : Bool := c == 'e' || c == 'E'
    let mantissa := magnitude.takeWhile fun c => !isExponentMark c
    let whole := mantissa.takeWhile (· != '.')
    let fractionFits := match mantissa.dropWhile (· != '.') with
      | [] => true
      | _ :: fraction => isGrouped Char.isDigit fraction
    let exponentFits := match magnitude.dropWhile fun c => !isExponentMark c with
      | [] => mantissa.contains '.'
      | _ :: exponent => isGrouped Char.isDigit (Scalar.splitSign exponent).2
    let isFinite := match Scalar.decimal? (ungrouped magnitude) with
      | some d => (Double.ofDecimal false d).isFinite
      | none => false
    isWhole whole && fractionFits && exponentFits && isFinite

/-! ## Dates and times -/

def fixedDigits? (digits : Nat) (cs : List Char) : Option (Nat × List Char) :=
  let taken := cs.take digits
  if taken.length = digits && taken.all Char.isDigit then some (Nat.ofDigitChars 10 taken 0, cs.drop digits)
  else none

def behind? (c : Char) (cs : List Char) : Option (List Char) :=
  match cs with
  | d :: rest => if d = c then some rest else none
  | [] => none

def daysIn (year month : Nat) : Nat :=
  if month = 2 then if (year % 4 = 0 && year % 100 ≠ 0) || year % 400 = 0 then 29 else 28
  else if [4, 6, 9, 11].contains month then 30
  else 31

def date? (cs : List Char) : Option (List Char) := do
  let (year, cs) ← fixedDigits? 4 cs
  let (month, cs) ← fixedDigits? 2 (← behind? '-' cs)
  let (day, cs) ← fixedDigits? 2 (← behind? '-' cs)
  if 1 ≤ month && month ≤ 12 && 1 ≤ day && day ≤ daysIn year month then some cs else none

def clock? (cs : List Char) : Option (List Char) := do
  let (hour, cs) ← fixedDigits? 2 cs
  let (minute, cs) ← fixedDigits? 2 (← behind? ':' cs)
  if hour ≤ 23 && minute ≤ 59 then some cs else none

/-- A time of the day, perhaps with a fraction of the second; and the text behind it. -/
def time? (cs : List Char) : Option (List Char) := do
  let cs ← clock? cs
  let (second, cs) ← fixedDigits? 2 (← behind? ':' cs)
  if 60 < second then none
  else
    match cs with
    | '.' :: fraction =>
      let rest := fraction.dropWhile Char.isDigit
      if rest.length < fraction.length then some rest else none
    | rest => some rest

def isOffset (cs : List Char) : Bool :=
  match cs with
  | [] => true
  | ['Z'] => true
  | ['z'] => true
  | '+' :: rest => clock? rest == some []
  | '-' :: rest => clock? rest == some []
  | _ => false

def isDate (cs : List Char) : Bool :=
  date? cs == some []

def isOffsetTime (cs : List Char) : Bool :=
  (time? cs).any isOffset

def isDateTime (cs : List Char) : Bool :=
  time? cs == some [] || isDate cs ||
    match date? cs with
    | some ('T' :: rest) => isOffsetTime rest
    | some ('t' :: rest) => isOffsetTime rest
    | _ => false

end DocQuery.Toml
