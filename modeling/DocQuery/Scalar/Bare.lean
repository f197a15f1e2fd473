import DocQuery.Scalar.Basic
import DocQuery.Scalar.Quoted
import DocQuery.Text.Blank
/-!
# Typing of bare text

A scalar of a block document and the literal of a filter are typed by the same rules, so a value written in a
document and the same text written in a filter compare equal: quoted text is a string, the words for truth values
and for null count in any case, numbers are decimal, and everything else is a string as it stands.
-/
namespace DocQuery.Scalar

/-! ## Numbers -/

def splitSign : List Char → Bool × List Char
  | '-' :: cs => (true, cs)
  | '+' :: cs => (false, cs)
  | cs => (false, cs)

/-- An exponent: nothing, or the letter with an optional sign and at least one digit. -/
def exponent? : List Char → Option Int
  | [] => some 0
  | e :: cs =>
    let (negative, digits) := splitSign cs
    if (e = 'e' || e = 'E') && !digits.isEmpty && digits.all Char.isDigit then
      some (Double.signed negative (Nat.ofDigitChars 10 digits 0))
    else none

/-- A decimal without its sign: digits with at most one point among them or at either end, then an exponent. -/
def decimal? (cs : List Char) : Option Decimal :=
  let whole := cs.takeWhile Char.isDigit
  let (fraction, rest) := match cs.dropWhile Char.isDigit with
    | '.' :: r => (r.takeWhile Char.isDigit, r.dropWhile Char.isDigit)
    | r => ([], r)
  if (whole ++ fraction).isEmpty then none
  else (exponent? rest).map fun e => ⟨Nat.ofDigitChars 10 (whole ++ fraction) 0, e - fraction.length⟩

/-- A number.  Digits alone are an integer as long as it fits in sixty-four bits; any other decimal is rounded
to the nearest double. -/
def number? (cs : List Char) : Option Number :=
  let (negative, digits) := splitSign cs
  let asFloat := (decimal? digits).map fun d => Number.float (.ofDecimal negative d)
  if digits.all Char.isDigit && !digits.isEmpty then
    match int64? (Double.signed negative (Nat.ofDigitChars 10 digits 0)) with
    | some i => some (.integer i)
    | none => asFloat
  else asFloat

/-! ## Words -/

def word? (cs : List Char) : Option Scalar :=
  let lower := cs.map Char.toLower
  if lower = ['t', 'r', 'u', 'e'] then some (.boolean true)
  else if lower = ['f', 'a', 'l', 's', 'e'] then some (.boolean false)
  else if lower = ['n', 'u', 'l', 'l'] || lower = ['n', 'o', 'n', 'e'] then some .null
  else none

def ofTrimmed (cs : List Char) : Scalar :=
  match Quoted.unquote? cs with
  | some s => .string (String.ofList s)
  | none =>
    match word? cs with
    | some w => w
    | none =>
      match number? cs with
      | some n => .number n
      | none => .string (String.ofList cs)

def ofText (cs : List Char) : Scalar :=
  ofTrimmed (Text.trim cs)

end DocQuery.Scalar
