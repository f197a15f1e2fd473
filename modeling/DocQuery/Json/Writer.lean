import DocQuery.Value.Basic
/-!
# Values as JSON text

One writer serves the compact and the indented form: they differ only in the white space that a `Spacing` puts
around the parts.  Strings escape the quote, the backslash and the control characters and nothing else, and a
float is written so that it reads as a float.
-/
namespace DocQuery.Json

/-- **White space between the parts of a text**: `gap d` goes before each part of a container and before its end,
at nesting depth `d`; `colon` stands between a key and its value. -/
structure Spacing where
  gap : Nat → List Char
  colon : List Char

def Spacing.compact : Spacing := ⟨fun _ => [], [':']⟩

/-- One part a line, indented by two spaces a level. -/
def Spacing.indented : Spacing := ⟨fun depth => '\n' :: List.replicate (2 * depth) ' ', [':', ' ']⟩

/-- Numbers between `10^-5` and `10^16` are written without an exponent.  Of two equally near decimals the one
with the even last digit is taken. -/
def numberLayout : Layout := ⟨.even, fun e => -5 ≤ e && e < 16⟩

/-- The text of a number.  JSON has no infinities, so a number that is not finite is written as null. -/
def numberText : Number → List Char
  | .integer i => Number.integerText i.toInt
  | .float (.finite n r) => numberLayout.finiteText n r
  | .float _ => ['n', 'u', 'l', 'l']

/-! ## Strings -/

def hexDigit (n : Nat) : Char :=
  Nat.digitChar (n % 16)

def escaped (c : Char) : List Char :=
  if c = '"' then ['\\', '"']
  else if c = '\\' then ['\\', '\\']
  else if c = '\x08' then ['\\', 'b']
  else if c = '\x0c' then ['\\', 'f']
  else if c = '\n' then ['\\', 'n']
  else if c = '\r' then ['\\', 'r']
  else if c = '\t' then ['\\', 't']
  else if c.toNat < 0x20 then ['\\', 'u', '0', '0', hexDigit (c.toNat / 16), hexDigit c.toNat]
  else [c]

def stringText (s : String) : List Char :=
  '"' :: s.toList.flatMap escaped ++ ['"']

def scalarText : Scalar → List Char
  | .null => ['n', 'u', 'l', 'l']
  | .boolean true => ['t', 'r', 'u', 'e']
  | .boolean false => ['f', 'a', 'l', 's', 'e']
  | .number n => numberText n
  | .string s => stringText s

/-! ## Values -/

mutual

def write (spacing : Spacing) (depth : Nat) : Value → List Char
  | .scalar s => scalarText s
  | .array [] => ['[', ']']
  | .array (v :: vs) =>
    '[' :: (spacing.gap (depth + 1) ++ write spacing (depth + 1) v ++ writeItems spacing (depth + 1) vs ++
      spacing.gap depth ++ [']'])
  | .object [] => ['{', '}']
  | .object ((k, v) :: es) =>
    '{' :: (spacing.gap (depth + 1) ++ stringText k ++ spacing.colon ++ write spacing (depth + 1) v ++
      writeEntries spacing (depth + 1) es ++ spacing.gap depth ++ ['}'])

def writeItems (spacing : Spacing) (depth : Nat) : List Value → List Char
  | [] => []
  | v :: vs => ',' :: (spacing.gap depth ++ write spacing depth v ++ writeItems spacing depth vs)

def writeEntries (spacing : Spacing) (depth : Nat) : List (String × Value) → List Char
  | [] => []
  | (k, v) :: es =>
    ',' :: (spacing.gap depth ++ stringText k ++ spacing.colon ++ write spacing depth v ++
      writeEntries spacing depth es)

end

end DocQuery.Json

namespace DocQuery.Value

def compactJson (v : Value) : String :=
  String.ofList (Json.write .compact 0 v)

def indentedJson (v : Value) : String :=
  String.ofList (Json.write .indented 0 v)

/-- Plain text: a scalar as bare text, a container as compact JSON. -/
def plainText : Value → String
  | .scalar s => s.plainText
  | v => v.compactJson

end DocQuery.Value
