import DocQuery.Text.Lines
/-!
# Faults of JSON text

A reader stops at the first fault, and a `Halt` says what the fault is and where reading stood.  The place is kept
as the text that was still to be read; the line and the column are computed from it once, at the end.
-/
namespace DocQuery.Json

inductive Fault where
  | endInValue
  | endInList
  | endInObject
  | endInString
  | expectedValue
  | expectedWord
  | expectedCommaOrBracket
  | expectedCommaOrBrace
  | expectedColon
  | keyNotString
  | trailingComma
  | trailingText
  | nestedTooDeep
  | invalidNumber
  | numberOutOfRange
  | controlCharacter
  | invalidEscape
  | loneSurrogate
  | unfinishedPair
  deriving DecidableEq, Repr

def Fault.message : Fault → String
  | .endInValue => "EOF while parsing a value"
  | .endInList => "EOF while parsing a list"
  | .endInObject => "EOF while parsing an object"
  | .endInString => "EOF while parsing a string"
  | .expectedValue => "expected value"
  | .expectedWord => "expected ident"
  | .expectedCommaOrBracket => "expected `,` or `]`"
  | .expectedCommaOrBrace => "expected `,` or `\x7d`"
  | .expectedColon => "expected `:`"
  | .keyNotString => "key must be a string"
  | .trailingComma => "trailing comma"
  | .trailingText => "trailing characters"
  | .nestedTooDeep => "recursion limit exceeded"
  | .invalidNumber => "invalid number"
  | .numberOutOfRange => "number out of range"
  | .controlCharacter => "control character (\\u0000-\\u001F) found while parsing a string"
  | .invalidEscape => "invalid escape"
  | .loneSurrogate => "lone leading surrogate in hex escape"
  | .unfinishedPair => "unexpected end of hex escape"

/-- **A fault and where it was noticed**: `rest` was still to be read, and `ahead` bytes of it count as read. -/
structure Halt where
  fault : Fault
  rest : List Char
  ahead : Nat
  deriving DecidableEq, Repr

structure Position where
  line : Nat
  column : Nat
  deriving DecidableEq, Repr

def Position.advance (p : Position) : Nat → List Char → Position
  | 0, _ => p
  | _, [] => p
  | bytes + 1, c :: cs =>
    if c = '\n' then Position.advance ⟨p.line + 1, 0⟩ bytes cs
    else if c.utf8Size ≤ bytes + 1 then
      Position.advance ⟨p.line, p.column + c.utf8Size⟩ (bytes + 1 - c.utf8Size) cs
    else ⟨p.line, p.column + (bytes + 1)⟩
termination_by _ cs => cs

def Halt.position (halt : Halt) (text : List Char) : Position :=
  Position.advance ⟨1, 0⟩ (Text.byteLength text - Text.byteLength halt.rest + halt.ahead) text

def halt {α : Type} (fault : Fault) (rest : List Char) : Except Halt (α × List Char) :=
  .error ⟨fault, rest, 0⟩

/-- Stops at a fault in the next character, whose first byte counts as read. -/
def haltAt {α : Type} (fault : Fault) (rest : List Char) : Except Halt (α × List Char) :=
  .error ⟨fault, rest, 1⟩

end DocQuery.Json
