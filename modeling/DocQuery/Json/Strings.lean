import DocQuery.Json.Fault
import DocQuery.Text.Hexadecimal
/-!
# Strings of JSON text

Between quotes a character stands for itself, unless it is a control character, which is refused, or a backslash,
which starts an escape.  An escape may name a code unit by four hexadecimal digits; two of them name a character
outside the basic plane, and half of such a pair is refused.
-/
namespace DocQuery.Json

def codeUnit (cs : List Char) : Except Halt (Nat × List Char) :=
  if Text.byteLength cs < 4 then halt .endInString []
  else
    match cs with
    | a :: b :: c :: d :: r =>
      match Text.hexNumber? [a, b, c, d] with
      | some unit => .ok (unit, r)
      | none => .error ⟨.invalidEscape, cs, 4⟩
    | _ => .error ⟨.invalidEscape, cs, 4⟩

def lowHalf (high : Nat) (cs : List Char) : Except Halt (Char × List Char) :=
  match cs with
  | [] => halt .endInString []
  | '\\' :: [] => halt .endInString []
  | '\\' :: 'u' :: r => do
    let (low, r) ← codeUnit r
    if 0xDC00 ≤ low && low ≤ 0xDFFF then
      return (Char.ofNat (0x10000 + (high - 0xD800) * 0x400 + (low - 0xDC00)), r)
    else halt .loneSurrogate r
  | '\\' :: r => haltAt .unfinishedPair r
  | r => haltAt .unfinishedPair r

def escape (cs : List Char) : Except Halt (Char × List Char) :=
  match cs with
  | [] => halt .endInString []
  | '"' :: r => .ok ('"', r)
  | '\\' :: r => .ok ('\\', r)
  | '/' :: r => .ok ('/', r)
  | 'b' :: r => .ok ('\x08', r)
  | 'f' :: r => .ok ('\x0c', r)
  | 'n' :: r => .ok ('\n', r)
  | 'r' :: r => .ok ('\r', r)
  | 't' :: r => .ok ('\t', r)
  | 'u' :: r => do
    let (unit, r) ← codeUnit r
    if 0xDC00 ≤ unit && unit ≤ 0xDFFF then halt .loneSurrogate r
    else if 0xD800 ≤ unit && unit ≤ 0xDBFF then lowHalf unit r
    else return (Char.ofNat unit, r)
  | r => haltAt .invalidEscape r

/-- The characters up to the closing quote.  `fuel` bounds their number; the length of the text is enough, as
each of them takes at least one character. -/
def characters : Nat → List Char → Except Halt (List Char × List Char)
  | 0, cs => halt .endInString cs
  | fuel + 1, cs =>
    match cs with
    | [] => halt .endInString []
    | '"' :: r => .ok ([], r)
    | '\\' :: r => do
      let (c, r) ← escape r
      let (s, r) ← characters fuel r
      return (c :: s, r)
    | c :: r =>
      if c.toNat < 0x20 then haltAt .controlCharacter (c :: r)
      else do
        let (s, r) ← characters fuel r
        return (c :: s, r)

def string (cs : List Char) : Except Halt (String × List Char) := do
  let (s, r) ← characters cs.length cs
  return (String.ofList s, r)

end DocQuery.Json
