import DocQuery.Pattern.Basic
import DocQuery.Pattern.Flags
import DocQuery.Text.Hexadecimal
/-!
# Escapes of a pattern

A backslash gives the character behind it a meaning of its own or takes its meaning away.  An atom is what a single
character or an escape stands for, inside and outside brackets.
-/
namespace DocQuery.Pattern

/-- **What a character or an escape stands for.**  A character written as a byte in two hexadecimal digits is told
apart, since without the Unicode flag it would stand for that byte. -/
inductive Atom where
  | literal (c : Char) (asByte : Bool)
  | chars (set : CharSet)
  | property (set : CharSet) (negated : Bool)
  | assertion (condition : Assertion)

def isMeta (c : Char) : Bool :=
  ['\\', '.', '+', '*', '?', '(', ')', '|', '[', ']', '{', '}', '^', '$', '#', '&', '-', '~'].contains c

def isEscapable (c : Char) : Bool :=
  isMeta c || (c.toNat < 0x80 && !c.isAlphanum && c != '<' && c != '>')

/-- The given number of hexadecimal digits, and the text behind them. -/
def hexDigits (flags : Flags) : Nat → Nat → List Char → Option (Nat × List Char)
  | 0, value, cs => some (value, cs)
  | _ + 1, _, [] => none
  | n + 1, value, c :: cs =>
    match Text.hexValue? c with
    | some d => hexDigits flags n (16 * value + d) (flags.skip cs)
    | none => none

def codeEscape (flags : Flags) (digits : Nat) (cs : List Char) : Option (Atom × List Char) :=
  match flags.skip cs with
  | [] => none
  | '{' :: r => do
    let (name, r) ← flags.braced r
    if name.isEmpty then none
    else
      let c ← (Text.hexNumber? name).bind Text.charOfCode?
      return (.literal c false, flags.skip r)
  | r => do
    let (code, r) ← hexDigits flags digits 0 r
    let c ← Text.charOfCode? code
    return (.literal c (digits == 2), r)

/-- The name of the kind of a property, how it is compared, and the name of its value. -/
def splitProperty : List Char → Option (List Char × Bool × List Char)
  | [] => none
  | '!' :: '=' :: cs => some ([], true, cs)
  | c :: cs => (splitProperty cs).map fun (kind, negated, value) => (c :: kind, negated, value)

/-- The text in front of the first such character and the text behind it. -/
def splitAtFirst (separator : Char) (cs : List Char) : Option (List Char × List Char) :=
  match cs.dropWhile (· != separator) with
  | _ :: r => some (cs.takeWhile (· != separator), r)
  | [] => none

/-- A property by what stands in its braces: a name alone, or a kind and a value with `=`, `:` or `!=` between
them. -/
def propertyQuery (name : List Char) : Option (CharSet × Bool) :=
  match splitProperty name, splitAtFirst ':' name, splitAtFirst '=' name with
  | some (kind, negated, value), _, _ => (Unicode.propertyValue? kind value).map (·, negated)
  | none, some (kind, value), _ => (Unicode.propertyValue? kind value).map (·, false)
  | none, none, some (kind, value) => (Unicode.propertyValue? kind value).map (·, false)
  | none, none, none => (Unicode.propertyNamed? name).map (·, false)

def propertyEscape (flags : Flags) (negated : Bool) (cs : List Char) : Option (Atom × List Char) := do
  let (query, r) ← match flags.skip cs with
    | [] => none
    | '{' :: r => flags.braced r
    | '\\' :: _ => none
    | c :: r => some ([c], flags.skip r)
  if !flags.unicode then none
  else
    let (set, opposite) ← propertyQuery query
    return (.property set (negated != opposite), r)

def classOf (flags : Flags) (letter : Char) : CharSet :=
  if letter = 'd' then if flags.unicode then Unicode.isDecimalDigit else Char.isDigit
  else if letter = 's' then
    if flags.unicode then Text.isBlank else fun c => c == ' ' || ('\t' ≤ c && c ≤ '\r')
  else if flags.unicode then Unicode.isWord else isAsciiWord

def wordEdgeNamed? (name : List Char) : Option WordEdge :=
  match String.ofList name with
  | "start" => some .start
  | "end" => some .finish
  | "start-half" => some .startHalf
  | "end-half" => some .finishHalf
  | _ => none

/-- The edge of a word: plain, or named in braces.  Braces that do not begin with a name are a repetition. -/
def wordEscape (flags : Flags) (cs : List Char) : Option (Atom × List Char) :=
  let plain : Option (Atom × List Char) := some (.assertion (.word .boundary flags.unicode), cs)
  match cs with
  | '{' :: r =>
    match flags.skip r with
    | [] => none
    | c :: _ =>
      if c.isAlpha || c = '-' then do
        let (name, r) ← flags.braced r
        let edge ← wordEdgeNamed? name
        return (.assertion (.word edge flags.unicode), r)
      else plain
  | _ => plain

def escape (flags : Flags) (cs : List Char) : Option (Atom × List Char) :=
  let literal (c : Char) (r : List Char) : Option (Atom × List Char) := some (.literal c false, r)
  let assertion (a : Assertion) (r : List Char) : Option (Atom × List Char) := some (.assertion a, r)
  match cs with
  | [] => none
  | 'x' :: r => codeEscape flags 2 r
  | 'u' :: r => codeEscape flags 4 r
  | 'U' :: r => codeEscape flags 8 r
  | 'p' :: r => propertyEscape flags false r
  | 'P' :: r => propertyEscape flags true r
  | 'a' :: r => literal '\x07' r
  | 'f' :: r => literal '\x0c' r
  | 't' :: r => literal '\t' r
  | 'n' :: r => literal '\n' r
  | 'r' :: r => literal '\r' r
  | 'v' :: r => literal '\x0b' r
  | 'A' :: r => assertion .textStart r
  | 'z' :: r => assertion .textEnd r
  | 'b' :: r => wordEscape flags r
  | 'B' :: r => assertion (.word .noBoundary flags.unicode) r
  | '<' :: r => assertion (.word .start flags.unicode) r
  | '>' :: r => assertion (.word .finish flags.unicode) r
  | c :: r =>
    if ['d', 's', 'w'].contains c then some (.chars (classOf flags c), r)
    else if ['D', 'S', 'W'].contains c then some (.chars (classOf flags c.toLower).complement, r)
    else if isEscapable c then literal c r
    else none

end DocQuery.Pattern
