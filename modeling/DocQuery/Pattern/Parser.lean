import DocQuery.Pattern.Brackets
import DocQuery.Pattern.Engine
import DocQuery.Pattern.Matching
/-!
# Patterns

A pattern is a text that can be read as a regular expression.  Reading goes from left to right with the flags that
are set at each place; a group ends the flags that are set in it.  There is neither look-around nor reference to
what a group has matched, so a pattern with either of them is refused, and so is one nested too deeply or one that
is too large with its repetitions written out.

The engine of the program refuses no less, but it knows some properties of characters that are unknown here and refused:
emoji, mathematical characters, ages, script extensions and the properties of text segmentation.  The size of a pattern
is measured here by its sets and not by compiled states, so the two engines draw the limit at different places.
-/
namespace DocQuery

namespace Pattern

structure Piece where
  regex : Regex
  depth : Nat

def nestingLimit : Nat := 250

/-- How many sets a pattern may have with its repetitions written out: ten mebibytes at thirty-two bytes each. -/
def extentLimit : Nat := 10 * Nat.pow 2 20 / 32

/-! ## Single characters -/

/-- A set of characters as an expression.  Without the Unicode flag the set stands for bytes, and one with bytes
that are no characters of their own is refused. -/
def Flags.setRegex? (flags : Flags) (set : CharSet) : Option Regex :=
  if flags.unicode || (List.range 0x80).all (fun n => !set (Char.ofNat (0x80 + n))) then some (.set set) else none

def Atom.regex? (flags : Flags) : Atom → Option Regex
  | .literal c asByte =>
    if flags.unicode then some (.set (flags.fold (.single c)))
    else if c.toNat < 0x80 then some (.set (flags.fold (.single c)))
    else if asByte || flags.ignoreCase then none
    else some (.set (.single c))
  | .chars set => flags.setRegex? set
  | .property set negated => flags.setRegex? (negateIf negated (flags.fold set))
  | .assertion condition => some (.assertion condition)

def Flags.dot (flags : Flags) : CharSet :=
  if flags.dotMatchesNewline then fun _ => true
  else if flags.crlf then fun c => c != '\r' && c != '\n'
  else fun c => c != '\n'

def Flags.caret (flags : Flags) : Assertion :=
  if flags.multiLine then .lineStart flags.crlf else .textStart

def Flags.dollar (flags : Flags) : Assertion :=
  if flags.multiLine then .lineEnd flags.crlf else .textEnd

def primitive (flags : Flags) (cs : List Char) : Option (Regex × List Char) :=
  match cs with
  | [] => none
  | '\\' :: r => do
    let (atom, r) ← escape flags r
    return (← atom.regex? flags, r)
  | '.' :: r => (flags.setRegex? flags.dot).map (·, r)
  | '^' :: r => some (.assertion flags.caret, r)
  | '$' :: r => some (.assertion flags.dollar, r)
  | c :: r => ((Atom.literal c false).regex? flags).map (·, r)

/-! ## Repetitions -/

/-- One past the greatest number of repetitions: that of thirty-two bits without a sign. -/
def countLimit : Nat := Nat.pow 2 32

/-- Digits, between which a verbose pattern may have blanks and comments. -/
def countDigits (verbose inComment : Bool) : List Char → List Char × List Char
  | [] => ([], [])
  | c :: cs =>
    if inComment then countDigits verbose (c != '\n') cs
    else if c.isDigit then
      let (digits, rest) := countDigits verbose false cs
      (c :: digits, rest)
    else if verbose && Text.isBlank c then countDigits verbose false cs
    else if verbose && c = '#' then countDigits verbose true cs
    else ([], c :: cs)

/-- A number of repetitions, with blanks around it; nothing where no digit stands. -/
def count (flags : Flags) (cs : List Char) : Option Nat × List Char :=
  let (digits, rest) := countDigits flags.verbose false (Text.trimStart cs)
  let value := Nat.ofDigitChars 10 digits 0
  (if digits.isEmpty || countLimit ≤ value then none else some value, flags.skip (Text.trimStart rest))

/-- The numbers between braces, read behind the opening one.  Without a second number the first is both, unless a
comma stands behind it. -/
def counts (flags : Flags) (cs : List Char) : Option (Nat × Option Nat × List Char) := do
  let (least, r) := count flags (flags.skip cs)
  let least ← least
  match r with
  | '}' :: r => return (least, some least, r)
  | ',' :: r =>
    match flags.skip r with
    | '}' :: r => return (least, none, r)
    | r => do
      let (most, r) := count flags r
      let most ← most
      match r with
      | '}' :: r => if least ≤ most then return (least, some most, r) else none
      | _ => none
  | _ => none

/-- The text behind the question mark that makes a repetition lazy. -/
def skipLazy (cs : List Char) : List Char :=
  match cs with
  | '?' :: r => r
  | r => r

def repetition? (flags : Flags) (cs : List Char) : Option (Option (Nat × Option Nat × List Char)) :=
  match cs with
  | '?' :: r => some (some (0, some 1, skipLazy r))
  | '*' :: r => some (some (0, none, skipLazy r))
  | '+' :: r => some (some (1, none, skipLazy r))
  | '{' :: r => some ((counts flags r).map fun (least, most, r) => (least, most, skipLazy (flags.skip r)))
  | _ => none

/-! ## Groups -/

/-- **What an opening parenthesis starts**: a change of flags, or a group with its flags and the names used so far. -/
inductive GroupStart where
  | setFlags (flags : Flags)
  | group (flags : Flags) (names : List (List Char))

def isNameStart (c : Char) : Bool :=
  c == '_' || Unicode.isAlphabetic c

def isNamePart (c : Char) : Bool :=
  isNameStart c || Unicode.isNumeric c || c == '.' || c == '[' || c == ']'

/-- The name of a group, up to its closing angle bracket.  No two groups may have the same name. -/
def groupName (flags : Flags) (names : List (List Char)) (cs : List Char) : Option (GroupStart × List Char) :=
  let name := cs.takeWhile (· != '>')
  match name, cs.dropWhile (· != '>') with
  | c :: rest, _ :: r =>
    if isNameStart c && rest.all isNamePart && !names.contains name then some (.group flags (name :: names), r)
    else none
  | _, _ => none

def groupStart (flags : Flags) (names : List (List Char)) (cs : List Char) : Option (GroupStart × List Char) :=
  match flags.skip cs with
  | '?' :: '=' :: _ => none
  | '?' :: '!' :: _ => none
  | '?' :: '<' :: '=' :: _ => none
  | '?' :: '<' :: '!' :: _ => none
  | '?' :: 'P' :: '<' :: r => groupName flags names r
  | '?' :: '<' :: r => groupName flags names r
  | '?' :: r => do
    let (inner, rest) ← flags.read r
    match rest with
    | ')' :: rest => if rest.length + 1 = r.length then none else return (.setFlags inner, rest)
    | _ :: rest => return (.group inner names, rest)
    | [] => none
  | r => some (.group flags names, r)

/-! ## Expressions -/

/-- **What has been read of a group**: its finished alternatives and the parts of the present one, each from the last to
the first.  A change of flags counts as a part, which nothing can repeat. -/
structure Scan where
  flags : Flags
  names : List (List Char)
  alternatives : List Piece
  parts : List (Option Piece)

namespace Scan

def start (flags : Flags) (names : List (List Char)) : Scan :=
  ⟨flags, names, [], []⟩

def add (scan : Scan) (regex : Regex) (depth : Nat) : Scan :=
  { scan with parts := some ⟨regex, depth⟩ :: scan.parts }

def alternative (scan : Scan) : Piece :=
  let pieces := scan.parts.reverse.filterMap id
  let depth := (pieces.map Piece.depth).foldl max 0
  ⟨.sequence (pieces.map Piece.regex), if scan.parts.length ≤ 1 then depth else depth + 1⟩

def bar (scan : Scan) : Scan :=
  { scan with alternatives := scan.alternative :: scan.alternatives, parts := [] }

def close (scan : Scan) : Piece :=
  let pieces := (scan.alternative :: scan.alternatives).reverse
  let depth := (pieces.map Piece.depth).foldl max 0
  ⟨.choice (pieces.map Piece.regex), if pieces.length ≤ 1 then depth else depth + 1⟩

def repeatLast (scan : Scan) (least : Nat) (most : Option Nat) : Option Scan :=
  match scan.parts with
  | some p :: rest => some { scan with parts := some ⟨.repeated p.regex least most, p.depth + 1⟩ :: rest }
  | _ => none

end Scan

/-- An expression up to the parenthesis that closes its group, or to the end.  It returns the names used and the
text from there.  `fuel` bounds the number of parts; the length of the text is enough. -/
def expression : Nat → Scan → List Char → Option (Piece × List (List Char) × List Char)
  | 0, _, _ => none
  | fuel + 1, scan, cs =>
    match scan.flags.skip cs with
    | [] => some (scan.close, scan.names, [])
    | ')' :: r => some (scan.close, scan.names, ')' :: r)
    | '|' :: r => expression fuel scan.bar r
    | '[' :: r => do
      let (nested, r) ← bracketed scan.flags r
      let regex ← scan.flags.setRegex? nested.set
      expression fuel (scan.add regex nested.depth) r
    | '(' :: r => do
      match ← groupStart scan.flags scan.names r with
      | (.setFlags flags, r) => expression fuel { scan with flags, parts := none :: scan.parts } r
      | (.group flags names, r) =>
        let (inner, names, r) ← expression fuel (.start flags names) r
        match r with
        | ')' :: r => expression fuel ({ scan with names }.add inner.regex (inner.depth + 1)) r
        | _ => none
    | r =>
      match repetition? scan.flags r with
      | some found => do
        let (least, most, r) ← found
        expression fuel (← scan.repeatLast least most) r
      | none => do
        let (regex, r) ← primitive scan.flags r
        expression fuel (scan.add regex 0) r

def regex? (ignoreCase : Bool) (cs : List Char) : Option Regex := do
  let (piece, _, rest) ← expression (cs.length + 1) (.start (.initial ignoreCase) []) cs
  if rest.isEmpty && piece.depth ≤ nestingLimit && piece.regex.extent ≤ extentLimit then return piece.regex
  else none

/-- The engine of regular expressions. -/
instance regexEngine : Engine where
  compile? ignoreCase source :=
    (regex? ignoreCase source.toList).map fun regex => ⟨source, fun text => regex.matchesIn text.toList⟩

end Pattern
end DocQuery
