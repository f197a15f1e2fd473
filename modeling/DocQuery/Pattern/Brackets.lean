import DocQuery.Pattern.Escape
/-!
# Bracketed classes of a pattern

Brackets hold single characters, ranges, classes by escape or by name, and further brackets.  All of these in a row
are united; the unions so formed are combined from left to right by the operators for intersection, difference and
symmetric difference.
-/
namespace DocQuery.Pattern

structure NestedSet where
  set : CharSet
  depth : Nat

def asciiClass? (name : List Char) : Option CharSet :=
  match String.ofList name with
  | "alnum" => some Char.isAlphanum
  | "alpha" => some Char.isAlpha
  | "ascii" => some fun c => c.toNat < 0x80
  | "blank" => some fun c => c == '\t' || c == ' '
  | "cntrl" => some fun c => c.toNat < 0x20 || c.toNat == 0x7f
  | "digit" => some Char.isDigit
  | "graph" => some (.range '!' '~')
  | "lower" => some Char.isLower
  | "print" => some (.range ' ' '~')
  | "punct" => some fun c => CharSet.range '!' '~' c && !c.isAlphanum
  | "space" => some fun c => c == ' ' || CharSet.range '\t' '\r' c
  | "upper" => some Char.isUpper
  | "word" => some isAsciiWord
  | "xdigit" => some fun c => c.isDigit || CharSet.range 'a' 'f' c || CharSet.range 'A' 'F' c
  | _ => none

def Flags.fold (flags : Flags) (set : CharSet) : CharSet :=
  if !flags.ignoreCase then set else if flags.unicode then set.folded else set.asciiFolded

def negateIf (negated : Bool) (set : CharSet) : CharSet :=
  if negated then set.complement else set

def namedClass (flags : Flags) (cs : List Char) : Option (CharSet × List Char) := do
  let (negated, cs) := match cs with
    | '^' :: r => (true, r)
    | r => (false, r)
  let name := cs.takeWhile (· != ':')
  match cs.dropWhile (· != ':') with
  | ':' :: ']' :: r => (asciiClass? name).map fun set => (negateIf negated (flags.fold set), r)
  | _ => none

def classAtom (flags : Flags) (cs : List Char) : Option (Atom × List Char) :=
  match cs with
  | [] => none
  | '\\' :: r => escape flags r
  | c :: r => some (.literal c false, r)

/-- The character of a member that can bound a range.  Without the Unicode flag it must be of the basic alphabet or
be written as a byte. -/
def Atom.bound? (flags : Flags) : Atom → Option Char
  | .literal c asByte => if flags.unicode || asByte || c.toNat < 0x80 then some c else none
  | _ => none

def Atom.memberSet? (flags : Flags) : Atom → Option CharSet
  | .chars set => some set
  | .property set negated => some (negateIf negated (flags.fold set))
  | .assertion _ => none
  | a => (a.bound? flags).map .single

/-- A member of a class or a range of characters.  A hyphen in front of the closing bracket or of another hyphen
makes no range. -/
def classRange (flags : Flags) (cs : List Char) : Option (CharSet × List Char) := do
  let (first, r) ← classAtom flags cs
  match flags.skip r with
  | [] => none
  | '-' :: r =>
    match flags.skip r with
    | [] => none
    | ']' :: _ => return (← first.memberSet? flags, '-' :: r)
    | '-' :: _ => return (← first.memberSet? flags, '-' :: r)
    | r' => do
      let (last, r) ← classAtom flags r'
      let low ← first.bound? flags
      let high ← last.bound? flags
      if low ≤ high then return (.range low high, r) else none
  | r => return (← first.memberSet? flags, r)

/-- **An operator between unions**: intersection, difference or symmetric difference. -/
inductive SetOperator where
  | inter
  | minus
  | differ

def SetOperator.apply : SetOperator → CharSet → CharSet → CharSet
  | .inter => .inter
  | .minus => .minus
  | .differ => .differ

/-- **What has been read of a class**: the left operand and its operator, if there is one, and the union that is
growing, with the number of its members. -/
structure ClassScan where
  left : Option (NestedSet × SetOperator)
  union : NestedSet
  members : Nat

namespace ClassScan

def start : ClassScan :=
  ⟨none, ⟨.none, 0⟩, 0⟩

def add (scan : ClassScan) (set : CharSet) (depth : Nat) : ClassScan :=
  { scan with union := ⟨.union scan.union.set set, max scan.union.depth depth⟩, members := scan.members + 1 }

/-- Everything read so far as one set.  Where case does not count, operands are folded before they are combined. -/
def close (flags : Flags) (scan : ClassScan) : NestedSet :=
  let depth := if scan.members ≤ 1 then scan.union.depth else scan.union.depth + 1
  match scan.left with
  | none => ⟨scan.union.set, depth⟩
  | some (left, op) => ⟨op.apply (flags.fold left.set) (flags.fold scan.union.set), max left.depth depth + 1⟩

def operator (flags : Flags) (scan : ClassScan) (op : SetOperator) : ClassScan :=
  { start with left := some (scan.close flags, op) }

end ClassScan

def leadingHyphens (flags : Flags) : Nat → ClassScan → List Char → ClassScan × List Char
  | 0, scan, cs => (scan, cs)
  | fuel + 1, scan, cs =>
    match cs with
    | '-' :: r => leadingHyphens flags fuel (scan.add (.single '-') 0) (flags.skip r)
    | r => (scan, r)

/-- The start of a class, read behind its opening bracket: whether it is negated, and the members that stand for
themselves only there. -/
def classStart (flags : Flags) (cs : List Char) : Bool × ClassScan × List Char :=
  let (negated, cs) := match flags.skip cs with
    | '^' :: r => (true, flags.skip r)
    | r => (false, r)
  match leadingHyphens flags cs.length .start cs with
  | (scan, ']' :: r) =>
    if scan.members = 0 then (negated, scan.add (.single ']') 0, flags.skip r) else (negated, scan, ']' :: r)
  | (scan, r) => (negated, scan, r)

/-- The rest of a class, up to its closing bracket.  `fuel` bounds the number of members; the length of the text is
enough, as each takes at least one character. -/
def classRest (flags : Flags) : Nat → ClassScan → List Char → Option (NestedSet × List Char)
  | 0, _, _ => none
  | fuel + 1, scan, cs =>
    match flags.skip cs with
    | [] => none
    | ']' :: r => some (scan.close flags, r)
    | '&' :: '&' :: r => classRest flags fuel (scan.operator flags .inter) r
    | '-' :: '-' :: r => classRest flags fuel (scan.operator flags .minus) r
    | '~' :: '~' :: r => classRest flags fuel (scan.operator flags .differ) r
    | '[' :: r =>
      let named := match r with
        | ':' :: r => namedClass flags r
        | _ => none
      match named with
      | some (set, r) => classRest flags fuel (scan.add set 0) r
      | none => do
        let (negated, inner, r) := classStart flags r
        let (nested, r) ← classRest flags fuel inner r
        classRest flags fuel (scan.add (negateIf negated (flags.fold nested.set)) (nested.depth + 1)) r
    | r => do
      let (set, r) ← classRange flags r
      classRest flags fuel (scan.add set 0) r

def bracketed (flags : Flags) (cs : List Char) : Option (NestedSet × List Char) := do
  let (negated, scan, r) := classStart flags cs
  let (nested, r) ← classRest flags (cs.length + 1) scan r
  return (⟨negateIf negated (flags.fold nested.set), nested.depth + 1⟩, r)

end DocQuery.Pattern
