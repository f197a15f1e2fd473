import DocQuery.Json.Numbers
import DocQuery.Json.Strings
import DocQuery.Value.Basic
/-!
# Values from JSON text

A recursive reader: `value` reads one value with at most a given number of containers inside each other, and
`items` and `members` read the parts of a container with `value` for one level less.  Each part takes at least one
character, so the length of the text bounds the number of parts.
-/
namespace DocQuery.Json

def isSpace (c : Char) : Bool :=
  c == ' ' || c == '\n' || c == '\t' || c == '\r'

def skipSpace (cs : List Char) : List Char :=
  cs.dropWhile isSpace

def word (letters : List Char) (meaning : Scalar) (cs : List Char) : Except Halt (Value × List Char) :=
  match letters, cs with
  | [], cs => .ok (.scalar meaning, cs)
  | _ :: _, [] => halt .endInValue []
  | l :: ls, c :: cs => if c = l then word ls meaning cs else haltAt .expectedWord (c :: cs)

/-! ## Parts of containers

`item` reads one part. -/

section Parts

variable (item : List Char → Except Halt (Value × List Char))

def moreItems : Nat → List Char → Except Halt (List Value × List Char)
  | 0, cs => halt .endInList cs
  | fuel + 1, cs =>
    match skipSpace cs with
    | [] => halt .endInList []
    | ']' :: r => .ok ([], r)
    | ',' :: r =>
      match skipSpace r with
      | [] => halt .endInValue []
      | ']' :: r => haltAt .trailingComma (']' :: r)
      | r => do
        let (v, r) ← item r
        let (vs, r) ← moreItems fuel r
        return (v :: vs, r)
    | r => haltAt .expectedCommaOrBracket r

def items (cs : List Char) : Except Halt (List Value × List Char) :=
  match skipSpace cs with
  | [] => halt .endInList []
  | ']' :: r => .ok ([], r)
  | r => do
    let (v, r) ← item r
    let (vs, r) ← moreItems item r.length.succ r
    return (v :: vs, r)

def member (cs : List Char) : Except Halt ((String × Value) × List Char) := do
  let (key, r) ← string cs
  match skipSpace r with
  | [] => halt .endInObject []
  | ':' :: r => do
    let (v, r) ← item r
    return ((key, v), r)
  | r => haltAt .expectedColon r

def moreMembers : Nat → List Char → Except Halt (List (String × Value) × List Char)
  | 0, cs => halt .endInObject cs
  | fuel + 1, cs =>
    match skipSpace cs with
    | [] => halt .endInObject []
    | '}' :: r => .ok ([], r)
    | ',' :: r =>
      match skipSpace r with
      | [] => halt .endInValue []
      | '"' :: r => do
        let (m, r) ← member item r
        let (ms, r) ← moreMembers fuel r
        return (m :: ms, r)
      | '}' :: r => haltAt .trailingComma ('}' :: r)
      | r => haltAt .keyNotString r
    | r => haltAt .expectedCommaOrBrace r

def members (cs : List Char) : Except Halt (List (String × Value) × List Char) :=
  match skipSpace cs with
  | [] => halt .endInObject []
  | '}' :: r => .ok ([], r)
  | '"' :: r => do
    let (m, r) ← member item r
    let (ms, r) ← moreMembers item r.length.succ r
    return (m :: ms, r)
  | r => haltAt .keyNotString r

end Parts

/-! ## Values -/

/-- A value with at most `depth` containers inside each other. -/
def value (depth : Nat) (cs : List Char) : Except Halt (Value × List Char) :=
  match skipSpace cs with
  | [] => halt .endInValue []
  | 'n' :: r => word ['u', 'l', 'l'] .null r
  | 't' :: r => word ['r', 'u', 'e'] (.boolean true) r
  | 'f' :: r => word ['a', 'l', 's', 'e'] (.boolean false) r
  | '"' :: r => do
    let (s, r) ← string r
    return (.string s, r)
  | '-' :: r => do
    let (n, r) ← number true r
    return (.number n, r)
  | '[' :: r =>
    match depth with
    | 0 => haltAt .nestedTooDeep ('[' :: r)
    | depth + 1 => do
      let (vs, r) ← items (value depth) r
      return (.array vs, r)
  | '{' :: r =>
    match depth with
    | 0 => haltAt .nestedTooDeep ('{' :: r)
    | depth + 1 => do
      let (ms, r) ← members (value depth) r
      return (.object (Entries.ofPairs ms), r)
  | c :: r =>
    if c.isDigit then do
      let (n, r) ← number false (c :: r)
      return (.number n, r)
    else haltAt .expectedValue (c :: r)

def depthLimit : Nat := 127

/-- A whole text: one value, with nothing but white space around it. -/
def document (cs : List Char) : Except Halt Value := do
  let (v, r) ← value depthLimit cs
  match skipSpace r with
  | [] => return v
  | r => throw ⟨.trailingText, r, 1⟩

end DocQuery.Json
