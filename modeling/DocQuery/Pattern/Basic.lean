import DocQuery.Unicode.CaseFolding
import DocQuery.Unicode.Property
/-!
# Regular expressions

A regular expression is built from sets of characters and from assertions about the place between two characters.
How often a part is repeated is kept as it was written, with a least and perhaps a greatest number.  Whether a
repetition is greedy does not matter here, since the only question asked is whether a text has a match.
-/
namespace DocQuery

abbrev CharSet := Char → Bool

namespace CharSet

def none : CharSet := fun _ => false

def single (c : Char) : CharSet := fun d => d == c

def range (first last : Char) : CharSet := fun c => first ≤ c && c ≤ last

def union (a b : CharSet) : CharSet := fun c => a c || b c

def inter (a b : CharSet) : CharSet := fun c => a c && b c

def minus (a b : CharSet) : CharSet := fun c => a c && !b c

def differ (a b : CharSet) : CharSet := fun c => a c != b c

def complement (a : CharSet) : CharSet := fun c => !a c

def folded (a : CharSet) : CharSet := fun c => (Unicode.caseVariants c).any a

def asciiVariants (c : Char) : List Char := [c.toLower, c.toUpper]

def asciiFolded (a : CharSet) : CharSet := fun c => a c || (asciiVariants c).any a

end CharSet

inductive WordEdge where
  | boundary
  | noBoundary
  | start
  | finish
  | startHalf
  | finishHalf
  deriving DecidableEq, Repr

inductive Assertion where
  | textStart
  | textEnd
  | lineStart (crlf : Bool)
  | lineEnd (crlf : Bool)
  | word (edge : WordEdge) (unicode : Bool)
  deriving DecidableEq, Repr

def isAsciiWord (c : Char) : Bool :=
  c.isAlphanum || c == '_'

def WordEdge.holds (edge : WordEdge) (before after : Bool) : Bool :=
  match edge with
  | .boundary => before != after
  | .noBoundary => before == after
  | .start => !before && after
  | .finish => before && !after
  | .startHalf => !before
  | .finishHalf => !after

/-- Whether an assertion holds between two characters; at either end of the text one of them is missing.  When
carriage returns count as line ends, the place inside a carriage return with its newline is neither the end nor the
start of a line. -/
def Assertion.holds (before after : Option Char) : Assertion → Bool
  | .textStart => before.isNone
  | .textEnd => after.isNone
  | .lineStart crlf =>
    before.isNone || before == some '\n' || (crlf && before == some '\r' && after != some '\n')
  | .lineEnd crlf =>
    if crlf then after.isNone || after == some '\r' || (after == some '\n' && before != some '\r')
    else after.isNone || after == some '\n'
  | .word edge unicode =>
    let isWord := if unicode then Unicode.isWord else isAsciiWord
    edge.holds (before.any isWord) (after.any isWord)

inductive Regex where
  | empty
  | set (chars : CharSet)
  | assertion (condition : Assertion)
  | concat (first second : Regex)
  | either (first second : Regex)
  | repeated (part : Regex) (least : Nat) (most : Option Nat)

namespace Regex

def sequence : List Regex → Regex
  | [] => .empty
  | [r] => r
  | r :: rs => .concat r (sequence rs)

def choice : List Regex → Regex
  | [] => .set .none
  | [r] => r
  | r :: rs => .either r (choice rs)

def extent : Regex → Nat
  | .empty | .assertion _ => 0
  | .set _ => 1
  | .concat a b | .either a b => a.extent + b.extent
  | .repeated a least most => (most.getD (max least 1)) * a.extent

end Regex
end DocQuery
