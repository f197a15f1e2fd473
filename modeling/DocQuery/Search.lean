import DocQuery.Pattern.Engine
import DocQuery.Value.Basic
/-!
# Searching

A search looks through all strings of a value and reports those in which a pattern matches, in document order and
with the path that leads to each.
-/
namespace DocQuery

/-- **A string in which the pattern matches, and the text of its path.** -/
structure Hit where
  path : String
  text : String
  deriving DecidableEq, Repr

namespace Hit

def keyPath (path : String) (key : String) : String :=
  if path.isEmpty then key else path ++ "." ++ key

def itemPath (path : String) (index : Nat) : String :=
  path ++ "[" ++ String.ofList (Nat.toDigits 10 index) ++ "]"

mutual

/-- All strings of a value with their paths, for a value that itself has the given path. -/
def strings (path : String) : Value → List Hit
  | .scalar (.string s) => [⟨path, s⟩]
  | .scalar _ => []
  | .array items => itemStrings path 0 items
  | .object entries => entryStrings path entries

/-- The strings of elements, the first of which has the given position. -/
def itemStrings (path : String) (index : Nat) : List Value → List Hit
  | [] => []
  | v :: vs => strings (itemPath path index) v ++ itemStrings path (index + 1) vs

def entryStrings (path : String) : List (String × Value) → List Hit
  | [] => []
  | (k, v) :: es => strings (keyPath path k) v ++ entryStrings path es

end

end Hit

def Value.hits (pattern : Pattern) (v : Value) : List Hit :=
  (Hit.strings "" v).filter fun hit => pattern.isMatch hit.text

structure InvalidPattern where
  pattern : String
  deriving DecidableEq, Repr

def search [Pattern.Engine] (pattern : String) (caseSensitive : Bool) (v : Value) : Except InvalidPattern (List Hit) :=
  match Pattern.compile? (!caseSensitive) pattern with
  | some p => .ok (v.hits p)
  | none => .error ⟨pattern⟩

end DocQuery
