/-!
# Paths

A path names places in a value by the steps that lead there: into the value of a key, to the element at a position,
or to every element.  Its text writes a key as it is, after a dot unless it comes first, and the other steps in
brackets.
-/
namespace DocQuery

inductive Segment where
  | key (name : String)
  | index (position : Nat)
  | wildcard
  deriving DecidableEq, Repr, Inhabited

/-- The steps of a path, in the order in which they are taken.  The path without steps is the whole document. -/
abbrev Path := List Segment

/-- The text of a step, without the dot that may stand in front of it. -/
def Segment.text : Segment → List Char
  | .key name => name.toList
  | .index i => '[' :: (Nat.toDigits 10 i ++ [']'])
  | .wildcard => ['[', '*', ']']

namespace Path

def renderRest : List Segment → List Char
  | [] => []
  | .key name :: rest => '.' :: (name.toList ++ renderRest rest)
  | s :: rest => s.text ++ renderRest rest

def render : List Segment → List Char
  | [] => []
  | s :: rest => s.text ++ renderRest rest

def text (path : Path) : String :=
  String.ofList (render path)

def hasWildcard (path : Path) : Bool :=
  path.contains .wildcard

end Path
end DocQuery
