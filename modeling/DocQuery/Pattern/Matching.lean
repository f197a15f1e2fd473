import DocQuery.Pattern.Basic
/-!
# Matching

A text of `n` characters has `n + 1` places.  A set of places is a natural number whose bits say which places are
in it, and an expression maps the places at which a match may start to those at which it may end.  A match exists
when the set of ends is not empty.  Each set of characters and each assertion is laid over the text once.
-/
namespace DocQuery

abbrev Places := Nat

def Places.ofBools : List Bool → Places
  | [] => 0
  | b :: bs => 2 * ofBools bs + b.toNat

/-- **An expression laid over a text**: where each of its sets has a character, and where each of its assertions
holds. -/
inductive Overlay where
  | stay (places : Places)
  | advance (places : Places)
  | concat (first second : Overlay)
  | either (first second : Overlay)
  | repeated (part : Overlay) (least most : Nat)

def conditionAt (condition : Assertion) (before : Option Char) : List Char → List Bool
  | [] => [condition.holds before none]
  | c :: cs => condition.holds before (some c) :: conditionAt condition (some c) cs

def allPlaces (text : List Char) : Places :=
  Nat.pow 2 (text.length + 1) - 1

/-- An expression laid over a text.  A repetition without a greatest number goes no further than one without
progress, so as many rounds as there are places are enough. -/
def Regex.over (text : List Char) : Regex → Overlay
  | .empty => .stay (allPlaces text)
  | .set chars => .advance (.ofBools (text.map chars))
  | .assertion condition => .stay (.ofBools (conditionAt condition none text))
  | .concat a b => .concat (a.over text) (b.over text)
  | .either a b => .either (a.over text) (b.over text)
  | .repeated a least most => .repeated (a.over text) least ((most.map (· - least)).getD (text.length + 1))

namespace Places

/-- A step taken a number of times; a set that the step does not change stays as it is. -/
def iterate (step : Places → Places) : Nat → Places → Places
  | 0, ps => ps
  | n + 1, ps =>
    let next := step ps
    if next = ps then ps else iterate step n next

def grow (step : Places → Places) : Nat → Places → Places
  | 0, ps => ps
  | n + 1, ps =>
    let next := ps ||| step ps
    if next = ps then ps else grow step n next

end Places

def Overlay.ends : Overlay → Places → Places
  | .stay m, ps => ps &&& m
  | .advance m, ps => (ps &&& m) <<< 1
  | .concat a b, ps => b.ends (a.ends ps)
  | .either a b, ps => a.ends ps ||| b.ends ps
  | .repeated a least most, ps => Places.grow a.ends most (Places.iterate a.ends least ps)

def Regex.matchesIn (r : Regex) (text : List Char) : Bool :=
  (r.over text).ends (allPlaces text) != 0

end DocQuery
