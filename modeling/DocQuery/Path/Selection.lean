import DocQuery.Path.Basic
import DocQuery.Value.Basic
/-!
# Selections

Following a path from a value yields a selection.  Up to the first wildcard exactly one value is followed, and a step
that does not lead on is an error.  From a wildcard on many values are followed, and those from which a step does
not lead on are left out.
-/
namespace DocQuery

/-- **What a path selects**: one value, or every match of a path with a wildcard, in document order. -/
inductive Selection where
  | single (value : Value)
  | many (values : List Value)

namespace Selection

def values : Selection → List Value
  | .single v => [v]
  | .many vs => vs

def isEmpty (s : Selection) : Bool :=
  s.values.isEmpty

def toValue : Selection → Value
  | .single v => v
  | .many vs => .array vs

end Selection

/-- Where one step leads, if it leads anywhere. -/
def Segment.step? (segment : Segment) (v : Value) : Option Selection :=
  match segment with
  | .key name => (v.get? name).map .single
  | .index i => (v.item? i).map .single
  | .wildcard =>
    match v with
    | .array items => some (.many items)
    | _ => none

namespace Path

/-- **A step that did not lead on**, and the steps that did. -/
structure NotFound where
  reached : Path
  segment : Segment
  deriving DecidableEq, Repr

def NotFound.message (e : NotFound) : String :=
  let segment := String.ofList e.segment.text
  let reached := Path.text e.reached
  if reached.isEmpty then s!"Path not found: '{segment}' does not exist at the document root"
  else s!"Path not found: '{segment}' does not exist under '{reached}'"

def follow (reached : Path) : List Segment → Selection → Except NotFound Selection
  | [], selection => .ok selection
  | s :: rest, .single v =>
    match s.step? v with
    | some next => follow (reached ++ [s]) rest next
    | none => .error ⟨reached, s⟩
  | s :: rest, .many vs =>
    follow (reached ++ [s]) rest (.many (vs.flatMap fun v => ((s.step? v).map Selection.values).getD []))

def select (path : Path) (root : Value) : Except NotFound Selection :=
  follow [] path (.single root)

end Path
end DocQuery
