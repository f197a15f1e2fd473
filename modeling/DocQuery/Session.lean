import DocQuery.Filter.Parser
import DocQuery.Filter.Selection
import DocQuery.Query
/-!
# Sessions

A session narrows a document down step by step and can go back to the start.  Every step works on the value that the
last one left, and a step that fails or finds nothing leaves that value as it is.
-/
namespace DocQuery

structure Session where
  original : Value
  current : Value

namespace Session

def ofDocument (document : Value) : Session :=
  ⟨document, document⟩

def reset (s : Session) : Session :=
  .ofDocument s.original

def continueWith (s : Session) (selection : Selection) : Session :=
  { s with current := selection.toValue }

def select (s : Session) (path : String) : Except QueryError (Selection × Session) := do
  let selection ← query path s.current
  return (selection, s.continueWith selection)

/-- Filters the current value.  There is no selection when it cannot be filtered. -/
def filter [Pattern.Engine] (s : Session) (expression : String) : Except Filter.Error (Option Selection × Session) := do
  let predicate ← Filter.parse expression
  match (Selection.single s.current).filter? predicate with
  | some kept => return (some kept, s.continueWith kept)
  | none => return (none, s)

end Session
end DocQuery
