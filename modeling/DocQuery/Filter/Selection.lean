import DocQuery.Filter.Basic
import DocQuery.Path.Selection
/-!
# Filtering

A predicate keeps elements in their order.  What it does to a selection depends on its shape: several values and the
elements of a single array are tested one by one, and a single object is kept whole or not at all.
-/
namespace DocQuery

def Predicate.keep (p : Predicate) (elements : List Value) : List Value :=
  elements.filter p.holds

/-- What is left of a selection, or nothing when there is nothing that could be tested. -/
def Selection.filter? (p : Predicate) : Selection → Option Selection
  | .many vs => some (.many (p.keep vs))
  | .single (.array items) => some (.many (p.keep items))
  | .single (.object entries) => if p.holds (.object entries) then some (.single (.object entries)) else none
  | .single (.scalar _) => none

end DocQuery
