import DocQuery.Value.Basic
/-!
# Equality of values

Two values are equal when they have the same shape and equal scalars at the same places.  The order of an
object's entries does not count; the order of an array's elements does.  Numbers compare numerically, so this is
not the identity of trees: `30` equals `30.0`, and a not-a-number does not equal itself.
-/
namespace DocQuery

mutual

def Value.eqv : Value → Value → Bool
  | .scalar a, .scalar b => a.eqv b
  | .array xs, .array ys => eqvItems xs ys
  | .object es, .object fs => es.length == fs.length && eqvEntries es fs
  | _, _ => false

def Value.eqvItems : List Value → List Value → Bool
  | [], [] => true
  | x :: xs, y :: ys => x.eqv y && eqvItems xs ys
  | _, _ => false

/-- Every entry on the left has an equal value under its key on the right. -/
def Value.eqvEntries : List (String × Value) → List (String × Value) → Bool
  | [], _ => true
  | (k, v) :: es, fs =>
    (match fs.lookup k with
      | some w => v.eqv w
      | none => false) && eqvEntries es fs

end

end DocQuery
