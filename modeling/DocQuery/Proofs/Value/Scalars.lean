import DocQuery.Proofs.Value.Written
/-!
# Scalars inside values

What was written may have more scalars in it than the value that it stands for, since a key may be written again, but the
value has no others (`Source.AllScalars.everywhere_ifScalar`).
-/
namespace DocQuery

/-- A value that is no scalar, or one with a property. -/
def Value.IfScalar (P : Scalar → Prop) : Value → Prop
  | .scalar x => P x
  | _ => True

namespace Value

variable {v : Value}

theorem IfScalar.imp {P Q : Scalar → Prop} (hPQ : ∀ x, P x → Q x) (h : v.IfScalar P) : v.IfScalar Q := by
  cases v with
  | scalar x => exact hPQ x h
  | array items => trivial
  | object entries => trivial

end Value

inductive Source.AllScalars (P : Scalar → Prop) : Source → Prop
  | scalar {x : Scalar} (h : P x) : AllScalars P (.scalar x)
  | array {sources : List Source} (h : ∀ s ∈ sources, AllScalars P s) : AllScalars P (.array sources)
  | object {pairs : List (String × Source)} (h : ∀ p ∈ pairs, AllScalars P p.2) : AllScalars P (.object pairs)

theorem Entries.mem_of_mem_ofPairs {pairs : List (String × Value)} {e : String × Value} (h : e ∈ ofPairs pairs) :
    e ∈ pairs := by
  have hnodup : (ofPairs pairs).keys.Nodup := by
    rw [keys_ofPairs]
    exact nodup_eraseDups _
  have hlookup := Value.lookup_of_mem hnodup h
  rw [lookup_ofPairs] at hlookup
  exact List.mem_reverse.1 (mem_of_lookup hlookup)

/-- **A value has no scalars that were not written.** -/
theorem Source.AllScalars.everywhere_ifScalar {P : Scalar → Prop} {s : Source} (h : s.AllScalars P) :
    s.value.Everywhere (Value.IfScalar P) := by
  induction h with
  | scalar h => exact Value.everywhere_scalar.2 h
  | array h ih =>
    rw [value, values_eq]
    refine Value.everywhere_array.2 ⟨trivial, fun v hv => ?_⟩
    obtain ⟨s, hs, rfl⟩ := List.mem_map.1 hv
    exact ih s hs
  | object h ih =>
    rw [value, valuePairs_eq]
    refine Value.everywhere_object.2 ⟨trivial, fun e he => ?_⟩
    obtain ⟨p, hp, rfl⟩ := List.mem_map.1 (Entries.mem_of_mem_ofPairs he)
    exact ih p hp

end DocQuery
