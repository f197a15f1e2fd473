import DocQuery.Proofs.Value.Parts
import Mathlib.Data.List.Induction
/-!
# Values as they were written

A text may write a key of an object more than once.  A `Source` has all the pairs that were written, and the value it
stands for keeps every key once: where it was written first, with what was written for it last (`Source.gives_value`).
-/
namespace DocQuery

/-- **A value as it was written.** -/
inductive Source where
  | scalar (x : Scalar)
  | array (items : List Source)
  | object (pairs : List (String × Source))

/-- **What a written value amounts to.**  The keys of an object stand in the order in which they were written first, and
under each of them is what was written for it last. -/
inductive Gives : Source → Value → Prop
  | scalar (x : Scalar) : Gives (.scalar x) (.scalar x)
  | array {sources : List Source} {values : List Value} (hlength : values.length = sources.length)
    (hitems : ∀ (i : Nat) (s : Source) (v : Value), sources[i]? = some s → values[i]? = some v → Gives s v) :
    Gives (.array sources) (.array values)
  | object {pairs : List (String × Source)} {entries : Entries}
    (hkeys : entries.keys = (pairs.map Prod.fst).eraseDups)
    (hlast : ∀ (key : String) (s : Source) (v : Value), pairs.reverse.lookup key = some s →
      entries.lookup key = some v → Gives s v) :
    Gives (.object pairs) (.object entries)

/-! ## Entries of pairs -/

namespace Entries

theorem ofPairs_concat (pairs : List (String × Value)) (p : String × Value) :
    ofPairs (pairs ++ [p]) = (ofPairs pairs).put p.1 p.2 := by
  rw [ofPairs, List.foldl_append]
  rfl

theorem eraseDups_concat (keys : List String) (key : String) :
    (keys ++ [key]).eraseDups = if key ∈ keys then keys.eraseDups else keys.eraseDups ++ [key] := by
  have hone : [key].eraseDups = [key] := rfl
  rw [List.eraseDups_append]
  by_cases h : key ∈ keys
  · simp [List.removeAll, h]
  · simp [List.removeAll, h, hone]

theorem mem_of_lookup {α : Type} {key : String} {a : α} {pairs : List (String × α)} (h : pairs.lookup key = some a) :
    (key, a) ∈ pairs := by
  obtain ⟨front, back, rfl, -⟩ := List.lookup_eq_some_iff.1 h
  simp

theorem nodup_eraseDups (keys : List String) : keys.eraseDups.Nodup := by
  induction keys using List.reverseRecOn with
  | nil => exact List.nodup_nil
  | append_singleton keys key ih =>
    rw [eraseDups_concat]
    split
    · exact ih
    · rename_i h
      refine List.nodup_append.2 ⟨ih, by simp, fun k hk k' hk' he => ?_⟩
      rw [he, List.mem_singleton.1 hk'] at hk
      exact h (List.mem_eraseDups.1 hk)

theorem keys_ofPairs (pairs : List (String × Value)) : (ofPairs pairs).keys = (pairs.map Prod.fst).eraseDups := by
  induction pairs using List.reverseRecOn with
  | nil => rfl
  | append_singleton pairs p ih =>
    rw [ofPairs_concat, keys_put, ih, List.map_append, List.map_singleton, eraseDups_concat]
    simp only [List.mem_eraseDups]

theorem lookup_ofPairs (pairs : List (String × Value)) (key : String) :
    (ofPairs pairs).lookup key = pairs.reverse.lookup key := by
  induction pairs using List.reverseRecOn with
  | nil => rfl
  | append_singleton pairs p ih =>
    rw [ofPairs_concat, lookup_put, List.reverse_append, List.reverse_singleton, List.singleton_append,
      List.lookup_cons, ih]
    by_cases h : key = p.1
    · simp [h]
    · simp [h, beq_eq_false_iff_ne.2 h]

end Entries

/-! ## Values of sources -/

namespace Source

mutual

/-- The value of what was written: an object's pairs are entered one after the other. -/
def value : Source → Value
  | .scalar x => .scalar x
  | .array sources => .array (values sources)
  | .object pairs => .object (Entries.ofPairs (valuePairs pairs))

def values : List Source → List Value
  | [] => []
  | s :: sources => s.value :: values sources

def valuePairs : List (String × Source) → List (String × Value)
  | [] => []
  | (key, s) :: pairs => (key, s.value) :: valuePairs pairs

end

theorem values_eq : ∀ sources : List Source, values sources = sources.map value
  | [] => rfl
  | s :: sources => by rw [values, values_eq sources, List.map_cons]

theorem valuePairs_eq : ∀ pairs : List (String × Source), valuePairs pairs = pairs.map (Prod.map id value)
  | [] => rfl
  | (key, s) :: pairs => by
    rw [valuePairs, valuePairs_eq pairs, List.map_cons]
    rfl

theorem lookup_map_value (key : String) : ∀ pairs : List (String × Source),
    (pairs.map (Prod.map id value)).lookup key = (pairs.lookup key).map value
  | [] => rfl
  | (k, s) :: pairs => by
    have hmap : Prod.map id value (k, s) = (k, s.value) := rfl
    rw [List.map_cons, hmap, List.lookup_cons, List.lookup_cons, lookup_map_value key pairs]
    cases key == k <;> rfl

theorem exists_lookup {key : String} {pairs : List (String × Source)} (h : key ∈ pairs.map Prod.fst) :
    ∃ s, pairs.lookup key = some s := by
  cases hs : pairs.lookup key with
  | some s => exact ⟨s, rfl⟩
  | none =>
    obtain ⟨p, hp, rfl⟩ := List.mem_map.1 h
    have := List.lookup_eq_none_iff.1 hs p hp
    simp at this

/-- **A key keeps its first place and its last value.** -/
theorem gives_value : ∀ s : Source, Gives s s.value
  | .scalar x => .scalar x
  | .array sources => by
    rw [value, values_eq]
    refine .array (by rw [List.length_map]) fun i s v hs hv => ?_
    have hmem : s ∈ sources := List.mem_of_getElem? hs
    rw [List.getElem?_map, hs] at hv
    cases hv
    exact gives_value s
  | .object pairs => by
    rw [value, valuePairs_eq]
    refine .object ?_ fun key s v hs hv => ?_
    · rw [Entries.keys_ofPairs, List.map_map]
      rfl
    · have hmem : (key, s) ∈ pairs := List.mem_reverse.1 (Entries.mem_of_lookup hs)
      rw [Entries.lookup_ofPairs, ← List.map_reverse, lookup_map_value, hs] at hv
      cases hv
      exact gives_value s
termination_by s => sizeOf s
decreasing_by
  · have := List.sizeOf_lt_of_mem hmem
    rw [Source.array.sizeOf_spec]
    omega
  · have := List.sizeOf_lt_of_mem hmem
    rw [Prod.mk.sizeOf_spec] at this
    rw [Source.object.sizeOf_spec]
    omega

end Source

theorem Gives.everywhere_uniqueKeys {s : Source} {v : Value} (h : Gives s v) : v.Everywhere Value.UniqueKeys := by
  induction h with
  | scalar x => exact Value.everywhere_scalar.2 trivial
  | @array sources values hlength hitems ih =>
    refine Value.everywhere_array.2 ⟨trivial, fun v hv => ?_⟩
    obtain ⟨i, hi⟩ := List.getElem?_of_mem hv
    obtain ⟨hlt, -⟩ := List.getElem?_eq_some_iff.1 hi
    exact ih i _ v (List.getElem?_eq_getElem (hlength ▸ hlt)) hi
  | @object pairs entries hkeys hlast ih =>
    -- every key of the object was written, so there is a last source for its value
    have hnodup : entries.keys.Nodup := by
      rw [hkeys]
      exact Entries.nodup_eraseDups _
    refine Value.everywhere_object.2 ⟨hnodup, fun e he => ?_⟩
    have hmem : e.1 ∈ (pairs.map Prod.fst).eraseDups := by
      rw [← hkeys]
      exact List.mem_map_of_mem he
    have hwritten : e.1 ∈ pairs.reverse.map Prod.fst := by simpa using hmem
    obtain ⟨s, hs⟩ := Source.exists_lookup hwritten
    exact ih e.1 s e.2 hs (Value.lookup_of_mem hnodup he)

end DocQuery
