import DocQuery.Proofs.Command.Outcomes
/-!
# Filters one after the other

What a filter leaves is a value again, an array of an array and an object of an object, so that the next filter finds
what it would have found and both together test as one would that asks for both (`bind_passing?`).  Filters can
therefore be applied in any order and any number of times (`filteredBy?_congr`), and each of them keeps all that passes,
as it is and in its order (`filter_in_steps`).
-/
namespace DocQuery

/-- What passes of a value: the elements of an array that pass, or an object that passes itself. -/
def Value.passing? (test : Value → Bool) : Value → Option Value
  | .array items => some (.array (items.filter test))
  | .object entries => if test (.object entries) then some (.object entries) else none
  | .scalar _ => none

theorem Value.bind_passing? (s t : Value → Bool) (v : Value) :
    (v.passing? s).bind (passing? t) = v.passing? fun e => s e && t e := by
  cases v with
  | scalar x => rfl
  | array items =>
    have htests : (fun e => t e && s e) = fun e => s e && t e := funext fun e => Bool.and_comm _ _
    rw [passing?, Option.bind_some, passing?, List.filter_filter, htests, passing?]
  | object entries =>
    unfold passing?
    by_cases hs : s (.object entries) = true
    · simp [hs]
    · simp [hs]

namespace Predicate

variable {p q : Predicate} {ps qs : List Predicate} {v : Value}

/-- What a filter leaves of a value, as a value of its own. -/
def filtered? (p : Predicate) (v : Value) : Option Value :=
  ((Selection.single v).filter? p).map Selection.toValue

def filteredBy? (ps : List Predicate) (v : Value) : Option Value :=
  ps.foldlM (fun u p => p.filtered? u) v

theorem filtered?_eq (p : Predicate) (v : Value) : p.filtered? v = v.passing? p.holds := by
  cases v with
  | scalar x => rfl
  | array items => rfl
  | object entries =>
    unfold filtered? Selection.filter? Value.passing?
    by_cases h : p.holds (.object entries) = true
    · simp [h, Selection.toValue]
    · simp [h]

theorem bind_filteredBy? (ps : List Predicate) (test : Value → Bool) (v : Value) :
    (v.passing? test).bind (filteredBy? ps) = v.passing? fun e => test e && ps.all fun p => p.holds e := by
  induction ps generalizing test with
  | nil =>
    have hnone : filteredBy? [] = some := rfl
    simp [hnone]
  | cons p ps ih =>
    have hcons : filteredBy? (p :: ps) = fun u => (p.filtered? u).bind (filteredBy? ps) := rfl
    simp only [hcons, filtered?_eq, ← Option.bind_assoc, Value.bind_passing?, ih, List.all_cons, Bool.and_assoc]

theorem filteredBy?_cons (p : Predicate) (ps : List Predicate) (v : Value) :
    filteredBy? (p :: ps) v = v.passing? fun e => (p :: ps).all fun p => p.holds e := by
  have hcons : filteredBy? (p :: ps) v = (p.filtered? v).bind (filteredBy? ps) := rfl
  rw [hcons, filtered?_eq, bind_filteredBy?]
  rfl

/-- **Neither the order of filters nor how often each is applied makes a difference.** -/
theorem filteredBy?_congr (h : ∀ p, p ∈ ps ↔ p ∈ qs) (v : Value) : filteredBy? ps v = filteredBy? qs v := by
  cases ps with
  | nil =>
    have hnil : qs = [] := List.eq_nil_iff_forall_not_mem.2 fun p hp => List.not_mem_nil ((h p).2 hp)
    rw [hnil]
  | cons p ps =>
    cases qs with
    | nil => exact absurd ((h p).1 List.mem_cons_self) List.not_mem_nil
    | cons q qs =>
      have htests : (fun e => (p :: ps).all fun p => p.holds e) = fun e => (q :: qs).all fun p => p.holds e := by
        funext e
        rw [Bool.eq_iff_iff, List.all_eq_true, List.all_eq_true]
        exact forall_congr' fun p => by rw [h p]
      rw [filteredBy?_cons, filteredBy?_cons, htests]

/-- **All that passes is kept**: any other choice of tested values that pass is part of it. -/
theorem sublist_values_filter? {selection : Selection} {es : List Value} (hes : es.Sublist selection.tested)
    (hholds : ∀ e ∈ es, p.holds e = true) :
    es.Sublist (((selection.filter? p).map Selection.values).getD []) := by
  rw [Selection.values_filter?, ← List.filter_eq_self.2 hholds]
  exact hes.filter p.holds

/-- **Filtering in steps does not depend on the order of the steps.**  Two filters leave the same whichever comes first,
the second application of one leaves what the first did, and altogether only which filters are applied counts.  Several
values are filtered as an array of them is.  What is kept are tested values as they are and in their order; all of
them pass, and none that does is lost. -/
theorem filter_in_steps :
    (∀ (p q : Predicate) (v : Value), (p.filtered? v).bind q.filtered? = (q.filtered? v).bind p.filtered?) ∧
    (∀ (p : Predicate) (v : Value), (p.filtered? v).bind p.filtered? = p.filtered? v) ∧
    (∀ (ps qs : List Predicate) (v : Value), (∀ p, p ∈ ps ↔ p ∈ qs) → filteredBy? ps v = filteredBy? qs v) ∧
    (∀ (p : Predicate) (vs : List Value),
      ((Selection.many vs).filter? p).map Selection.toValue = p.filtered? (.array vs)) ∧
    ∀ (p : Predicate) (selection : Selection), ∃ kept : List Value,
      ((selection.filter? p).map Selection.values).getD [] = kept ∧ kept.Sublist selection.tested ∧
      (∀ e ∈ kept, p.holds e = true) ∧
      ∀ es : List Value, es.Sublist selection.tested → (∀ e ∈ es, p.holds e = true) → es.Sublist kept := by
  have htwo : ∀ (p q : Predicate) (v : Value), (p.filtered? v).bind q.filtered? = filteredBy? [p, q] v := by
    intro p q v
    simp [filteredBy?]
  refine ⟨fun p q v => ?_, fun p v => ?_, fun ps qs v h => filteredBy?_congr h v, fun p vs => rfl,
    fun p selection => ⟨_, rfl, ?_, ?_, fun es hes hholds => sublist_values_filter? hes hholds⟩⟩
  · rw [htwo, htwo]
    exact filteredBy?_congr (fun r => by simp [or_comm]) v
  · have hone : p.filtered? v = filteredBy? [p] v := by simp [filteredBy?]
    rw [htwo, hone]
    exact filteredBy?_congr (fun r => by simp) v
  · rw [Selection.values_filter?]
    exact List.filter_sublist
  · rw [Selection.values_filter?]
    exact fun e he => (List.mem_filter.1 he).2

/-- Two filters in either order, one of them twice, on an array of which each leaves something else. -/
theorem filter_in_steps_repeated :
    let row (n : Int64) : Value := .object [("n", .integer n)]
    let rows : List Value := [row 1, row 5, .null, row 9, row 7]
    let below : Predicate := ⟨"n", .less, .number (.integer 9)⟩
    let above : Predicate := ⟨"n", .greater, .number (.integer 1)⟩
    filteredBy? [below, above, below] (.array rows) = filteredBy? [above, below] (.array rows) ∧
    filteredBy? [above, below] (.array rows) = some (.array [row 5, row 7]) ∧
    ∃ kept : List Value, ((Selection.many rows).filter? below).map Selection.values = some kept ∧
      [row 1, row 7].Sublist kept := by
  intro row rows below above
  obtain ⟨-, -, hsteps, -, hkept⟩ := filter_in_steps
  refine ⟨hsteps _ _ _ fun p => ?_, rfl, ?_⟩
  · simp only [List.mem_cons, List.not_mem_nil, or_false]
    rw [or_left_comm, or_self]
  · obtain ⟨kept, hvalues, -, -, hall⟩ := hkept below (.many rows)
    have hrows : [row 1, row 7].Sublist rows := by simp [rows]
    exact ⟨kept, congrArg some hvalues, hall _ hrows (by simp; decide)⟩

end Predicate
end DocQuery
