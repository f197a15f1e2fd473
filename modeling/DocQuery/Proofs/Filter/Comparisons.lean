import DocQuery.Filter.Selection
import DocQuery.Proofs.Number.Places
import DocQuery.Proofs.Value.Parts
import Mathlib.Data.List.Basic
/-!
# How the operators of a filter fit together

Comparing with one number divides the elements of a list: those whose field is a number are below, equal or above, and
the operators that allow equality keep two of these parts.  Of two numbers the lesser keeps more above it and the greater
more below it (`Predicate.operators_fit`).  Integers compare exactly and all else as doubles, so the strict order is
transitive only because rounding turns no two numbers around (`Number.lt_trans`).
-/
namespace DocQuery

/-- The number in a field of an element, if the element is an object and has one there. -/
def Value.numberAt? (field : String) (element : Value) : Option Number :=
  (element.get? field).bind Value.number?

theorem Value.Everywhere.get? {P : Value → Prop} {field : String} {v u : Value} (h : v.Everywhere P)
    (hu : v.get? field = some u) : u.Everywhere P := by
  cases v with
  | scalar x => cases hu
  | array items => cases hu
  | object entries =>
    obtain ⟨front, back, rfl, -⟩ := List.lookup_eq_some_iff.1 hu
    exact (Value.everywhere_object.1 h).2 (field, u) (by simp)

theorem Value.ne_nan_of_numberAt? {field : String} {v : Value} {n : Number} (h : v.Everywhere NotNaN)
    (hn : v.numberAt? field = some n) : n ≠ .float .nan := by
  obtain ⟨u, hu, hnumber⟩ := Option.bind_eq_some_iff.1 hn
  have hnan := (everywhere_iff.1 (h.get? hu)).1
  rintro rfl
  unfold number? at hnumber
  split at hnumber
  · cases hnumber
    exact hnan rfl
  · cases hnumber

namespace Predicate

variable {field : String} {k : Number} {e : Value}

theorem holds_by_size (field : String) (k : Number) (e : Value) :
    holds ⟨field, .less, .number k⟩ e = (e.numberAt? field).any (fun n => n.lt k) ∧
    holds ⟨field, .greater, .number k⟩ e = (e.numberAt? field).any (fun n => k.lt n) ∧
    holds ⟨field, .lessEqual, .number k⟩ e = (e.numberAt? field).any (fun n => n.le k) ∧
    holds ⟨field, .greaterEqual, .number k⟩ e = (e.numberAt? field).any (fun n => k.le n) := by
  unfold holds Value.numberAt?
  dsimp only
  cases e.get? field with
  | none => exact ⟨rfl, rfl, rfl, rfl⟩
  | some v =>
    cases v with
    | array items => exact ⟨rfl, rfl, rfl, rfl⟩
    | object entries => exact ⟨rfl, rfl, rfl, rfl⟩
    | scalar x => cases x <;> exact ⟨rfl, rfl, rfl, rfl⟩

theorem holds_equal (field : String) (k : Number) (e : Value) :
    holds ⟨field, .equal, .number k⟩ e = (e.numberAt? field).any (fun n => n.eqv k) := by
  unfold holds Value.numberAt?
  dsimp only
  cases e.get? field with
  | none => rfl
  | some v =>
    cases v with
    | array items => simp [accepts, Value.eqv, Value.number?]
    | object entries => simp [accepts, Value.eqv, Value.number?]
    | scalar x => cases x <;> simp [accepts, Value.eqv, Value.number?, Scalar.eqv]

theorem holds_cases (he : e.Everywhere Value.NotNaN) (field : String) (hk : k ≠ .float .nan) :
    (holds ⟨field, .less, .number k⟩ e = false ∧ holds ⟨field, .equal, .number k⟩ e = false ∧
      holds ⟨field, .greater, .number k⟩ e = false ∧ (e.numberAt? field).isSome = false) ∨
    (holds ⟨field, .less, .number k⟩ e = true ∧ holds ⟨field, .equal, .number k⟩ e = false ∧
      holds ⟨field, .greater, .number k⟩ e = false ∧ (e.numberAt? field).isSome = true) ∨
    (holds ⟨field, .less, .number k⟩ e = false ∧ holds ⟨field, .equal, .number k⟩ e = true ∧
      holds ⟨field, .greater, .number k⟩ e = false ∧ (e.numberAt? field).isSome = true) ∨
    (holds ⟨field, .less, .number k⟩ e = false ∧ holds ⟨field, .equal, .number k⟩ e = false ∧
      holds ⟨field, .greater, .number k⟩ e = true ∧ (e.numberAt? field).isSome = true) := by
  obtain ⟨hless, hgreater, -⟩ := holds_by_size field k e
  rw [hless, hgreater, holds_equal]
  cases hn : e.numberAt? field with
  | none => exact .inl ⟨rfl, rfl, rfl, rfl⟩
  | some n =>
    obtain ⟨x, hx⟩ := Number.exists_quantity (Value.ne_nan_of_numberAt? he hn)
    obtain ⟨y, hy⟩ := Number.exists_quantity hk
    have hcases := Number.compare_cases hx hy
    simpa using hcases

theorem holds_or_equal (he : e.Everywhere Value.NotNaN) (field : String) (hk : k ≠ .float .nan) :
    holds ⟨field, .greaterEqual, .number k⟩ e =
      (holds ⟨field, .greater, .number k⟩ e || holds ⟨field, .equal, .number k⟩ e) ∧
    holds ⟨field, .lessEqual, .number k⟩ e =
      (holds ⟨field, .less, .number k⟩ e || holds ⟨field, .equal, .number k⟩ e) := by
  obtain ⟨hless, hgreater, hlessEqual, hgreaterEqual⟩ := holds_by_size field k e
  rw [hless, hgreater, hlessEqual, hgreaterEqual, holds_equal]
  cases hn : e.numberAt? field with
  | none => exact ⟨rfl, rfl⟩
  | some n =>
    obtain ⟨x, hx⟩ := Number.exists_quantity (Value.ne_nan_of_numberAt? he hn)
    obtain ⟨y, hy⟩ := Number.exists_quantity hk
    simp only [Option.any_some]
    exact ⟨by rw [Number.le_eq_lt_or_eqv hy hx, Number.eqv_comm n k], Number.le_eq_lt_or_eqv hx hy⟩

theorem holds_notEqual (field : String) (x : Scalar) (e : Value) : holds ⟨field, .notEqual, x⟩ e =
    ((e.get? field).isSome && !holds ⟨field, .equal, x⟩ e) := by
  unfold holds
  dsimp only
  cases e.get? field <;> simp [accepts]

theorem holds_of_lt {a b : Number} (hab : a.lt b = true) (field : String) (e : Value) :
    (holds ⟨field, .greater, .number b⟩ e = true → holds ⟨field, .greater, .number a⟩ e = true) ∧
    (holds ⟨field, .less, .number a⟩ e = true → holds ⟨field, .less, .number b⟩ e = true) := by
  simp only [holds_by_size, Option.any_eq_true]
  constructor
  · rintro ⟨n, hn, hlt⟩
    exact ⟨n, hn, Number.lt_trans hab hlt⟩
  · rintro ⟨n, hn, hlt⟩
    exact ⟨n, hn, Number.lt_trans hlt hab⟩

/-! ## Lists -/

theorem disjoint_keep {p q : Predicate} {elements : List Value}
    (h : ∀ e ∈ elements, p.holds e = true → q.holds e = false) : (p.keep elements).Disjoint (q.keep elements) := by
  intro e hp hq
  obtain ⟨he, hpe⟩ := List.mem_filter.1 hp
  rw [keep, List.mem_filter, h e he hpe] at hq
  cases hq.2

/-- **No two strict operators keep the same element.** -/
theorem pairwise_disjoint_keep {elements : List Value} (helements : ∀ e ∈ elements, e.Everywhere Value.NotNaN)
    (field : String) (hk : k ≠ .float .nan) :
    [keep ⟨field, .less, .number k⟩ elements, keep ⟨field, .equal, .number k⟩ elements,
      keep ⟨field, .greater, .number k⟩ elements].Pairwise List.Disjoint := by
  have hcases := fun e he => holds_cases (helements e he) field hk
  simp only [List.pairwise_cons, List.mem_cons, List.not_mem_nil, or_false, forall_eq_or_imp, forall_eq,
    List.Pairwise.nil, false_implies, implies_true, and_true]
  refine ⟨⟨disjoint_keep fun e he hp => ?_, disjoint_keep fun e he hp => ?_⟩, disjoint_keep fun e he hp => ?_⟩
  · rcases hcases e he with h | h | h | h <;> simp_all
  · rcases hcases e he with h | h | h | h <;> simp_all
  · rcases hcases e he with h | h | h | h <;> simp_all

/-- **What the strict operators keep makes up the elements with a number in the field**, each kept once. -/
theorem keep_perm {elements : List Value} (helements : ∀ e ∈ elements, e.Everywhere Value.NotNaN) (field : String)
    (hk : k ≠ .float .nan) :
    (keep ⟨field, .less, .number k⟩ elements ++
        (keep ⟨field, .equal, .number k⟩ elements ++ keep ⟨field, .greater, .number k⟩ elements)).Perm
      (elements.filter fun e => (e.numberAt? field).isSome) := by
  have hcases := fun e he => holds_cases (helements e he) field hk
  unfold keep
  generalize holds ⟨field, .less, .number k⟩ = less at *
  generalize holds ⟨field, .equal, .number k⟩ = equal at *
  generalize holds ⟨field, .greater, .number k⟩ = greater at *
  generalize hnumbers : elements.filter (fun e => (e.numberAt? field).isSome) = numbers
  generalize hrest : numbers.filter (fun e => !less e) = rest
  have hless : elements.filter less = numbers.filter less := by
    rw [← hnumbers, List.filter_filter]
    refine List.filter_congr fun e he => ?_
    rcases hcases e he with h | h | h | h <;> simp [h]
  have hequal : elements.filter equal = rest.filter equal := by
    rw [← hrest, ← hnumbers, List.filter_filter, List.filter_filter]
    refine List.filter_congr fun e he => ?_
    rcases hcases e he with h | h | h | h <;> simp [h]
  have hgreater : elements.filter greater = rest.filter (fun e => !equal e) := by
    rw [← hrest, ← hnumbers, List.filter_filter, List.filter_filter]
    refine List.filter_congr fun e he => ?_
    rcases hcases e he with h | h | h | h <;> simp [h]
  have hsplit : (numbers.filter less ++ rest).Perm numbers := hrest ▸ List.filter_append_perm less numbers
  rw [hless, hequal, hgreater]
  exact ((List.filter_append_perm equal rest).append_left _).trans hsplit

/-- **How the operators of a filter fit together** on a list of values without a not-a-number.  Comparing with a number
divides the elements whose field is a number into those below, those equal and those above; the operators that allow
equality keep two of these parts, and the negation of equality keeps the rest of the elements that have the field.  Of
two numbers the lesser keeps no less above it, and the greater no less below it.  Whatever is kept stays in its order. -/
theorem operators_fit {elements : List Value} (helements : ∀ e ∈ elements, e.Everywhere Value.NotNaN) (field : String) :
    (∀ k : Number, k ≠ .float .nan →
      [keep ⟨field, .less, .number k⟩ elements, keep ⟨field, .equal, .number k⟩ elements,
        keep ⟨field, .greater, .number k⟩ elements].Pairwise List.Disjoint ∧
      (keep ⟨field, .less, .number k⟩ elements ++
          (keep ⟨field, .equal, .number k⟩ elements ++ keep ⟨field, .greater, .number k⟩ elements)).Perm
        (elements.filter fun e => (e.numberAt? field).isSome) ∧
      keep ⟨field, .greaterEqual, .number k⟩ elements =
        elements.filter (fun e => holds ⟨field, .greater, .number k⟩ e || holds ⟨field, .equal, .number k⟩ e) ∧
      keep ⟨field, .lessEqual, .number k⟩ elements =
        elements.filter (fun e => holds ⟨field, .less, .number k⟩ e || holds ⟨field, .equal, .number k⟩ e)) ∧
    (∀ x : Scalar, keep ⟨field, .notEqual, x⟩ elements =
      elements.filter (fun e => (e.get? field).isSome && !holds ⟨field, .equal, x⟩ e)) ∧
    (∀ a b : Number, a.lt b = true →
      (keep ⟨field, .greater, .number b⟩ elements).Sublist (keep ⟨field, .greater, .number a⟩ elements) ∧
      (keep ⟨field, .less, .number a⟩ elements).Sublist (keep ⟨field, .less, .number b⟩ elements)) ∧
    ∀ (test : FieldTest) (x : Scalar), (keep ⟨field, test, x⟩ elements).Sublist elements := by
  refine ⟨fun k hk => ⟨pairwise_disjoint_keep helements field hk, keep_perm helements field hk, ?_, ?_⟩,
    fun x => List.filter_congr fun e _ => holds_notEqual field x e, fun a b hab => ⟨?_, ?_⟩,
    fun test x => List.filter_sublist⟩
  · exact List.filter_congr fun e he => (holds_or_equal (helements e he) field hk).1
  · exact List.filter_congr fun e he => (holds_or_equal (helements e he) field hk).2
  · exact List.monotone_filter_right elements fun e => (holds_of_lt hab field e).1
  · exact List.monotone_filter_right elements fun e => (holds_of_lt hab field e).2

/-- Integers that are equal to a float and not to each other. -/
theorem operators_fit_mixed :
    let elements : List Value := [.object [("n", .integer 9007199254740993)],
      .object [("n", .number (.float (.ofInt 9007199254740992)))], .object [("n", .string "9")], .null]
    (keep ⟨"n", .less, .number (.integer 9007199254740993)⟩ elements ++
        (keep ⟨"n", .equal, .number (.integer 9007199254740993)⟩ elements ++
          keep ⟨"n", .greater, .number (.integer 9007199254740993)⟩ elements)).Perm
      (elements.filter fun e => (e.numberAt? "n").isSome) ∧
    (keep ⟨"n", .greater, .number (.integer 9007199254740993)⟩ elements).Sublist
      (keep ⟨"n", .greater, .number (.integer 9007199254740992)⟩ elements) := by
  intro elements
  have hfloat := Double.ofRatio_ne_nan false 9007199254740992 1
  have helements : ∀ e ∈ elements, e.Everywhere Value.NotNaN := by
    simp [elements, Value.NotNaN, Value.integer, Value.number, Value.string, Value.null, Double.ofInt, hfloat]
  obtain ⟨hnumber, -, hless, -⟩ := operators_fit helements "n"
  have hbound : Number.integer 9007199254740993 ≠ .float .nan := by simp
  exact ⟨(hnumber (.integer 9007199254740993) hbound).2.1, (hless _ _ (by decide)).1⟩

end Predicate
end DocQuery
