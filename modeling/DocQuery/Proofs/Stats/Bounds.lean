import DocQuery.Proofs.Number.Comparison
import DocQuery.Proofs.Scalar.Comparison
import DocQuery.Proofs.Value.Sites
import DocQuery.Stats
import Mathlib.Data.List.MinMax
/-!
# The least and the greatest number of a value

One pass over the numbers of a value compares each with the least and the greatest so far.  That this leaves no number
beyond them needs nothing but the transitivity of the strict order (`not_better_best`), and that is there for integers
and floats in any order, although their equality is not transitive (`figures_are_bounds`).
-/
namespace DocQuery

/-! ## The numbers of a value -/

namespace Value

theorem itemNumbers_eq : ∀ vs : List Value, itemNumbers vs = vs.flatMap numbers
  | [] => by simp [itemNumbers]
  | v :: vs => by rw [itemNumbers, itemNumbers_eq vs, List.flatMap_cons]

theorem entryNumbers_eq : ∀ es : List (String × Value), entryNumbers es = es.flatMap fun e => e.2.numbers
  | [] => by simp [entryNumbers]
  | (k, v) :: es => by rw [entryNumbers, entryNumbers_eq es, List.flatMap_cons]

theorem numbers_eq (v : Value) : v.numbers = v.number?.toList ++ v.children.flatMap fun p => p.2.numbers := by
  cases v with
  | scalar x => cases x <;> simp [numbers, number?, children]
  | array items =>
    have hitems : (items.zipIdx.map Prod.fst).flatMap numbers = items.flatMap numbers := by rw [List.zipIdx_map_fst]
    rw [List.flatMap_map] at hitems
    simp [numbers, itemNumbers_eq, number?, children, List.flatMap_map, hitems]
  | object entries => simp [numbers, entryNumbers_eq, number?, children, List.flatMap_map]

theorem number?_eq_some {v : Value} {n : Number} : v.number? = some n ↔ v = .number n := by
  cases v with
  | scalar x => cases x <;> simp [number?, number]
  | array items => simp [number?, number]
  | object entries => simp [number?, number]

theorem mem_numbers {v : Value} {n : Number} :
    n ∈ v.numbers ↔ ∃ trail address, v.locate? trail = some (address, .number n) := by
  rw [← map_content_sites numbers_eq, List.mem_map]
  simp only [mem_sites, number?_eq_some]
  constructor
  · rintro ⟨s, ⟨w, hw, rfl⟩, rfl⟩
    exact ⟨s.trail, s.address, hw⟩
  · rintro ⟨trail, address, h⟩
    exact ⟨⟨trail, address, n⟩, ⟨_, h, rfl⟩, rfl⟩

end Value

namespace Stats

variable {v : Value} {s : Stats} {first : Number} {rest : List Number}

theorem ofValue?_eq_none_iff : ofValue? v = none ↔ v.numbers = [] := by
  unfold ofValue?
  cases v.numbers <;> simp

theorem ofValue?_eq_some_iff :
    ofValue? v = some s ↔ ∃ first rest, v.numbers = first :: rest ∧ s = ofNumbers first rest := by
  unfold ofValue?
  cases v.numbers with
  | nil => simp
  | cons first rest => simp [eq_comm]

/-! ## The least and the greatest number -/

/-- The best of some numbers: each is compared with the best so far, and replaces it if it is better. -/
def best (better : Number → Number → Bool) (first : Number) (rest : List Number) : Number :=
  rest.foldl (fun best n => if better n best then n else best) first

theorem best_mem (better : Number → Number → Bool) : ∀ (first : Number) (rest : List Number),
    best better first rest ∈ first :: rest
  | first, [] => List.mem_singleton_self first
  | first, n :: rest => by
    have h := best_mem better (if better n first then n else first) rest
    rw [List.mem_cons] at h ⊢
    obtain h | h := h
    · rw [best, List.foldl_cons, ← best, h]
      split
      · exact .inr List.mem_cons_self
      · exact .inl rfl
    · exact .inr (List.mem_cons_of_mem n h)

theorem foldl_argAux_eq_best (better : Number → Number → Bool) : ∀ (first : Number) (rest : List Number),
    rest.foldl (List.argAux fun m n => better m n = true) (some first) = some (best better first rest)
  | first, [] => rfl
  | first, n :: rest => by
    have hstep : List.argAux (fun m n => better m n = true) (some first) n =
        some (if better n first then n else first) := (apply_ite some _ _ _).symm
    rw [List.foldl_cons, hstep, foldl_argAux_eq_best better _ rest]
    rfl

/-- **No number is better than the best** if being better is transitive, whether or not it is total. -/
theorem not_better_best (better : Number → Number → Bool) (hself : ∀ n, better n n = false)
    (htrans : ∀ k m n, better k m = true → better m n = true → better k n = true)
    (hn : n ∈ first :: rest) : better n (best better first rest) = false := by
  have hbest : best better first rest ∈ (first :: rest).foldl (List.argAux fun m n => better m n = true) none :=
    foldl_argAux_eq_best better first rest
  have hirrefl : Std.Irrefl fun m n => better m n = true := ⟨fun n => by rw [hself]; exact Bool.false_ne_true⟩
  exact Bool.not_eq_true _ ▸ List.not_of_mem_foldl_argAux _ hirrefl ⟨htrans⟩ hn hbest

theorem min_spec (first : Number) (rest : List Number) : (ofNumbers first rest).min ∈ first :: rest ∧
    ∀ n ∈ first :: rest, n.lt (ofNumbers first rest).min = false :=
  ⟨best_mem Number.lt first rest, fun _ => not_better_best Number.lt Number.lt_self fun _ _ _ => Number.lt_trans⟩

theorem max_spec (first : Number) (rest : List Number) : (ofNumbers first rest).max ∈ first :: rest ∧
    ∀ n ∈ first :: rest, (ofNumbers first rest).max.lt n = false :=
  ⟨best_mem (fun n best => best.lt n) first rest,
    fun _ => not_better_best (fun n best => best.lt n) Number.lt_self fun _ _ _ hkm hmn => Number.lt_trans hmn hkm⟩

/-- **The least and the greatest figure bound all numbers**, integers and floats in any order: they are numbers of the
value, and no number is less than the least or greater than the greatest.  There are such figures if the value has a
number; and if none is a not-a-number, the least is less than or equal to each and each to the greatest. -/
theorem figures_are_bounds (v : Value) :
    (ofValue? v = none ↔ ∀ trail address n, v.locate? trail ≠ some (address, .number n)) ∧
    ∀ s, ofValue? v = some s →
      (∃ trail address, v.locate? trail = some (address, .number s.min)) ∧
      (∃ trail address, v.locate? trail = some (address, .number s.max)) ∧
      ∀ trail address n, v.locate? trail = some (address, .number n) →
        n.lt s.min = false ∧ s.max.lt n = false ∧
        (v.Everywhere Value.NotNaN → s.min.le n = true ∧ n.le s.max = true) := by
  refine ⟨?_, fun s hs => ?_⟩
  · rw [ofValue?_eq_none_iff, List.eq_nil_iff_forall_not_mem]
    simp only [Value.mem_numbers, not_exists]
    exact ⟨fun h trail address n => h n trail address, fun h n trail address => h trail address n⟩
  · obtain ⟨first, rest, hnumbers, rfl⟩ := ofValue?_eq_some_iff.1 hs
    obtain ⟨hmin, hleast⟩ := min_spec first rest
    obtain ⟨hmax, hgreatest⟩ := max_spec first rest
    rw [← hnumbers] at hmin hmax hleast hgreatest
    refine ⟨Value.mem_numbers.1 hmin, Value.mem_numbers.1 hmax, fun trail address n hn => ?_⟩
    have hmem : n ∈ v.numbers := Value.mem_numbers.2 ⟨trail, address, hn⟩
    refine ⟨hleast n hmem, hgreatest n hmem, fun hnan => ?_⟩
    -- without a not-a-number each of two numbers is less than the other or greater than or equal to it
    have hquantity : ∀ m ∈ v.numbers, ∃ x, m.quantity? = some x := fun m hm => by
      obtain ⟨trail, address, hm⟩ := Value.mem_numbers.1 hm
      exact Number.exists_quantity fun hm' => hnan.of_locate? hm (by rw [hm'])
    obtain ⟨x, hx⟩ := hquantity n hmem
    obtain ⟨y, hy⟩ := hquantity _ hmin
    obtain ⟨z, hz⟩ := hquantity _ hmax
    have hbelow := hleast n hmem
    have habove := hgreatest n hmem
    rw [Number.lt_eq_not_le hx hy, Bool.not_eq_false'] at hbelow
    rw [Number.lt_eq_not_le hz hx, Bool.not_eq_false'] at habove
    exact ⟨hbelow, habove⟩

/-- Two integers around a float they are equal to. -/
theorem figures_are_bounds_mixed :
    let float := Number.float (.ofInt 9007199254740992)
    let v : Value := .array [.integer 9007199254740993, .object [("n", .number float)], .integer 9007199254740991]
    ∃ s, ofValue? v = some s ∧ (∃ trail address, v.locate? trail = some (address, .number s.min)) ∧
      (Number.integer 9007199254740991).lt s.min = false ∧ s.max.lt (.integer 9007199254740993) = false ∧
      s.min.le float = true ∧ float.le s.max = true := by
  intro float v
  obtain ⟨s, hs⟩ : ∃ s, ofValue? v = some s := ⟨_, rfl⟩
  obtain ⟨hmin, -, hbounds⟩ := (figures_are_bounds v).2 s hs
  have hfloat := Double.ofRatio_ne_nan false 9007199254740992 1
  have hnan : v.Everywhere Value.NotNaN := by
    simp [v, float, Value.NotNaN, Value.integer, Value.number, Double.ofInt, hfloat]
  exact ⟨s, hs, hmin, (hbounds [2] [.index 2] _ rfl).1, (hbounds [0] [.index 0] _ rfl).2.1,
    (hbounds [1, 0] [.index 1, .key "n"] _ rfl).2.2 hnan⟩

end Stats
end DocQuery
