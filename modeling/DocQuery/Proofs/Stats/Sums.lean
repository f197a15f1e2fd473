import DocQuery.Proofs.Stats.Bounds
/-!
# Exact sums

The sum of the numbers of a value is kept as an integer until a float or a sum out of range ends that for good.  As long
as there is an integer it is the exact sum of the numbers so far (`foldl_addExact_eq_some_iff`), so the sum is an integer
only if it is the exact one (`figures_of_integers`).
-/
namespace DocQuery.Stats

variable {n first : Number} {rest : List Number} {i : Int64}

def InRange (x : Int) : Prop :=
  Int64.minValue.toInt ≤ x ∧ x ≤ Int64.maxValue.toInt

def total (integers : List Int64) : Int :=
  integers.foldr (fun i sum => i.toInt + sum) 0

/-- **Numbers that can be added exactly**: they are integers, and no partial sum is out of range. -/
def Addable (numbers : List Number) (integers : List Int64) : Prop :=
  numbers = integers.map .integer ∧ ∀ j, InRange (total (integers.take j))

theorem inRange_toInt (i : Int64) : InRange i.toInt :=
  ⟨i.minValue_le_toInt, i.toInt_le⟩

theorem addExact_eq_some_iff {a b : Int64} :
    addExact (some a) n = some b ↔ ∃ i, n = .integer i ∧ b.toInt = a.toInt + i.toInt := by
  cases n with
  | integer i => simp [addExact, int64?_eq_some_iff, eq_comm]
  | float x => simp [addExact]

theorem exists_addExact {a : Int64} (h : InRange (a.toInt + i.toInt)) :
    ∃ b, addExact (some a) (.integer i) = some b :=
  ⟨_, dif_pos h⟩

theorem foldl_addExact_none (numbers : List Number) : numbers.foldl addExact none = none := by
  induction numbers with
  | nil => rfl
  | cons n numbers ih => exact ih

/-- **A running sum is the exact one**, and there is one as long as the numbers are integers and the sum is in range. -/
theorem foldl_addExact_eq_some_iff : ∀ (numbers : List Number) (a b : Int64),
    numbers.foldl addExact (some a) = some b ↔ ∃ integers, numbers = integers.map .integer ∧
      (∀ j, InRange (a.toInt + total (integers.take j))) ∧ b.toInt = a.toInt + total integers
  | [], a, b => by
    constructor
    · intro h
      cases h
      exact ⟨[], rfl, fun j => by simpa [total] using inRange_toInt a, by simp [total]⟩
    · rintro ⟨integers, hnumbers, -, hb⟩
      obtain rfl := List.map_eq_nil_iff.1 hnumbers.symm
      simp only [total, List.foldr_nil, Int.add_zero, Int64.toInt_inj] at hb
      rw [hb]
      rfl
  | n :: numbers, a, b => by
    rw [List.foldl_cons]
    constructor
    · intro h
      cases hc : addExact (some a) n with
      | none =>
        rw [hc, foldl_addExact_none] at h
        cases h
      | some c =>
        rw [hc, foldl_addExact_eq_some_iff numbers] at h
        obtain ⟨integers, rfl, hrange, hb⟩ := h
        obtain ⟨i, rfl, hsum⟩ := addExact_eq_some_iff.1 hc
        -- the partial sums are the running sum from the start and those behind the first number
        refine ⟨i :: integers, rfl, fun j => ?_, ?_⟩
        · cases j with
          | zero => simpa [total] using inRange_toInt a
          | succ j =>
            have := hrange j
            rwa [hsum, Int.add_assoc] at this
        · rw [hb, hsum, Int.add_assoc]
          rfl
    · rintro ⟨integers, hnumbers, hrange, hb⟩
      obtain ⟨i, integers, rfl, rfl, rfl⟩ := List.map_eq_cons_iff.1 hnumbers.symm
      have hfirst : InRange (a.toInt + i.toInt) := by simpa [total] using hrange 1
      obtain ⟨c, hc⟩ := exists_addExact hfirst
      obtain ⟨_, ⟨⟩, hsum⟩ := addExact_eq_some_iff.1 hc
      rw [hc, foldl_addExact_eq_some_iff]
      refine ⟨integers, rfl, fun j => ?_, ?_⟩
      · have := hrange (j + 1)
        rw [hsum, Int.add_assoc]
        exact this
      · rw [hb, hsum, Int.add_assoc]
        rfl

theorem exact_of_foldl_addExact {front : List Number} {a : Int64} (h : front.foldl addExact (some 0) = some a) :
    ∃ integers, front = integers.map .integer ∧ a.toInt = total integers := by
  obtain ⟨integers, hfront, -, ha⟩ := (foldl_addExact_eq_some_iff front 0 a).1 h
  exact ⟨integers, hfront, by rw [ha, Int64.toInt_zero, Int.zero_add]⟩

/-- **The sum is an integer** exactly if the numbers can be added exactly, and then it is their exact sum. -/
theorem sum_eq_integer_iff : (ofNumbers first rest).sum = .integer i ↔
    ∃ integers, Addable (first :: rest) integers ∧ i.toInt = total integers := by
  have hsum := foldl_addExact_eq_some_iff (first :: rest) 0 i
  simp only [Int64.toInt_zero, Int.zero_add, ← and_assoc] at hsum
  rw [List.foldl_cons] at hsum
  refine Iff.trans ?_ hsum
  rw [ofNumbers]
  dsimp only
  cases rest.foldl addExact (addExact (some 0) first) <;> simp

theorem exists_sum_eq_integer_iff :
    (∃ i, (ofNumbers first rest).sum = .integer i) ↔ ∃ integers, Addable (first :: rest) integers := by
  simp only [sum_eq_integer_iff]
  constructor
  · rintro ⟨i, integers, h, -⟩
    exact ⟨integers, h⟩
  · rintro ⟨integers, h⟩
    have hrange := h.2 integers.length
    rw [List.take_length] at hrange
    exact ⟨Int64.ofIntLE _ hrange.1 hrange.2, integers, h, Int64.toInt_ofIntLE⟩

/-! ## The figures of integers -/

theorem exists_bounds {integers : List Int64} (h : first :: rest = integers.map .integer) :
    ∃ least greatest, (ofNumbers first rest).min = .integer least ∧ (ofNumbers first rest).max = .integer greatest ∧
      least ∈ integers ∧ greatest ∈ integers ∧ ∀ i ∈ integers, least.toInt ≤ i.toInt ∧ i.toInt ≤ greatest.toInt := by
  obtain ⟨hmin, hleast⟩ := min_spec first rest
  obtain ⟨hmax, hgreatest⟩ := max_spec first rest
  rw [h] at hmin hmax
  obtain ⟨least, hl, hleasteq⟩ := List.mem_map.1 hmin
  obtain ⟨greatest, hg, hgreatesteq⟩ := List.mem_map.1 hmax
  refine ⟨least, greatest, hleasteq.symm, hgreatesteq.symm, hl, hg, fun i hi => ?_⟩
  have hmem : Number.integer i ∈ first :: rest := h ▸ List.mem_map.2 ⟨i, hi, rfl⟩
  have hle := hleast _ hmem
  have hge := hgreatest _ hmem
  rw [← hleasteq, Number.lt, decide_eq_false_iff_not, Int64.not_lt, Int64.le_iff_toInt_le] at hle
  rw [← hgreatesteq, Number.lt, decide_eq_false_iff_not, Int64.not_lt, Int64.le_iff_toInt_le] at hge
  exact ⟨hle, hge⟩

/-- **The figures of integers are exact.**  The numbers of a value are those at all places where it has one, in document
order.  There are figures if there is a number, and then they count them all.  The sum is an integer if the numbers are
integers of which no partial sum is out of range, and then it is the exact sum; else it is a float.  No running sum wraps
around.  And of integers the least and the greatest are the exact ones. -/
theorem figures_of_integers (v : Value) :
    (∃ trails : List Trail, (∀ t, t ∈ trails ↔ ∃ address n, v.locate? t = some (address, .number n)) ∧
      trails.Pairwise (· < ·) ∧ v.numbers.map some = trails.map fun t => (v.locate? t).bind fun p => p.2.number?) ∧
    (ofValue? v = none ↔ v.numbers = []) ∧
    ∀ s, ofValue? v = some s →
      s.count = v.numbers.length ∧
      (∀ i, s.sum = .integer i ↔ ∃ integers, Addable v.numbers integers ∧ i.toInt = total integers) ∧
      ((∃ x, s.sum = .float x) ↔ ¬∃ integers, Addable v.numbers integers) ∧
      (∀ front back a, v.numbers = front ++ back → front.foldl addExact (some 0) = some a →
        ∃ integers, front = integers.map .integer ∧ a.toInt = total integers) ∧
      ∀ integers : List Int64, v.numbers = integers.map .integer → ∃ least greatest,
        s.min = .integer least ∧ s.max = .integer greatest ∧ least ∈ integers ∧ greatest ∈ integers ∧
        ∀ i ∈ integers, least.toInt ≤ i.toInt ∧ i.toInt ≤ greatest.toInt := by
  refine ⟨?_, ofValue?_eq_none_iff, fun s hs => ?_⟩
  · obtain ⟨trails, hmem, hpairwise, hnumbers⟩ := v.exists_trails Value.numbers_eq
    refine ⟨trails, fun t => ?_, hpairwise, hnumbers⟩
    simp only [hmem, Value.number?_eq_some]
    constructor
    · rintro ⟨address, w, n, hw, rfl⟩
      exact ⟨address, n, hw⟩
    · rintro ⟨address, n, hn⟩
      exact ⟨address, .number n, n, hn, rfl⟩
  · obtain ⟨first, rest, hnumbers, rfl⟩ := ofValue?_eq_some_iff.1 hs
    rw [hnumbers]
    refine ⟨rfl, fun i => ?_, ?_, fun front back a _ => exact_of_foldl_addExact, fun integers => exists_bounds⟩
    · exact sum_eq_integer_iff
    · rw [← exists_sum_eq_integer_iff]
      cases (ofNumbers first rest).sum <;> simp

/-- A sum that goes out of range and comes back: it is no integer, and the least and the greatest number are exact. -/
theorem figures_of_integers_overflow :
    let numbers : List Value := [.integer 9223372036854775807, .object [("n", .integer 1)], .integer (-1)]
    ∃ s, ofValue? (.array numbers) = some s ∧ s.count = 3 ∧ (∃ x, s.sum = .float x) ∧ s.min = .integer (-1) ∧
      s.max = .integer 9223372036854775807 := by
  intro numbers
  let integers : List Int64 := [9223372036854775807, 1, -1]
  have hnumbers : (Value.array numbers).numbers = integers.map .integer := rfl
  obtain ⟨s, hs⟩ : ∃ s, ofValue? (.array numbers) = some s := ⟨_, rfl⟩
  obtain ⟨hcount, -, hfloat, -, hbounds⟩ := (figures_of_integers (.array numbers)).2.2 s hs
  have hover : ¬InRange (total (integers.take 2)) := by
    unfold InRange
    decide
  refine ⟨s, hs, hcount, hfloat.2 ?_, ?_⟩
  · rintro ⟨integers', hintegers, hrange⟩
    obtain rfl : integers' = integers :=
      List.map_injective_iff.2 (fun _ _ => Number.integer.inj) (hintegers.symm.trans hnumbers)
    exact hover (hrange 2)
  · obtain ⟨least, greatest, hmin, hmax, hl, hg, hall⟩ := hbounds integers hnumbers
    have hbelow := (hall (-1) (by decide)).1
    have habove := (hall 9223372036854775807 (by decide)).2
    simp only [integers, List.mem_cons, List.not_mem_nil, or_false] at hl hg
    obtain rfl | rfl | rfl := hl
    · exact absurd hbelow (by decide)
    · exact absurd hbelow (by decide)
    obtain rfl | rfl | rfl := hg
    · exact ⟨hmin, hmax⟩
    · exact absurd habove (by decide)
    · exact absurd habove (by decide)

end DocQuery.Stats
