import DocQuery.Number
import DocQuery.Proofs.Double.Quantities
/-!
# Comparing numbers

An integer is compared with a float as the nearest double.  Rounding keeps the order but not its strictness: so no two
numbers compare the wrong way round, but an integer that no double can stand for is equal to a float that is another
quantity (`comparison_of_quantities`).
-/
namespace DocQuery.Number

def quantity? : Number → Option Quantity
  | .integer i => some (.rational i.toInt)
  | .float x => x.quantity?

/-- A number that a double can stand for: an integer is one if its significant bits are fifty-three at the most. -/
def Exact : Number → Prop
  | .integer i => ∃ m k, m < 2 ^ 53 ∧ i.toInt.natAbs = m * 2 ^ k
  | .float _ => True

variable {a b c : Number} {x y z : Quantity}

theorem quantity_toDouble_iff : a.toDouble.quantity? = a.quantity? ↔ a.Exact := by
  cases a with
  | integer i => exact Double.quantity_ofInt_iff
  | float f => exact iff_of_true rfl trivial

theorem toDouble_cases (h : a.quantity? = some x) : (∃ n, a = .float (.infinite n)) ∨ ∃ n u r,
    x = .rational ((Double.signed n u : ℚ) / 2 ^ Double.unitExponent) ∧ Double.rankOfUnits u 1 = r.val ∧
      a.toDouble = .finite n r := by
  cases a with
  | integer i =>
    cases h
    exact .inr ⟨_, _, _, by rw [Double.signed_units_eq], rfl, Double.ofInt_eq i⟩
  | float f =>
    cases f with
    | nan => cases h
    | infinite n => exact .inl ⟨n, rfl⟩
    | finite n r =>
      cases h
      exact .inr ⟨n, Double.units r, r, rfl, Double.rankOfUnits_units r, rfl⟩

theorem exists_quantity_toDouble (h : a.quantity? = some x) : ∃ q, a.toDouble.quantity? = some q := by
  obtain ⟨n, rfl⟩ | ⟨n, u, r, -, -, hr⟩ := toDouble_cases h
  · exact ⟨_, rfl⟩
  · exact ⟨_, by rw [hr]; rfl⟩

theorem toDouble_le_of_le (ha : a.quantity? = some x) (hb : b.quantity? = some y) (h : x ≤ y) :
    a.toDouble.le b.toDouble = true := by
  obtain ⟨q, hq⟩ := exists_quantity_toDouble hb
  obtain ⟨p, hp⟩ := exists_quantity_toDouble ha
  obtain ⟨m, rfl⟩ | ⟨m, u, r, rfl, hur, har⟩ := toDouble_cases ha
  · have hinf : (Double.infinite m).quantity? = some x := ha
    obtain ⟨n, rfl⟩ | ⟨n, v, s, rfl, -, -⟩ := toDouble_cases hb
    · have hinf' : (Double.infinite n).quantity? = some y := hb
      exact (Double.le_iff_quantity hinf hinf').2 h
    · refine (Double.le_iff_quantity hinf hq).2 ?_
      cases hinf
      cases m with
      | true => exact bot_le
      | false => exact absurd (top_le_iff.1 h) (Quantity.rational_ne_top _)
  · obtain ⟨n, rfl⟩ | ⟨n, v, s, rfl, hvs, hbs⟩ := toDouble_cases hb
    · have hinf : (Double.infinite n).quantity? = some y := hb
      refine (Double.le_iff_quantity hp hinf).2 ?_
      cases hinf
      cases n with
      | true => exact absurd (le_bot_iff.1 h) (Quantity.rational_ne_bot _)
      | false => exact le_top
    · have hunit : (0 : ℚ) < 2 ^ Double.unitExponent := pow_pos zero_lt_two _
      rw [Quantity.rational_le_iff, div_le_div_iff_of_pos_right hunit, Int.cast_le] at h
      have hround := Double.signed_le_signed (Double.rankOfUnits_mono Nat.one_pos) (Double.rankOfUnits_units 0) h
      rw [hur, hvs] at hround
      rw [har, hbs]
      exact decide_eq_true hround

theorem integer_le_iff {i j : Int64} : (Number.integer i).le (.integer j) = true ↔ (i.toInt : ℚ) ≤ j.toInt := by
  rw [le, decide_eq_true_eq, Int64.le_iff_toInt_le, Int.cast_le]

/-- **No two numbers compare the wrong way round.** -/
theorem le_of_quantity_le (ha : a.quantity? = some x) (hb : b.quantity? = some y) (h : x ≤ y) : a.le b = true := by
  have hdouble := toDouble_le_of_le ha hb h
  cases a with
  | integer i =>
    cases b with
    | integer j =>
      cases ha
      cases hb
      exact integer_le_iff.2 (Quantity.rational_le_iff.1 h)
    | float g => exact hdouble
  | float f => cases b <;> exact hdouble

/-- **Numbers of one kind, and numbers that are doubles, compare as their quantities.** -/
theorem le_iff_of_exact (ha : a.quantity? = some x) (hb : b.quantity? = some y)
    (h : a.isInteger = b.isInteger ∨ a.Exact ∧ b.Exact) : a.le b = true ↔ x ≤ y := by
  have hdouble : a.Exact → b.Exact → (a.toDouble.le b.toDouble = true ↔ x ≤ y) := fun hae hbe =>
    Double.le_iff_quantity ((quantity_toDouble_iff.2 hae).trans ha) ((quantity_toDouble_iff.2 hbe).trans hb)
  cases a with
  | integer i =>
    cases b with
    | integer j =>
      cases ha
      cases hb
      rw [integer_le_iff, Quantity.rational_le_iff]
    | float g =>
      obtain hkind | ⟨hae, hbe⟩ := h
      · cases hkind
      · exact hdouble hae hbe
  | float f =>
    cases b with
    | integer j =>
      obtain hkind | ⟨hae, hbe⟩ := h
      · cases hkind
      · exact hdouble hae hbe
    | float g => exact hdouble trivial trivial

theorem lt_eq_not_le (ha : a.quantity? = some x) (hb : b.quantity? = some y) : a.lt b = !b.le a := by
  obtain ⟨p, hp⟩ := exists_quantity_toDouble ha
  obtain ⟨q, hq⟩ := exists_quantity_toDouble hb
  have hdouble := Double.lt_eq_not_le hp hq
  cases a with
  | integer i =>
    cases b with
    | integer j => simp only [lt, le, ← decide_not, Int64.not_le]
    | float g => exact hdouble
  | float f => cases b <;> exact hdouble

theorem eqv_eq_le_and_le (ha : a.quantity? = some x) (hb : b.quantity? = some y) :
    a.eqv b = (a.le b && b.le a) := by
  obtain ⟨p, hp⟩ := exists_quantity_toDouble ha
  obtain ⟨q, hq⟩ := exists_quantity_toDouble hb
  have hdouble := Double.eqv_eq_le_and_le hp hq
  cases a with
  | integer i =>
    cases b with
    | integer j =>
      simp only [eqv, le, ← Bool.decide_and, ← Int64.le_antisymm_iff]
      rfl
    | float g => exact hdouble
  | float f => cases b <;> exact hdouble

theorem lt_of_lt_true (ha : a.quantity? = some x) (hb : b.quantity? = some y) (h : a.lt b = true) : x < y := by
  rw [lt_eq_not_le ha hb, Bool.not_eq_true'] at h
  refine lt_of_not_ge fun hyx => ?_
  rw [le_of_quantity_le hb ha hyx] at h
  cases h

theorem lt_eq_toDouble (h : a.isInteger = false ∨ b.isInteger = false) : a.lt b = a.toDouble.lt b.toDouble := by
  cases a with
  | float f => cases b <;> rfl
  | integer i =>
    cases b with
    | float g => rfl
    | integer j => simp [isInteger] at h

/-- **The strict order of numbers is transitive.**  Unless the first and the last number are integers, one of the two
steps is taken between doubles, and rounding does not turn the other one around. -/
theorem lt_of_lt_of_lt (ha : a.quantity? = some x) (hb : b.quantity? = some y) (hc : c.quantity? = some z)
    (hab : a.lt b = true) (hbc : b.lt c = true) : a.lt c = true := by
  have hxy := lt_of_lt_true ha hb hab
  have hyz := lt_of_lt_true hb hc hbc
  by_cases hkind : a.isInteger = true ∧ c.isInteger = true
  · have hsame : c.isInteger = a.isInteger := hkind.2.trans hkind.1.symm
    rw [lt_eq_not_le ha hc, Bool.not_eq_true', ← Bool.not_eq_true, le_iff_of_exact hc ha (.inl hsame)]
    exact not_le_of_gt (hxy.trans hyz)
  have hfloat : a.isInteger = false ∨ c.isInteger = false := by
    rwa [not_and_or, Bool.not_eq_true, Bool.not_eq_true] at hkind
  obtain ⟨p, hp⟩ := exists_quantity_toDouble ha
  obtain ⟨q, hq⟩ := exists_quantity_toDouble hb
  obtain ⟨r, hr⟩ := exists_quantity_toDouble hc
  have hpq : p ≤ q := (Double.le_iff_quantity hp hq).1 (toDouble_le_of_le ha hb hxy.le)
  have hqr : q ≤ r := (Double.le_iff_quantity hq hr).1 (toDouble_le_of_le hb hc hyz.le)
  -- the doubles follow one another, and one of the steps is strict
  have hstep : p < q ∨ q < r := by
    rw [← Double.lt_iff_quantity hp hq, ← Double.lt_iff_quantity hq hr]
    obtain hf | hf := hfloat
    · exact .inl (lt_eq_toDouble (.inl hf) ▸ hab)
    · exact .inr (lt_eq_toDouble (.inr hf) ▸ hbc)
  rw [lt_eq_toDouble hfloat, Double.lt_iff_quantity hp hr]
  obtain hlt | hlt := hstep
  · exact lt_of_lt_of_le hlt hqr
  · exact lt_of_le_of_lt hpq hlt

theorem exists_quantity (h : a ≠ .float .nan) : ∃ x, a.quantity? = some x := by
  cases a with
  | integer i => exact ⟨_, rfl⟩
  | float f =>
    cases f with
    | nan => exact absurd rfl h
    | infinite n => exact ⟨_, rfl⟩
    | finite n r => exact ⟨_, rfl⟩

theorem ne_nan_of_lt (h : a.lt b = true) : a ≠ .float .nan ∧ b ≠ .float .nan := by
  have hright : ∀ x : Double, x.lt .nan = false := by
    intro x
    cases x <;> rfl
  constructor
  · rintro rfl
    cases b <;> cases h
  · rintro rfl
    have hlt : a.toDouble.lt .nan = true := by cases a <;> exact h
    rw [hright] at hlt
    cases hlt

theorem lt_trans (hab : a.lt b = true) (hbc : b.lt c = true) : a.lt c = true := by
  obtain ⟨x, hx⟩ := exists_quantity (ne_nan_of_lt hab).1
  obtain ⟨y, hy⟩ := exists_quantity (ne_nan_of_lt hab).2
  obtain ⟨z, hz⟩ := exists_quantity (ne_nan_of_lt hbc).2
  exact lt_of_lt_of_lt hx hy hz hab hbc

section Quantities

variable (ha : a.quantity? = some x) (hb : b.quantity? = some y)
include ha hb

theorem le_or_le : a.le b = true ∨ b.le a = true := by
  rcases le_total x y with h | h
  · exact .inl (le_of_quantity_le ha hb h)
  · exact .inr (le_of_quantity_le hb ha h)

theorem le_eq_lt_or_eqv : a.le b = (a.lt b || a.eqv b) := by
  have htotal := le_or_le ha hb
  rw [lt_eq_not_le ha hb, eqv_eq_le_and_le ha hb]
  cases hle : a.le b <;> cases hge : b.le a <;> simp_all

theorem compare_cases : (a.lt b = true ∧ a.eqv b = false ∧ b.lt a = false) ∨
    (a.lt b = false ∧ a.eqv b = true ∧ b.lt a = false) ∨ (a.lt b = false ∧ a.eqv b = false ∧ b.lt a = true) := by
  have htotal := le_or_le ha hb
  rw [lt_eq_not_le ha hb, lt_eq_not_le hb ha, eqv_eq_le_and_le ha hb]
  cases hle : a.le b <;> cases hge : b.le a <;> simp_all

end Quantities

/-- **Numbers that no double can stand for are equal to one that is another quantity.** -/
theorem exists_eqv_of_not_exact (h : ¬ a.Exact) :
    ∃ f q, Double.quantity? f = some q ∧ a.quantity? ≠ some q ∧ a.eqv (.float f) = true := by
  cases a with
  | float f => exact absurd trivial h
  | integer i =>
    obtain ⟨q, hq⟩ := Double.exists_quantity_ofInt i
    exact ⟨.ofInt i.toInt, q, hq, fun heq => h (quantity_toDouble_iff.1 (hq.trans heq.symm)),
      Double.eqv_self (Double.ne_nan_of_quantity hq)⟩

/-- **How the comparison of numbers follows their quantities.**  It never contradicts them, and it is exact between
numbers of one kind and between numbers that are doubles; every integer that is none is equal to a float with another
quantity. -/
theorem comparison_of_quantities (ha : a.quantity? = some x) (hb : b.quantity? = some y)
    (hc : c.quantity? = some z) :
    (x ≤ y → a.le b = true) ∧ (x = y → a.eqv b = true) ∧ (a.lt b = true → x < y) ∧
    (a.lt b = true → b.lt c = true → a.lt c = true) ∧
    (a.isInteger = b.isInteger ∨ a.Exact ∧ b.Exact →
      (a.le b = true ↔ x ≤ y) ∧ (a.eqv b = true ↔ x = y) ∧ (a.lt b = true ↔ x < y)) ∧
    (¬ a.Exact → ∃ f q, Double.quantity? f = some q ∧ x ≠ q ∧ a.eqv (.float f) = true) := by
  refine ⟨le_of_quantity_le ha hb, ?_, lt_of_lt_true ha hb, lt_of_lt_of_lt ha hb hc, ?_, ?_⟩
  · rintro rfl
    rw [eqv_eq_le_and_le ha hb, le_of_quantity_le ha hb (le_refl x), le_of_quantity_le hb ha (le_refl x)]
    rfl
  · intro hexact
    have hle := le_iff_of_exact ha hb hexact
    have hge := le_iff_of_exact hb ha (hexact.imp Eq.symm And.symm)
    refine ⟨hle, ?_, ?_⟩
    · rw [eqv_eq_le_and_le ha hb, Bool.and_eq_true, hle, hge, le_antisymm_iff]
    · rw [lt_eq_not_le ha hb, Bool.not_eq_true', ← Bool.not_eq_true, hge, not_le]
  · intro hne
    obtain ⟨f, q, hq, hother, heqv⟩ := exists_eqv_of_not_exact hne
    exact ⟨f, q, hq, fun hxq => hother (ha.trans (congrArg some hxq)), heqv⟩

/-- Two integers that no double tells apart, and an infinity above them. -/
theorem comparison_of_quantities_large :
    (Number.integer 9007199254740993).quantity? = some (.rational 9007199254740993) ∧
    (Number.integer 9007199254740994).quantity? = some (.rational 9007199254740994) ∧
    (Number.float (.infinite false)).quantity? = some ⊤ ∧
    (Number.integer 9007199254740993).eqv (.integer 9007199254740994) = false ∧
    (Number.integer 9007199254740993).lt (.float (.infinite false)) = true := by
  have ha : (Number.integer 9007199254740993).quantity? = some (.rational 9007199254740993) := rfl
  have hb : (Number.integer 9007199254740994).quantity? = some (.rational 9007199254740994) := rfl
  have hc : (Number.float (.infinite false)).quantity? = some ⊤ := rfl
  obtain ⟨-, -, -, htrans, hkind, -⟩ := comparison_of_quantities ha hb hc
  refine ⟨ha, hb, hc, ?_, htrans (by decide) (by decide +kernel)⟩
  rw [← Bool.not_eq_true, (hkind (.inl rfl)).2.1, Quantity.rational_inj]
  decide

/-- An integer and a float can be equal that are different quantities, and so neither equality nor the weak order is
transitive. -/
theorem eqv_of_different_quantities :
    let float := Number.float (.ofInt 9007199254740992)
    float.quantity? = some (.rational 9007199254740992) ∧
    (Number.integer 9007199254740993).quantity? = some (.rational 9007199254740993) ∧
    (Number.integer 9007199254740993).eqv float = true ∧ float.eqv (.integer 9007199254740992) = true ∧
    (Number.integer 9007199254740993).eqv (.integer 9007199254740992) = false ∧
    (Number.integer 9007199254740993).lt float = false ∧
    (Number.integer 9007199254740993).le float = true ∧ float.le (.integer 9007199254740992) = true ∧
    (Number.integer 9007199254740993).le (.integer 9007199254740992) = false := by
  intro float
  have hfloat : float.quantity? = some (.rational 9007199254740992) :=
    Double.quantity_ofInt_iff (i := 9007199254740992) |>.2 ⟨1, 53, by decide, by decide⟩
  have hinteger : (Number.integer 9007199254740993).quantity? = some (.rational 9007199254740993) := rfl
  exact ⟨hfloat, hinteger, by decide +kernel, by decide +kernel, by decide, by decide +kernel, by decide +kernel,
    by decide +kernel, by decide⟩

end DocQuery.Number
