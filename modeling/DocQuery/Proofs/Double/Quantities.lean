import DocQuery.Proofs.Double.Rounding
import DocQuery.Proofs.Scalar.Comparison
import Mathlib.Algebra.Order.Field.Rat
import Mathlib.Algebra.Order.Ring.Cast
import Mathlib.Data.Int.Cast.Lemmas
import Mathlib.Order.WithBot
/-!
# What doubles stand for

Every double but the not-a-number stands for a quantity, and doubles are ordered as their quantities are
(`le_iff_quantity`).  The double nearest to an integer is finite, and it stands for the integer exactly if fifty-three
bits are enough for it (`quantity_ofInt_iff`).
-/
namespace DocQuery

/-- A quantity: a rational number, or one of the two infinities. -/
abbrev Quantity := WithBot (WithTop ℚ)

namespace Quantity

def rational (q : ℚ) : Quantity := ((q : WithTop ℚ) : WithBot (WithTop ℚ))

@[simp] theorem rational_le_iff {p q : ℚ} : rational p ≤ rational q ↔ p ≤ q := by
  rw [rational, rational, WithBot.coe_le_coe, WithTop.coe_le_coe]

@[simp] theorem rational_inj {p q : ℚ} : rational p = rational q ↔ p = q := by
  rw [rational, rational, WithBot.coe_inj, WithTop.coe_inj]

@[simp] theorem rational_ne_top (q : ℚ) : rational q ≠ ⊤ := by
  simp [rational]

@[simp] theorem rational_ne_bot (q : ℚ) : rational q ≠ ⊥ := by
  simp [rational]

end Quantity

namespace Double

/-- The quantity of a double.  A not-a-number has none, and the two zeros have the same. -/
def quantity? : Double → Option Quantity
  | .nan => none
  | .infinite negative => some (if negative then ⊥ else ⊤)
  | .finite negative r => some (.rational ((signed negative (units r) : ℚ) / 2 ^ unitExponent))

variable {m n : Bool}

theorem signed_units_le_iff {r s : Nat} : signed m (units r) ≤ signed n (units s) ↔ signed m r ≤ signed n s := by
  constructor
  · intro h
    have hround := @signed_le_signed m n _ _ (rankOfUnits · 1) (rankOfUnits_mono Nat.one_pos) (rankOfUnits_units 0) h
    simpa only [rankOfUnits_units] using hround
  · exact signed_le_signed units_mono rfl

/-! ## Doubles -/

theorem signed_lt_ranks (n : Bool) (r : Fin ranks) : signed n r < ranks := by
  have hr := r.isLt
  unfold signed
  split <;> omega

theorem neg_ranks_lt_signed (n : Bool) (r : Fin ranks) : -(ranks : Int) < signed n r := by
  have hr := r.isLt
  unfold signed
  split <;> omega

variable {a b : Double} {x y : Quantity}

theorem ne_nan_of_quantity (h : a.quantity? = some x) : a ≠ .nan := by
  rintro rfl
  cases h

/-- **Doubles are ordered as their quantities.** -/
theorem le_iff_quantity (ha : a.quantity? = some x) (hb : b.quantity? = some y) : a.le b = true ↔ x ≤ y := by
  have hunit : (0 : ℚ) < 2 ^ unitExponent := pow_pos zero_lt_two _
  cases a with
  | nan => cases ha
  | infinite m =>
    cases ha
    cases b with
    | nan => cases hb
    | infinite n =>
      cases hb
      have hpos : ¬ (ranks : Int) ≤ -ranks := by decide
      have hneg : -(ranks : Int) ≤ ranks := by decide
      cases m <;> cases n <;> simp [le, place?, signed, hpos, hneg]
    | finite n s =>
      cases hb
      have hlt := signed_lt_ranks n s
      have hgt := neg_ranks_lt_signed n s
      cases m with
      | false =>
        have hle : ¬ (ranks : Int) ≤ signed n s := by omega
        simpa [le, place?, signed] using hle
      | true =>
        have hle : -(ranks : Int) ≤ signed n s := by omega
        simpa [le, place?, signed] using hle
  | finite m r =>
    cases ha
    cases b with
    | nan => cases hb
    | infinite n =>
      cases hb
      have hlt := signed_lt_ranks m r
      have hgt := neg_ranks_lt_signed m r
      cases n with
      | false =>
        have hle : signed m r ≤ (ranks : Int) := by omega
        simpa [le, place?, signed] using hle
      | true =>
        have hle : ¬ signed m r ≤ -(ranks : Int) := by omega
        simpa [le, place?, signed] using hle
    | finite n s =>
      cases hb
      have horder := @signed_units_le_iff m n r s
      simp only [le, place?, decide_eq_true_eq, Quantity.rational_le_iff, div_le_div_iff_of_pos_right hunit,
        Int.cast_le, horder]

theorem lt_eq_not_le (ha : a.quantity? = some x) (hb : b.quantity? = some y) : a.lt b = !b.le a := by
  obtain ⟨p, hp⟩ := exists_place (ne_nan_of_quantity ha)
  obtain ⟨q, hq⟩ := exists_place (ne_nan_of_quantity hb)
  simp only [lt, le, hp, hq, ← decide_not, Int.not_le]

theorem lt_iff_quantity (ha : a.quantity? = some x) (hb : b.quantity? = some y) : a.lt b = true ↔ x < y := by
  rw [lt_eq_not_le ha hb, Bool.not_eq_true', ← Bool.not_eq_true, le_iff_quantity hb ha, not_le]

theorem eqv_eq_le_and_le (ha : a.quantity? = some x) (hb : b.quantity? = some y) :
    a.eqv b = (a.le b && b.le a) := by
  obtain ⟨p, hp⟩ := exists_place (ne_nan_of_quantity ha)
  obtain ⟨q, hq⟩ := exists_place (ne_nan_of_quantity hb)
  simp only [eqv, le, hp, hq, ← Bool.decide_and, ← Int.le_antisymm_iff]
  rfl

/-! ## Integers as doubles -/

theorem natAbs_toInt_le (i : Int64) : i.toInt.natAbs ≤ 2 ^ 63 := by
  have hle := Int64.le_toInt i
  have hlt := Int64.toInt_lt i
  omega

theorem rankOfUnits_natAbs_lt (i : Int64) : rankOfUnits (i.toInt.natAbs * Nat.pow 2 unitExponent) 1 < ranks := by
  have hgreatest : units ((unitExponent + 11) * 2 ^ 52 + 2 ^ 52) = 2 ^ 63 * Nat.pow 2 unitExponent := by
    rw [units_eq (by decide) (.inl (Nat.le_refl _)), Nat.pow_add, Nat.pow_eq]
    omega
  have hle := rankOfUnits_mono Nat.one_pos (Nat.mul_le_mul_right (Nat.pow 2 unitExponent) (natAbs_toInt_le i))
  rw [← hgreatest, rankOfUnits_units] at hle
  exact Nat.lt_of_le_of_lt hle (by decide)

theorem ofInt_eq (i : Int64) :
    Double.ofInt i.toInt = .finite (i.toInt < 0) ⟨_, rankOfUnits_natAbs_lt i⟩ := by
  rw [ofInt, ofRatio, ofRank, dif_pos (rankOfUnits_natAbs_lt i)]

theorem signed_units_eq (i : Int) :
    ((signed (i < 0) (i.natAbs * Nat.pow 2 unitExponent) : Int) : ℚ) / 2 ^ unitExponent = i := by
  have hunit : (2 : ℚ) ^ unitExponent ≠ 0 := pow_ne_zero _ two_ne_zero
  rw [signed_mul, signed_natAbs, Nat.pow_eq]
  push_cast
  exact mul_div_cancel_right₀ _ hunit

theorem exists_quantity_ofInt (i : Int64) : ∃ q, (ofInt i.toInt).quantity? = some q :=
  ⟨_, by rw [ofInt_eq]; rfl⟩

theorem exists_mul_two_pow_iff {n t : Nat} :
    (∃ m k, m < 2 ^ 53 ∧ n * 2 ^ t = m * 2 ^ k) ↔ ∃ m k, m < 2 ^ 53 ∧ n = m * 2 ^ k := by
  constructor
  · rintro ⟨m, k, hm, h⟩
    by_cases htk : t ≤ k
    · refine ⟨m, k - t, hm, Nat.eq_of_mul_eq_mul_right (Nat.two_pow_pos t) ?_⟩
      rw [h, Nat.mul_assoc, ← Nat.pow_add, Nat.sub_add_cancel htk]
    · have hle : 2 ^ k ≤ 2 ^ t := Nat.pow_le_pow_right (by decide) (by omega)
      have hnm : n * 2 ^ k ≤ m * 2 ^ k := h ▸ Nat.mul_le_mul_left n hle
      exact ⟨n, 0, Nat.lt_of_le_of_lt (Nat.le_of_mul_le_mul_right hnm (Nat.two_pow_pos k)) hm, by omega⟩
  · rintro ⟨m, k, hm, rfl⟩
    exact ⟨m, k + t, hm, by rw [Nat.mul_assoc, ← Nat.pow_add]⟩

/-- **An integer is a double exactly if fifty-three bits are enough for it.** -/
theorem quantity_ofInt_iff {i : Int64} : (ofInt i.toInt).quantity? = some (.rational i.toInt) ↔
    ∃ m k, m < 2 ^ 53 ∧ i.toInt.natAbs = m * 2 ^ k := by
  have hunit : (2 : ℚ) ^ unitExponent ≠ 0 := pow_ne_zero _ two_ne_zero
  rw [← exists_mul_two_pow_iff (t := unitExponent), ← units_rankOfUnits_eq_iff, ofInt_eq, quantity?,
    ← signed_units_eq i.toInt]
  simp only [Option.some.injEq, Quantity.rational_inj, div_left_inj' hunit, Int.cast_inj, signed_inj, Nat.pow_eq]

end Double
end DocQuery
