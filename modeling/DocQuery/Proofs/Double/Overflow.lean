import DocQuery.Double.Decimal
import DocQuery.Proofs.Double.Rounding
import Mathlib.Algebra.Order.Field.Rat
import Mathlib.Algebra.Order.Field.Power
import Mathlib.Tactic.Ring
/-!
# Rounding to infinity

A magnitude is rounded to infinity from halfway between the greatest double and the next power of two on
(`ofRatio_isFinite_iff`), and so is a decimal (`ofDecimal_isFinite_iff`).  Below that rounding is finite, and no quotient
by one or more leaves the finite doubles (`isFinite_div_ofNat`).
-/
namespace DocQuery

/-- The least magnitude that is rounded to infinity: halfway from the greatest double to `2^1024`. -/
def Double.overflow : Nat := (2 ^ 54 - 1) * 2 ^ 970

/-- The magnitude of a decimal. -/
def Decimal.quantity (d : Decimal) : ℚ := d.digits * 10 ^ d.exponent

theorem Decimal.quantity_eq (d : Decimal) :
    d.quantity = ((d.digits * 10 ^ d.exponent.toNat : Nat) : ℚ) / ((10 ^ (-d.exponent).toNat : Nat) : ℚ) := by
  rw [Decimal.quantity]
  push_cast
  rcases Int.le_total 0 d.exponent with h | h
  · rw [Int.toNat_of_nonpos (by omega : -d.exponent ≤ 0), pow_zero, div_one, ← zpow_natCast, Int.toNat_of_nonneg h]
  · rw [Int.toNat_of_nonpos h, pow_zero, mul_one, div_eq_mul_inv, ← zpow_natCast, Int.toNat_of_nonneg (by omega),
      zpow_neg, inv_inv]

namespace Double

variable {num den q r : Nat} {n : Bool} {x y : Double}

theorem lt_roundDiv_iff (hd : 0 < den) (hq : q % 2 = 1) : q < roundDiv num den ↔ (2 * q + 1) * den ≤ 2 * num := by
  have hdm := Nat.div_add_mod num den
  have hmod := Nat.mod_lt num hd
  unfold roundDiv
  dsimp only
  generalize num / den = p at *
  generalize num % den = m at *
  rcases Nat.lt_trichotomy p q with hlt | rfl | hgt
  · have hle : den * (p + 1) ≤ den * q := Nat.mul_le_mul_left den hlt
    refine iff_of_false (by split <;> omega) ?_
    rw [Nat.mul_add] at hle
    rw [Nat.add_mul, Nat.mul_assoc, Nat.mul_comm q]
    omega
  · rw [Nat.add_mul, Nat.mul_assoc, Nat.mul_comm p]
    split <;> omega
  · have hle : den * (q + 1) ≤ den * p := Nat.mul_le_mul_left den hgt
    refine iff_of_true (by split <;> omega) ?_
    rw [Nat.mul_add] at hle
    rw [Nat.add_mul, Nat.mul_assoc, Nat.mul_comm q]
    omega

/-- **A magnitude has a finite rank below the overflow.** -/
theorem rankOfUnits_lt_ranks_iff (hd : 0 < den) :
    rankOfUnits num den < ranks ↔ num < overflow * 2 ^ unitExponent * den := by
  obtain ⟨s, hs⟩ : ∃ s, s = (num / den).log2 - 52 := ⟨_, rfl⟩
  have hscale := roundDiv_scale hd hs
  obtain ⟨hlt, hle⟩ := div_scale hs
  have hpos : 0 < den * 2 ^ s := Nat.mul_pos hd (Nat.two_pow_pos s)
  rw [rankOfUnits_eq hs]
  have hranks : ranks = 2047 * 2 ^ 52 := rfl
  rw [Nat.div_lt_iff_lt_mul hd] at hlt
  rw [Nat.le_div_iff_mul_le hd] at hle
  have hoverflow : overflow * 2 ^ unitExponent = (2 ^ 54 - 1) * 2 ^ (970 + unitExponent) := by
    rw [overflow, Nat.mul_assoc, Nat.pow_add]
  have hexponent : 970 + unitExponent = 2044 := rfl
  rw [hoverflow]
  clear hoverflow
  generalize 970 + unitExponent = e at *
  rcases Nat.lt_trichotomy s (e + 1) with hsmall | rfl | hlarge
  · have hbound : 2 ^ (s + 53) ≤ (2 ^ 54 - 1) * 2 ^ e := by
      rw [Nat.pow_add, Nat.mul_comm]
      exact Nat.mul_le_mul (by decide) (Nat.pow_le_pow_right (by decide) (by omega))
    exact iff_of_true (by omega) (Nat.lt_of_lt_of_le hlt (Nat.mul_le_mul_right den hbound))
  · -- at the greatest scale the significand decides
    have hround := @lt_roundDiv_iff num (den * 2 ^ (e + 1)) (2 ^ 53 - 1) hpos (by decide)
    have htwice : (2 * (2 ^ 53 - 1) + 1) * (den * 2 ^ (e + 1)) = 2 * ((2 ^ 54 - 1) * 2 ^ e * den) := by
      rw [Nat.pow_succ 2 e]
      ring
    rw [htwice] at hround
    generalize roundDiv num (den * 2 ^ (e + 1)) = m at hround ⊢
    generalize (2 ^ 54 - 1) * 2 ^ e * den = bound at hround ⊢
    clear hlt hle htwice hpos
    constructor
    · intro h
      have hm := mt hround.2 (by omega)
      omega
    · intro h
      have hm := mt hround.1 (by omega)
      omega
  · have hbound : (2 ^ 54 - 1) * 2 ^ e ≤ 2 ^ (s + 52) := by
      obtain ⟨k, rfl⟩ := Nat.exists_eq_add_of_le hlarge
      have hsum : e + 1 + 1 + k + 52 = e + (54 + k) := by omega
      rw [hsum, Nat.pow_add, Nat.mul_comm]
      exact Nat.mul_le_mul_left _ (Nat.le_trans (by decide) (Nat.pow_le_pow_right (by decide) (Nat.le_add_right 54 k)))
    have hnum := Nat.le_trans (Nat.mul_le_mul_right den hbound) (hle.resolve_right (by omega))
    exact iff_of_false (by omega) (by omega)

theorem natPow_eq (k : Nat) : Nat.pow 2 k = 2 ^ k :=
  rfl

theorem ofRatio_isFinite_iff (hd : 0 < den) : (ofRatio n num den).isFinite = true ↔ num < overflow * den := by
  have hunits : num < overflow * den ↔ num * 2 ^ unitExponent < overflow * 2 ^ unitExponent * den := by
    rw [Nat.mul_right_comm]
    exact (Nat.mul_lt_mul_right (Nat.two_pow_pos _)).symm
  rw [hunits, ← rankOfUnits_lt_ranks_iff hd, ofRatio, ofRank, natPow_eq]
  split
  · rename_i h
    exact iff_of_true (by rw [isFinite]) h
  · rename_i h
    exact iff_of_false (by simp [isFinite]) h

/-! ## Decimals -/

theorem overflow_le_ten_pow {k : Nat} (hk : 310 ≤ k) : overflow ≤ 10 ^ k := by
  refine Nat.le_trans ?_ (Nat.pow_le_pow_right (Nat.succ_pos 9) hk)
  decide +kernel

/-- **A decimal is rounded to a finite double below the overflow**, and to infinity from there on. -/
theorem ofDecimal_isFinite_iff {d : Decimal} : (ofDecimal n d).isFinite = true ↔ d.quantity < overflow := by
  have hden : 0 < 10 ^ (-d.exponent).toNat := Nat.pow_pos (by decide)
  have hratio : d.quantity < overflow ↔ d.digits * 10 ^ d.exponent.toNat < overflow * 10 ^ (-d.exponent).toNat := by
    rw [Decimal.quantity_eq, div_lt_iff₀ (Nat.cast_pos.2 hden), ← Nat.cast_mul, Nat.cast_lt]
  rw [hratio]
  unfold ofDecimal
  simp only [Nat.pow_eq]
  have hoverflow : 0 < overflow := by decide +kernel
  split
  · rename_i h0
    rw [h0, Nat.zero_mul]
    exact iff_of_true rfl (Nat.mul_pos hoverflow hden)
  rename_i h0
  split
  · rename_i hlarge
    have hone : (-d.exponent).toNat = 0 := by omega
    rw [hone, Nat.pow_zero, Nat.mul_one]
    refine iff_of_false nofun (Nat.not_lt.2 ?_)
    calc overflow ≤ 10 ^ d.exponent.toNat := overflow_le_ten_pow (by omega)
      _ ≤ d.digits * 10 ^ d.exponent.toNat := Nat.le_mul_of_pos_left _ (Nat.pos_of_ne_zero h0)
  split
  · rename_i hsmall
    have hzero : d.exponent.toNat = 0 := by omega
    rw [hzero, Nat.pow_zero, Nat.mul_one]
    refine iff_of_true rfl ?_
    calc d.digits < 2 ^ (d.digits.log2 + 1) := Nat.lt_log2_self
      _ ≤ 10 ^ (d.digits.log2 + 1) := Nat.pow_le_pow_left (by decide) _
      _ ≤ 10 ^ (-d.exponent).toNat := Nat.pow_le_pow_right (by decide) (by omega)
      _ ≤ overflow * 10 ^ (-d.exponent).toNat := Nat.le_mul_of_pos_left _ hoverflow
  · exact ofRatio_isFinite_iff hden

/-! ## Quotients -/

theorem units_lt_overflow (r : Fin ranks) : units r < overflow * 2 ^ unitExponent := by
  have h := (@rankOfUnits_lt_ranks_iff (units r) 1 Nat.one_pos).1
  rw [rankOfUnits_units, Nat.mul_one] at h
  exact h r.isLt

theorem le_units_rankOfUnits {m : Nat} (hm : 0 < m) :
    2 ^ unitExponent ≤ units (rankOfUnits (m * 2 ^ unitExponent) 1) := by
  have hone : units (rankOfUnits (2 ^ unitExponent) 1) = 2 ^ unitExponent :=
    units_rankOfUnits_eq_iff.2 ⟨1, unitExponent, by decide, (Nat.one_mul _).symm⟩
  calc 2 ^ unitExponent = units (rankOfUnits (2 ^ unitExponent) 1) := hone.symm
    _ ≤ units (rankOfUnits (m * 2 ^ unitExponent) 1) :=
      units_mono (rankOfUnits_mono Nat.one_pos (Nat.le_mul_of_pos_left _ hm))

theorem ofNat_cases {m : Nat} (hm : 0 < m) :
    (∃ s, ofNat m = .finite false s ∧ 2 ^ unitExponent ≤ units s) ∨ ofNat m = .infinite false := by
  have hle := le_units_rankOfUnits hm
  rw [ofNat, ofRatio, ofRank, natPow_eq]
  split
  · exact .inl ⟨_, rfl, hle⟩
  · exact .inr rfl

theorem isFinite_div_ofNat (hx : x.isFinite = true) {m : Nat} (hm : 0 < m) : (x.div (ofNat m)).isFinite = true := by
  cases x with
  | nan => cases hx
  | infinite n => cases hx
  | finite n r =>
    rcases ofNat_cases hm with ⟨s, hs, hle⟩ | hs
    · have hpos : 0 < units s := Nat.lt_of_lt_of_le (Nat.two_pow_pos _) hle
      have hne : s.val ≠ 0 := by
        intro h0
        rw [h0] at hpos
        exact absurd hpos (by decide)
      rw [hs, div, if_neg hne, ofRatio_isFinite_iff hpos]
      exact Nat.lt_of_lt_of_le (units_lt_overflow r) (Nat.mul_le_mul_left _ hle)
    · rw [hs]
      rfl

end Double
end DocQuery
