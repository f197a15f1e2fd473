import DocQuery.Double.Rounding
import Mathlib.Algebra.Order.Ring.Nat
/-!
# Ranks and rounding

A rank is a significand at a scale (`rank_eq`), and so is a magnitude (`units_eq`): magnitudes grow with their ranks.
Rounding to a rank keeps the order (`rankOfUnits_mono`), and it leaves alone what needs no more than fifty-three bits and
nothing else (`units_rankOfUnits_eq_iff`).
-/
namespace DocQuery.Double

/-! ## Signs -/

variable {m n : Bool} {u v : Nat}

theorem signed_le_signed {g : Nat → Nat} (hg : ∀ {u v}, u ≤ v → g u ≤ g v) (h0 : g 0 = 0)
    (h : signed m u ≤ signed n v) : signed m (g u) ≤ signed n (g v) := by
  unfold signed at h ⊢
  cases m with
  | false =>
    cases n with
    | false =>
      have := @hg u v (by simpa using h)
      simpa using this
    | true =>
      have hu : u = 0 := by simp at h; omega
      have hv : v = 0 := by simp at h; omega
      simp [hu, hv, h0]
  | true =>
    cases n with
    | false => simp
    | true =>
      have := @hg v u (by simpa using h)
      simpa using this

theorem signed_inj : signed m u = signed m v ↔ u = v := by
  unfold signed
  split <;> omega

theorem signed_mul (n : Bool) (u t : Nat) : signed n (u * t) = signed n u * t := by
  cases n with
  | false => exact Int.natCast_mul u t
  | true =>
    show -((u * t : Nat) : Int) = -(u : Int) * t
    rw [Int.natCast_mul, Int.neg_mul]

theorem natAbs_signed (n : Bool) (u : Nat) : (signed n u).natAbs = u := by
  cases n with
  | false => rfl
  | true => exact Int.natAbs_neg u

theorem signed_natAbs (i : Int) : signed (i < 0) i.natAbs = i := by
  unfold signed
  by_cases hi : i < 0
  · rw [if_pos (decide_eq_true hi)]
    omega
  · rw [if_neg (by simpa using hi)]
    omega

/-! ## Magnitudes -/

theorem rank_eq (r : Nat) : r = scale r * 2 ^ 52 + significand r := by
  unfold scale significand
  simp only [Nat.pow_eq]
  by_cases h : r < 2 ^ 52
  · rw [if_pos h]
    omega
  · rw [if_neg h]
    omega

theorem significand_lt (r : Nat) : significand r < 2 ^ 53 := by
  unfold significand
  simp only [Nat.pow_eq]
  split <;> omega

theorem le_significand (r : Nat) : 2 ^ 52 ≤ significand r ∨ scale r = 0 := by
  unfold significand scale
  simp only [Nat.pow_eq]
  split <;> omega

/-- **The magnitude of a significand at a scale.**  The significand may also be the first that is too large: the ranks
run on into the next scale. -/
theorem units_eq {k m : Nat} (hm : m ≤ 2 ^ 53) (hk : 2 ^ 52 ≤ m ∨ k = 0) :
    units (k * 2 ^ 52 + m) = m * 2 ^ k := by
  unfold units significand scale
  simp only [Nat.pow_eq]
  by_cases hsmall : m < 2 ^ 52
  · have h0 : k = 0 := by omega
    have hdiv : (k * 2 ^ 52 + m) / 2 ^ 52 - 1 = 0 := by omega
    rw [if_pos (by omega), hdiv, h0]
    omega
  rw [if_neg (by omega)]
  by_cases hlast : m = 2 ^ 53
  · have hmod : (k * 2 ^ 52 + m) % 2 ^ 52 = 0 := by omega
    have hdiv : (k * 2 ^ 52 + m) / 2 ^ 52 - 1 = k + 1 := by omega
    rw [hmod, hdiv, hlast, Nat.pow_succ]
    omega
  · have hmod : 2 ^ 52 + (k * 2 ^ 52 + m) % 2 ^ 52 = m := by omega
    have hdiv : (k * 2 ^ 52 + m) / 2 ^ 52 - 1 = k := by omega
    rw [hmod, hdiv]

theorem units_lt_units_succ (r : Nat) : units r < units (r + 1) := by
  have hlt := significand_lt r
  have hnext : units (r + 1) = (significand r + 1) * 2 ^ scale r := by
    have hr : r + 1 = scale r * 2 ^ 52 + (significand r + 1) := by
      have := rank_eq r
      omega
    rw [hr]
    exact units_eq (by omega) (by have := le_significand r; omega)
  rw [hnext, units, Nat.pow_eq]
  exact Nat.mul_lt_mul_of_pos_right (Nat.lt_succ_self _) (Nat.two_pow_pos _)

theorem units_mono {r s : Nat} (h : r ≤ s) : units r ≤ units s := by
  induction h with
  | refl => exact Nat.le_refl _
  | step _ ih => exact Nat.le_trans ih (Nat.le_of_lt (units_lt_units_succ _))

theorem units_lt_units {r s : Nat} (h : r < s) : units r < units s :=
  Nat.lt_of_lt_of_le (units_lt_units_succ r) (units_mono h)

theorem units_injective {r s : Nat} (h : units r = units s) : r = s := by
  refine Nat.le_antisymm (Nat.le_of_not_lt fun hsr => ?_) (Nat.le_of_not_lt fun hrs => ?_)
  · have := units_lt_units hsr
    omega
  · have := units_lt_units hrs
    omega

/-! ## Quotients -/

variable {num num' den q : Nat}

theorem roundDiv_le (hd : 0 < den) (h : num ≤ q * den) : roundDiv num den ≤ q := by
  have hq : num / den ≤ q := Nat.div_le_of_le_mul (by rwa [Nat.mul_comm])
  unfold roundDiv
  dsimp only
  split
  · exact hq
  · rename_i hup
    have hdm := Nat.div_add_mod num den
    by_cases heq : num / den = q
    · -- a quotient that is reached leaves nothing to round up
      rw [heq, Nat.mul_comm] at hdm
      omega
    · omega

theorem div_le_roundDiv (num den : Nat) : num / den ≤ roundDiv num den := by
  unfold roundDiv
  dsimp only
  split <;> omega

theorem le_roundDiv (hd : 0 < den) (h : q * den ≤ num) : q ≤ roundDiv num den :=
  Nat.le_trans ((Nat.le_div_iff_mul_le hd).2 h) (div_le_roundDiv num den)

theorem roundDiv_mul (hd : 0 < den) (q : Nat) : roundDiv (q * den) den = q :=
  Nat.le_antisymm (roundDiv_le hd (Nat.le_refl _)) (le_roundDiv hd (Nat.le_refl _))

theorem roundDiv_mono (den : Nat) (h : num ≤ num') : roundDiv num den ≤ roundDiv num' den := by
  have hq : num / den ≤ num' / den := Nat.div_le_div_right h
  have hdm := Nat.div_add_mod num den
  have hdm' := Nat.div_add_mod num' den
  unfold roundDiv
  dsimp only
  by_cases heq : num / den = num' / den
  · rw [heq] at hdm ⊢
    split <;> split <;> omega
  · split <;> split <;> omega

/-! ## Rounding -/

theorem div_scale {s : Nat} (hs : s = (num / den).log2 - 52) :
    num / den < 2 ^ (s + 53) ∧ (2 ^ (s + 52) ≤ num / den ∨ s = 0) := by
  constructor
  · have hlog : num / den < 2 ^ ((num / den).log2 + 1) := Nat.lt_log2_self
    exact Nat.lt_of_lt_of_le hlog (Nat.pow_le_pow_right (by decide) (by omega))
  · by_cases h0 : s = 0
    · exact .inr h0
    have hne : num / den ≠ 0 := fun h => by simp [h] at hs; omega
    refine .inl ?_
    rw [← Nat.le_log2 hne]
    omega

theorem roundDiv_scale (hd : 0 < den) {s : Nat} (hs : s = (num / den).log2 - 52) :
    roundDiv num (den * 2 ^ s) ≤ 2 ^ 53 ∧ (2 ^ 52 ≤ roundDiv num (den * 2 ^ s) ∨ s = 0) := by
  have hpos : 0 < den * 2 ^ s := Nat.mul_pos hd (Nat.two_pow_pos s)
  obtain ⟨hlt, hle⟩ := div_scale hs
  constructor
  · refine roundDiv_le hpos (Nat.le_of_lt ?_)
    rw [Nat.div_lt_iff_lt_mul hd, Nat.pow_add] at hlt
    calc num < 2 ^ s * 2 ^ 53 * den := hlt
      _ = 2 ^ 53 * (den * 2 ^ s) := by ac_rfl
  · refine hle.imp_left fun hle => le_roundDiv hpos ?_
    rw [Nat.le_div_iff_mul_le hd, Nat.pow_add] at hle
    calc 2 ^ 52 * (den * 2 ^ s) = 2 ^ s * 2 ^ 52 * den := by ac_rfl
      _ ≤ num := hle

theorem rankOfUnits_eq {s : Nat} (hs : s = (num / den).log2 - 52) :
    rankOfUnits num den = s * 2 ^ 52 + roundDiv num (den * 2 ^ s) := by
  rw [hs]
  rfl

/-- **Rounding keeps the order.** -/
theorem rankOfUnits_mono (hd : 0 < den) (h : num ≤ num') : rankOfUnits num den ≤ rankOfUnits num' den := by
  obtain ⟨s, hs⟩ : ∃ s, s = (num / den).log2 - 52 := ⟨_, rfl⟩
  obtain ⟨s', hs'⟩ : ∃ s, s = (num' / den).log2 - 52 := ⟨_, rfl⟩
  have hss : s ≤ s' := by
    by_cases h0 : num / den = 0
    · simp [hs, h0]
    have hq : num / den ≤ num' / den := Nat.div_le_div_right h
    have hpos : num' / den ≠ 0 := Nat.ne_of_gt (Nat.lt_of_lt_of_le (Nat.pos_of_ne_zero h0) hq)
    have := (Nat.le_log2 hpos).2 (Nat.le_trans (Nat.log2_self_le h0) hq)
    omega
  rw [rankOfUnits_eq hs, rankOfUnits_eq hs']
  by_cases heq : s = s'
  · have := roundDiv_mono (den * 2 ^ s) h
    rw [← heq]
    omega
  · -- the greater number has a full significand at a greater scale
    have hupper := (roundDiv_scale hd hs).1
    have hlower := (roundDiv_scale hd hs').2
    omega

theorem units_rankOfUnits {s : Nat} (hs : s = (num / 1).log2 - 52) :
    units (rankOfUnits num 1) = roundDiv num (2 ^ s) * 2 ^ s := by
  have hcut := roundDiv_scale Nat.one_pos hs
  rw [rankOfUnits_eq hs]
  rw [Nat.one_mul] at hcut ⊢
  exact units_eq hcut.1 hcut.2

/-- **Rounding leaves alone what needs no more than fifty-three bits**, and nothing else. -/
theorem units_rankOfUnits_eq_iff : units (rankOfUnits num 1) = num ↔ ∃ m k, m < 2 ^ 53 ∧ num = m * 2 ^ k := by
  constructor
  · intro h
    exact ⟨significand (rankOfUnits num 1), scale (rankOfUnits num 1), significand_lt _, h.symm⟩
  · rintro ⟨m, k, hm, rfl⟩
    obtain ⟨s, hs⟩ : ∃ s, s = (m * 2 ^ k / 1).log2 - 52 := ⟨_, rfl⟩
    have hsk : s ≤ k := by
      rw [Nat.div_one] at hs
      by_cases h0 : m * 2 ^ k = 0
      · rw [h0] at hs
        simp at hs
        omega
      have hlt : m * 2 ^ k < 2 ^ (53 + k) := by
        rw [Nat.pow_add]
        exact Nat.mul_lt_mul_of_pos_right hm (Nat.two_pow_pos k)
      have := (Nat.log2_lt h0).2 hlt
      omega
    have hfactor : m * 2 ^ k = m * 2 ^ (k - s) * 2 ^ s := by
      rw [Nat.mul_assoc, ← Nat.pow_add, Nat.sub_add_cancel hsk]
    rw [units_rankOfUnits hs, hfactor, roundDiv_mul (Nat.two_pow_pos s)]

theorem rankOfUnits_units (r : Nat) : rankOfUnits (units r) 1 = r :=
  units_injective (units_rankOfUnits_eq_iff.2 ⟨significand r, scale r, significand_lt r, rfl⟩)

end DocQuery.Double
