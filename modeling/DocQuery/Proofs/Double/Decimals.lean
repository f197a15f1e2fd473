import DocQuery.Proofs.Double.Overflow
/-!
# Decimals of doubles

The quantity of a decimal alone decides to which rank it is rounded (`Decimal.rank_le_rank`, `Double.ofDecimal_eq`).  The
decimal that is written for a rank is rounded to that rank again (`Double.rank_shortest`).  It need not be the quantity of
the rank, but where a rank is written with its own quantity or more, the others stay on their side of it
(`Double.quantity_shortest_lt_iff`), and large ranks are written without a fraction (`Double.exists_nat_shortest`).
-/
namespace DocQuery

/-- The rank that a decimal is rounded to. -/
def Decimal.rank (d : Decimal) : Nat :=
  Double.rankOfUnits (d.digits * 10 ^ d.exponent.toNat * 2 ^ Double.unitExponent) (10 ^ (-d.exponent).toNat)

def Double.magnitude (rank : Nat) : ℚ := units rank / 2 ^ unitExponent

variable {d d' : Decimal} {num num' den den' r s k : Nat} {tie : Tie}

namespace Double

/-! ## Ranks and quotients -/

theorem roundDiv_mul_mul {c : Nat} (hc : 0 < c) (num den : Nat) : roundDiv (num * c) (den * c) = roundDiv num den := by
  have hlt : 2 * (num % den * c) < den * c ↔ 2 * (num % den) < den := by
    rw [← Nat.mul_assoc, Nat.mul_lt_mul_right hc]
  have heq : 2 * (num % den * c) = den * c ↔ 2 * (num % den) = den := by
    rw [← Nat.mul_assoc, Nat.mul_left_inj (Nat.ne_of_gt hc)]
  unfold roundDiv
  dsimp only
  simp only [Nat.mul_div_mul_right num den hc, Nat.mul_mod_mul_right, hlt, heq]

theorem rankOfUnits_mul_mul {c : Nat} (hc : 0 < c) (num den : Nat) :
    rankOfUnits (num * c) (den * c) = rankOfUnits num den := by
  have hquotient := Nat.mul_div_mul_right num den hc
  rw [rankOfUnits_eq rfl, rankOfUnits_eq rfl, hquotient, Nat.mul_right_comm den c, roundDiv_mul_mul hc]

theorem rankOfUnits_le_of_div_le (hd : 0 < den) (hd' : 0 < den') (h : (num : ℚ) / den ≤ num' / den') :
    rankOfUnits num den ≤ rankOfUnits num' den' := by
  rw [div_le_div_iff₀ (Nat.cast_pos.2 hd) (Nat.cast_pos.2 hd'), ← Nat.cast_mul, ← Nat.cast_mul, Nat.cast_le] at h
  calc rankOfUnits num den = rankOfUnits (num * den') (den * den') := (rankOfUnits_mul_mul hd' num den).symm
    _ ≤ rankOfUnits (num' * den) (den * den') := rankOfUnits_mono (Nat.mul_pos hd hd') h
    _ = rankOfUnits (num' * den) (den' * den) := by rw [Nat.mul_comm den den']
    _ = rankOfUnits num' den' := rankOfUnits_mul_mul hd num' den'

theorem rankOfUnits_eq_zero (h : 2 * num < den) : rankOfUnits num den = 0 := by
  have hquotient : num / den = 0 := Nat.div_eq_of_lt (by omega)
  have hmod : num % den = num := Nat.mod_eq_of_lt (by omega)
  rw [rankOfUnits_eq rfl, hquotient, Nat.log2_zero, Nat.zero_sub, Nat.zero_mul, Nat.zero_add, Nat.pow_zero, Nat.mul_one,
    roundDiv, hmod, hquotient, if_pos (.inl h)]

/-! ## Magnitudes -/

theorem magnitude_mul (r : Nat) : magnitude r * 2 ^ unitExponent = (units r : ℚ) / (1 : Nat) := by
  rw [magnitude, div_mul_cancel₀ _ (pow_ne_zero _ two_ne_zero), Nat.cast_one, div_one]

theorem magnitude_eq {m : Nat} (h : units r = m * 2 ^ unitExponent) : magnitude r = m := by
  rw [magnitude, h, Nat.cast_mul, Nat.cast_pow, Nat.cast_ofNat, mul_div_cancel_right₀ _ (pow_ne_zero _ two_ne_zero)]

theorem magnitude_lt_magnitude_iff : magnitude r < magnitude s ↔ r < s := by
  have hunit : (0 : ℚ) < 2 ^ unitExponent := pow_pos zero_lt_two _
  rw [magnitude, magnitude, div_lt_div_iff_of_pos_right hunit, Nat.cast_lt]
  constructor
  · intro h
    exact Nat.lt_of_not_le fun hsr => absurd (units_mono hsr) (Nat.not_le.2 h)
  · exact units_lt_units

end Double

/-! ## The rank of a decimal -/

namespace Decimal

open Double (unitExponent magnitude rankOfUnits ranks overflow)

theorem quantity_nat (m : Nat) : (⟨m, 0⟩ : Decimal).quantity = m := by
  rw [quantity, zpow_zero, mul_one]

theorem rank_units (d : Decimal) : ((d.digits * 10 ^ d.exponent.toNat * 2 ^ unitExponent : Nat) : ℚ) /
    ((10 ^ (-d.exponent).toNat : Nat) : ℚ) = d.quantity * 2 ^ unitExponent := by
  rw [Nat.cast_mul, mul_div_right_comm, ← quantity_eq, Nat.cast_pow, Nat.cast_ofNat]

theorem den_pos (d : Decimal) : 0 < 10 ^ (-d.exponent).toNat :=
  Nat.pow_pos (by decide)

theorem rank_le_rank (h : d.quantity ≤ d'.quantity) : d.rank ≤ d'.rank := by
  refine Double.rankOfUnits_le_of_div_le d.den_pos d'.den_pos ?_
  rw [rank_units, rank_units]
  exact mul_le_mul_of_nonneg_right h (pow_nonneg zero_le_two _)

theorem rank_le_of_le (h : d.quantity ≤ magnitude r) : d.rank ≤ r := by
  rw [← Double.rankOfUnits_units r]
  refine Double.rankOfUnits_le_of_div_le d.den_pos Nat.one_pos ?_
  rw [rank_units, ← Double.magnitude_mul]
  exact mul_le_mul_of_nonneg_right h (pow_nonneg zero_le_two _)

theorem le_rank_of_le (h : magnitude r ≤ d.quantity) : r ≤ d.rank := by
  rw [← Double.rankOfUnits_units r]
  refine Double.rankOfUnits_le_of_div_le Nat.one_pos d.den_pos ?_
  rw [rank_units, ← Double.magnitude_mul]
  exact mul_le_mul_of_nonneg_right h (pow_nonneg zero_le_two _)

theorem rank_eq_of_eq (h : d.quantity = magnitude r) : d.rank = r :=
  Nat.le_antisymm (rank_le_of_le h.le) (le_rank_of_le h.ge)

theorem rank_eq_rank (h : d.quantity = d'.quantity) : d.rank = d'.rank :=
  Nat.le_antisymm (rank_le_rank h.le) (rank_le_rank h.ge)

theorem rank_of_digits_eq_zero (h : d.digits = 0) : d.rank = 0 := by
  rw [rank, h, Nat.zero_mul, Nat.zero_mul]
  exact Double.rankOfUnits_eq_zero d.den_pos

theorem rank_lt_ranks_iff : d.rank < ranks ↔ d.quantity < overflow := by
  have hden : (0 : ℚ) < (10 ^ (-d.exponent).toNat : Nat) := Nat.cast_pos.2 d.den_pos
  have hunit : (0 : ℚ) < 2 ^ unitExponent := pow_pos zero_lt_two _
  rw [rank, Double.rankOfUnits_lt_ranks_iff d.den_pos, ← mul_lt_mul_iff_of_pos_right hunit, ← rank_units,
    div_lt_iff₀ hden, ← Nat.cast_lt (α := ℚ)]
  push_cast
  exact Iff.rfl

theorem rank_of_exponent_lt (h : d.exponent + d.digits.log2 < -400) : d.rank = 0 := by
  obtain ⟨k, hk⟩ : ∃ k, k = (-d.exponent).toNat := ⟨_, rfl⟩
  have hnonneg : d.exponent.toNat = 0 := by omega
  have hunit : unitExponent = 1074 := rfl
  refine Double.rankOfUnits_eq_zero ?_
  rw [hnonneg, Nat.pow_zero, Nat.mul_one, ← hk]
  calc 2 * (d.digits * 2 ^ unitExponent) < 2 * (2 ^ (d.digits.log2 + 1) * 2 ^ unitExponent) :=
        Nat.mul_lt_mul_of_pos_left (Nat.mul_lt_mul_of_pos_right Nat.lt_log2_self (Nat.two_pow_pos _)) two_pos
    _ = 2 ^ (d.digits.log2 + 1 + unitExponent + 1) := by rw [← Nat.pow_add, Nat.pow_succ, Nat.mul_comm]
    _ ≤ 2 ^ (3 * k) := Nat.pow_le_pow_right two_pos (by omega)
    _ = 8 ^ k := by rw [Nat.pow_mul]
    _ ≤ 10 ^ k := Nat.pow_le_pow_left (by decide) k

end Decimal

namespace Double

theorem ofRank_zero (n : Bool) : ofRank n 0 = zero n := by
  rw [ofRank, dif_pos (by decide : 0 < ranks)]
  rfl

theorem ofDecimal_eq (n : Bool) (d : Decimal) : ofDecimal n d = ofRank n d.rank := by
  have hfinite := @ofDecimal_isFinite_iff n d
  unfold ofDecimal at hfinite ⊢
  split
  · rename_i hdigits
    rw [Decimal.rank_of_digits_eq_zero hdigits, ofRank_zero]
  rename_i hdigits
  rw [if_neg hdigits] at hfinite
  split
  · rename_i hlarge
    rw [if_pos hlarge, ← Decimal.rank_lt_ranks_iff] at hfinite
    rw [ofRank, dif_neg (hfinite.not.1 Bool.false_ne_true)]
  split
  · rename_i hsmall
    rw [Decimal.rank_of_exponent_lt hsmall, ofRank_zero]
  · rw [ofRatio, Decimal.rank, natPow_eq, Nat.pow_eq, Nat.pow_eq]

/-! ## The decimal of a rank -/

theorem rank_of_readsBack (h : readsBack r d = true) : d.rank = r := by
  unfold readsBack at h
  rw [ofDecimal_eq, ofRank] at h
  split at h
  · rename_i r' hr'
    split at hr'
    · cases hr'
      exact eq_of_beq h
    · cases hr'
  · cases h

/-- The one of two decimals that reads back, the preferred one if both do. -/
def readingOf? (rank : Nat) (preferBelow : Bool) (below above : Decimal) : Option Decimal :=
  match readsBack rank below, readsBack rank above with
  | true, true => some (if preferBelow then below else above)
  | true, false => some below
  | false, true => some above
  | false, false => none

theorem readingOf?_eq_some {preferBelow : Bool} {below above : Decimal}
    (h : readingOf? r preferBelow below above = some d) : readsBack r d = true ∧ (d = below ∨ d = above) := by
  unfold readingOf? at h
  split at h
  · rename_i hbelow habove
    cases h
    split
    · exact ⟨hbelow, .inl rfl⟩
    · exact ⟨habove, .inr rfl⟩
  · rename_i hbelow _
    cases h
    exact ⟨hbelow, .inl rfl⟩
  · rename_i _ habove
    cases h
    exact ⟨habove, .inr rfl⟩
  · cases h

theorem onGrid?_eq_readingOf? (tie : Tie) (r k : Nat) : ∃ preferBelow m m',
    onGrid? tie r k = readingOf? r preferBelow ⟨m, leadingPlace (units r) (Nat.pow 2 unitExponent) - k⟩
      ⟨m', leadingPlace (units r) (Nat.pow 2 unitExponent) - k⟩ :=
  ⟨_, _, _, rfl⟩

/-- **A decimal of a grid** is rounded to its rank and has the exponent of the grid. -/
theorem onGrid?_eq_some (h : onGrid? tie r k = some d) :
    d.rank = r ∧ d.exponent = leadingPlace (units r) (Nat.pow 2 unitExponent) - k := by
  obtain ⟨preferBelow, m, m', hgrid⟩ := onGrid?_eq_readingOf? tie r k
  rw [hgrid] at h
  obtain ⟨hreads, rfl | rfl⟩ := readingOf?_eq_some h
  · exact ⟨rank_of_readsBack hreads, rfl⟩
  · exact ⟨rank_of_readsBack hreads, rfl⟩

theorem quantity_exactDecimal (r : Nat) : (exactDecimal r).quantity = magnitude r := by
  have hten : (10 : ℚ) ^ unitExponent = 2 ^ unitExponent * 5 ^ unitExponent := by
    rw [← mul_pow]
    norm_num
  have hfive : (5 : ℚ) ^ unitExponent ≠ 0 := pow_ne_zero _ (by norm_num)
  rw [Decimal.quantity, exactDecimal, magnitude, Nat.pow_eq, zpow_neg, zpow_natCast, hten, ← div_eq_mul_inv, Nat.cast_mul,
    Nat.cast_pow, Nat.cast_ofNat, mul_div_mul_right _ _ hfive]

theorem shortest_cases (tie : Tie) (r : Nat) :
    (∃ k, k ≤ 17 ∧ onGrid? tie r k = some (shortest tie r)) ∨ shortest tie r = exactDecimal r := by
  unfold shortest
  cases h : (List.range 17).findSome? fun n => onGrid? tie r (n + 1) with
  | none => exact .inr rfl
  | some d =>
    obtain ⟨n, hn, hgrid⟩ := List.exists_of_findSome?_eq_some h
    have hlt := List.mem_range.1 hn
    exact .inl ⟨n + 1, by omega, hgrid⟩

/-- **The decimal that is written for a rank is rounded to it.** -/
theorem rank_shortest (tie : Tie) (r : Nat) : (shortest tie r).rank = r := by
  rcases shortest_cases tie r with ⟨k, -, hgrid⟩ | hexact
  · exact (onGrid?_eq_some hgrid).1
  · rw [hexact]
    exact Decimal.rank_eq_of_eq (quantity_exactDecimal r)

theorem digits_shortest_pos (hr : r ≠ 0) : 0 < (shortest tie r).digits := by
  refine Nat.pos_of_ne_zero fun hdigits => hr ?_
  rw [← rank_shortest tie r, Decimal.rank_of_digits_eq_zero hdigits]

/-- **A rank that is written with its own quantity or more** divides the others as its quantity does. -/
theorem quantity_shortest_lt_iff (hs : magnitude s ≤ (shortest tie s).quantity) :
    (shortest tie r).quantity < magnitude s ↔ magnitude r < magnitude s := by
  rw [magnitude_lt_magnitude_iff]
  constructor
  · intro h
    have hle := Decimal.rank_le_of_le h.le
    rw [rank_shortest] at hle
    refine Nat.lt_of_le_of_ne hle ?_
    rintro rfl
    exact absurd h (not_lt.2 hs)
  · intro h
    by_contra hge
    have hle := Decimal.le_rank_of_le (not_lt.1 hge)
    rw [rank_shortest] at hle
    omega

theorem quantity_shortest_le_iff (hs : magnitude s < (shortest tie s).quantity) :
    (shortest tie r).quantity ≤ magnitude s ↔ magnitude r < magnitude s := by
  rw [← quantity_shortest_lt_iff hs.le]
  refine ⟨fun h => lt_of_le_of_ne h fun heq => ?_, le_of_lt⟩
  have hrank : s = r := by
    rw [← rank_shortest tie r]
    exact (Decimal.rank_eq_of_eq heq).symm
  rw [hrank] at hs heq
  exact absurd heq (ne_of_gt hs)

/-! ## Large ranks -/

theorem lt_length_toDigits (hd : 0 < den) (h : 10 ^ 16 * den ≤ num) (p : Nat) :
    16 + p < (Nat.toDigits 10 (num * Nat.pow 10 p / den)).length := by
  have hle : 10 ^ (16 + p) ≤ num * 10 ^ p / den := by
    rw [Nat.le_div_iff_mul_le hd]
    calc 10 ^ (16 + p) * den = 10 ^ 16 * 10 ^ p * den := by rw [Nat.pow_add]
      _ = 10 ^ 16 * den * 10 ^ p := Nat.mul_right_comm _ _ _
      _ ≤ num * 10 ^ p := Nat.mul_le_mul_right _ h
  rw [Nat.pow_eq, ← Nat.not_le, Nat.length_toDigits_le_iff (by decide) (by omega)]
  exact Nat.not_lt.2 hle

theorem leadingPlace_eq (num den : Nat) :
    ∃ p : Nat, leadingPlace num den = (Nat.toDigits 10 (num * Nat.pow 10 p / den)).length - p :=
  ⟨_, rfl⟩

theorem le_leadingPlace {e : Nat} (h : 10 ^ 16 * 2 ^ e ≤ num) : 17 ≤ leadingPlace num (Nat.pow 2 e) := by
  obtain ⟨p, hp⟩ := leadingPlace_eq num (Nat.pow 2 e)
  have hlength := lt_length_toDigits (Nat.two_pow_pos e) h p
  rw [hp, natPow_eq]
  omega

theorem le_scale {e : Nat} (h : 10 ^ 16 * 2 ^ e ≤ units r) : e ≤ scale r := by
  by_contra hlt
  have hunits : units r < 2 ^ 53 * 2 ^ e := by
    rw [units, Nat.pow_eq]
    exact Nat.mul_lt_mul_of_lt_of_le (significand_lt r) (Nat.pow_le_pow_right two_pos (Nat.le_of_not_le hlt))
      (Nat.two_pow_pos _)
  omega

/-- **From ten to the power of sixteen on no fraction is written.** -/
theorem exists_nat_shortest (h : 10 ^ 16 ≤ magnitude r) : ∃ m : Nat, (shortest tie r).quantity = m := by
  have hunits : 10 ^ 16 * 2 ^ unitExponent ≤ units r := by
    rw [magnitude, le_div_iff₀ (pow_pos zero_lt_two _)] at h
    rw [← Nat.cast_le (α := ℚ)]
    push_cast
    exact h
  rcases shortest_cases tie r with ⟨k, hk, hgrid⟩ | hexact
  · obtain ⟨-, hexponent⟩ := onGrid?_eq_some hgrid
    have hplace := le_leadingPlace hunits
    have hnonneg : 0 ≤ (shortest tie r).exponent :=
      hexponent.symm ▸ Int.sub_nonneg.2 ((Int.ofNat_le.2 hk).trans hplace)
    obtain ⟨e, he⟩ := Int.eq_ofNat_of_zero_le hnonneg
    refine ⟨(shortest tie r).digits * 10 ^ e, ?_⟩
    rw [Decimal.quantity, he, zpow_natCast]
    push_cast
    rfl
  · refine ⟨significand r * 2 ^ (scale r - unitExponent), ?_⟩
    rw [hexact, quantity_exactDecimal]
    refine magnitude_eq ?_
    rw [units, Nat.pow_eq, Nat.mul_assoc, ← Nat.pow_add, Nat.sub_add_cancel (le_scale hunits)]

end Double
end DocQuery
