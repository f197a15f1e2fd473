import DocQuery.Proofs.Double.Decimals
import DocQuery.Proofs.Number.Text
/-!
# Decimals without exponents

The digits of a decimal are written with a point at their place and without the zeros behind them.  The text is that of a
decimal of the same quantity (`Decimal.exists_unsignedText`), and it has a point unless it is an integer of more than
sixteen digits (`Decimal.point_mem_plainText_iff`).
-/
namespace DocQuery

open Scalar (Digits Mantissa UnsignedText)

def Decimal.plainText (d : Decimal) : List Char :=
  Layout.positionalText (Layout.dropTrailingZeros (Nat.toDigits 10 d.digits))
    (d.exponent + (Nat.toDigits 10 d.digits).length)

def Layout.decimalAt (digits : List Char) (place : Int) : Decimal :=
  ⟨Nat.ofDigitChars 10 digits 0, place - digits.length⟩

variable {d : Decimal} {digits : List Char} {place : Int} {c : Char}

/-! ## Zeros behind and in front -/

theorem ofDigitChars_append_zeros (digits : List Char) (k : Nat) :
    Nat.ofDigitChars 10 (digits ++ List.replicate k '0') 0 = Nat.ofDigitChars 10 digits 0 * 10 ^ k := by
  rw [Nat.ofDigitChars_append, Nat.ofDigitChars_replicate_zero, Nat.mul_comm]

theorem ofDigitChars_zeros_append (digits : List Char) (k : Nat) :
    Nat.ofDigitChars 10 (List.replicate k '0' ++ digits) 0 = Nat.ofDigitChars 10 digits 0 := by
  rw [Nat.ofDigitChars_append, Nat.ofDigitChars_replicate_zero, Nat.mul_zero]

/-- **Zeros move between the digits and the exponent.** -/
theorem Decimal.quantity_mul_ten_pow (m k : Nat) (e : Int) :
    (⟨m * 10 ^ k, e⟩ : Decimal).quantity = (⟨m, e + k⟩ : Decimal).quantity := by
  have hten : (10 : ℚ) ≠ 0 := by norm_num
  rw [quantity, quantity, zpow_add₀ hten, zpow_natCast, mul_comm ((10 : ℚ) ^ e), ← mul_assoc]
  push_cast
  rfl

namespace Layout

theorem dropTrailingZeros_append (digits : List Char) :
    ∃ k, digits = dropTrailingZeros digits ++ List.replicate k '0' := by
  have hzeros : ∀ c ∈ digits.reverse.takeWhile (· == '0'), c = '0' := fun c hc => by
    simpa using List.all_eq_true.1 List.all_takeWhile c hc
  refine ⟨(digits.reverse.takeWhile (· == '0')).length, ?_⟩
  rw [dropTrailingZeros, ← List.reverse_replicate, ← List.eq_replicate_of_mem hzeros, ← List.reverse_append,
    List.takeWhile_append_dropWhile, List.reverse_reverse]

theorem getLast?_dropTrailingZeros (h : (dropTrailingZeros digits).getLast? = some c) : c ≠ '0' := by
  have hhead := List.head?_dropWhile_not (· == '0') digits.reverse
  rw [dropTrailingZeros, List.getLast?_reverse] at h
  rw [h] at hhead
  simpa using hhead

theorem ten_dvd_ofDigitChars (hdigits : ∀ c ∈ digits, c.isDigit = true) (hlast : digits.getLast? = some c)
    (h : 10 ∣ Nat.ofDigitChars 10 digits 0) : c = '0' := by
  obtain ⟨front, rfl⟩ := List.getLast?_eq_some_iff.1 hlast
  have hc := hdigits c (by simp)
  simp only [Char.isDigit, Bool.and_eq_true, decide_eq_true_eq, ge_iff_le, UInt32.le_iff_toNat_le] at hc
  obtain ⟨hlow, hhigh⟩ : 48 ≤ c.toNat ∧ c.toNat ≤ 57 := hc
  rw [Nat.ofDigitChars_append, Nat.ofDigitChars_cons, Nat.ofDigitChars_nil] at h
  have hzero : c.toNat = '0'.toNat := by
    have hchar : '0'.toNat = 48 := rfl
    omega
  exact Char.toNat_inj.1 hzero

/-! ## Digits with a point -/

theorem exists_unsignedText (hdigits : Digits digits) (place : Int) :
    ∃ d, UnsignedText d (positionalText digits place) ∧ d.quantity = (decimalAt digits place).quantity := by
  have hzero : ∀ k, ∀ c ∈ List.replicate k '0', c.isDigit = true := fun k c hc => by
    rw [List.eq_of_mem_replicate hc]
    rfl
  have hmantissa : ∀ {n k : Nat} {cs : List Char}, Mantissa n k cs → UnsignedText ⟨n, 0 - k⟩ cs := fun hm => by
    have htext := UnsignedText.intro hm .none
    rwa [List.append_nil] at htext
  unfold positionalText
  split
  · rename_i hplace
    have hfraction : ∀ c ∈ List.replicate (-place).toNat '0' ++ digits, c.isDigit = true := fun c hc =>
      (List.mem_append.1 hc).elim (hzero _ c) (hdigits.isDigit c)
    refine ⟨_, hmantissa (.point ⟨by simp, hzero 1⟩ hfraction), ?_⟩
    rw [decimalAt, List.replicate_one, List.singleton_append, Nat.ofDigitChars_cons, Nat.sub_self, Nat.mul_zero,
      Nat.add_zero, ofDigitChars_zeros_append, List.length_append, List.length_replicate]
    congr 2
    omega
  split
  · rename_i hplace hlength
    have hwhole : Digits (digits ++ List.replicate (place.toNat - digits.length) '0') :=
      ⟨by simp [hdigits.ne_nil], fun c hc => (List.mem_append.1 hc).elim (hdigits.isDigit c) (hzero _ c)⟩
    have hquantity : (⟨Nat.ofDigitChars 10 (digits ++ List.replicate (place.toNat - digits.length) '0') 0, 0⟩ :
        Decimal).quantity = (decimalAt digits place).quantity := by
      rw [ofDigitChars_append_zeros, Decimal.quantity_mul_ten_pow, decimalAt]
      congr 2
      omega
    split
    · refine ⟨_, hmantissa (.point hwhole (hzero 1)), ?_⟩
      have hlast := ofDigitChars_append_zeros (digits ++ List.replicate (place.toNat - digits.length) '0') 1
      rw [List.replicate_one] at hlast
      rw [← hquantity, hlast, Decimal.quantity_mul_ten_pow]
      rfl
    · refine ⟨_, hmantissa (.whole ?_), ?_⟩
      · rwa [List.append_nil]
      · rw [List.append_nil, ← hquantity]
        rfl
  · rename_i hplace hlength
    have hwhole : Digits (digits.take place.toNat) := by
      refine ⟨fun hnil => ?_, fun c hc => hdigits.isDigit c (List.mem_of_mem_take hc)⟩
      have hempty := congrArg List.length hnil
      rw [List.length_take, List.length_nil] at hempty
      omega
    refine ⟨_, hmantissa (.point hwhole fun c hc => hdigits.isDigit c (List.mem_of_mem_drop hc)), ?_⟩
    rw [decimalAt, List.take_append_drop, List.length_drop]
    congr 2
    omega

theorem digits_positionalText (hdigits : Digits digits) (hlength : digits.length ≤ place)
    (hplace : visibleFractionBelow < place) : Digits (positionalText digits place) := by
  have hpositive : ¬place ≤ 0 := by
    have hbound : visibleFractionBelow = 16 := rfl
    omega
  rw [positionalText, if_neg hpositive, if_pos hlength, if_neg (not_le.2 hplace), List.append_nil]
  refine ⟨by simp [hdigits.ne_nil], fun c hc => ?_⟩
  rcases List.mem_append.1 hc with hc | hc
  · exact hdigits.isDigit c hc
  · rw [List.eq_of_mem_replicate hc]
    rfl

theorem point_mem_positionalText (h : ¬(digits.length ≤ place ∧ visibleFractionBelow < place)) :
    '.' ∈ positionalText digits place := by
  unfold positionalText
  split
  · simp
  split
  · rename_i hlength
    rw [if_pos (not_lt.1 fun hplace => h ⟨hlength, hplace⟩)]
    simp
  · simp

end Layout

/-! ## The text of a decimal -/

namespace Decimal

open Layout (dropTrailingZeros decimalAt)

theorem digits_dropTrailingZeros (hd : 0 < d.digits) : Digits (dropTrailingZeros (Nat.toDigits 10 d.digits)) := by
  refine ⟨fun hnil => ?_, fun c hc => Layout.isDigit_of_mem_digits hc⟩
  obtain ⟨k, hk⟩ := Layout.dropTrailingZeros_append (Nat.toDigits 10 d.digits)
  rw [hnil, List.nil_append] at hk
  have hzero := congrArg (fun digits => Nat.ofDigitChars 10 digits 0) hk
  simp only [Nat.ofDigitChars_ten_toDigits, Nat.ofDigitChars_replicate_zero, Nat.mul_zero] at hzero
  omega

theorem quantity_decimalAt (d : Decimal) : (decimalAt (dropTrailingZeros (Nat.toDigits 10 d.digits))
    (d.exponent + (Nat.toDigits 10 d.digits).length)).quantity = d.quantity := by
  obtain ⟨k, hk⟩ := Layout.dropTrailingZeros_append (Nat.toDigits 10 d.digits)
  have hdigits : d.digits = Nat.ofDigitChars 10 (dropTrailingZeros (Nat.toDigits 10 d.digits)) 0 * 10 ^ k := by
    rw [← ofDigitChars_append_zeros, ← hk, Nat.ofDigitChars_ten_toDigits]
  have hlength := congrArg List.length hk
  rw [List.length_append, List.length_replicate] at hlength
  have hquantity : d.quantity = (⟨d.digits, d.exponent⟩ : Decimal).quantity := rfl
  rw [hquantity, hdigits, quantity_mul_ten_pow, ← hdigits, decimalAt]
  congr 2
  omega

theorem exists_unsignedText (hd : 0 < d.digits) :
    ∃ d', UnsignedText d' d.plainText ∧ d'.quantity = d.quantity := by
  obtain ⟨d', htext, hquantity⟩ := Layout.exists_unsignedText (digits_dropTrailingZeros hd) _
  exact ⟨d', htext, hquantity.trans d.quantity_decimalAt⟩

theorem quantity_lt_ten_pow_iff (hd : 0 < d.digits) (p : Nat) :
    d.quantity < 10 ^ p ↔ d.exponent + (Nat.toDigits 10 d.digits).length ≤ p := by
  have hten : (1 : ℚ) ≤ 10 := by norm_num
  have hne : (10 : ℚ) ≠ 0 := by norm_num
  have hpower : (0 : ℚ) < 10 ^ d.exponent := zpow_pos (by norm_num) _
  obtain ⟨length, hlength⟩ : ∃ length, (Nat.toDigits 10 d.digits).length = length + 1 :=
    Nat.exists_eq_succ_of_ne_zero (Nat.ne_of_gt Nat.length_toDigits_pos)
  have hlt : (d.digits : ℚ) < 10 ^ (length + 1) := by
    have hdigits := (Nat.length_toDigits_le_iff (n := d.digits) (by decide) (Nat.succ_pos length)).1 hlength.le
    exact_mod_cast hdigits
  have hle : (10 : ℚ) ^ length ≤ d.digits := by
    have hdigits : 10 ^ length ≤ d.digits := by
      cases length with
      | zero => exact hd
      | succ k =>
        refine Nat.le_of_not_lt fun hsmall => ?_
        have := (Nat.length_toDigits_le_iff (by decide) (Nat.succ_pos k)).2 hsmall
        omega
    exact_mod_cast hdigits
  rw [hlength, quantity, ← zpow_natCast 10 p]
  constructor
  · intro h
    by_contra hplace
    refine absurd h (not_lt.2 ?_)
    calc (10 : ℚ) ^ (p : ℤ) ≤ 10 ^ (length + d.exponent : ℤ) := zpow_le_zpow_right₀ hten (by omega)
      _ = 10 ^ length * 10 ^ d.exponent := by rw [zpow_add₀ hne, zpow_natCast]
      _ ≤ d.digits * 10 ^ d.exponent := mul_le_mul_of_nonneg_right hle hpower.le
  · intro hplace
    calc (d.digits : ℚ) * 10 ^ d.exponent < 10 ^ (length + 1) * 10 ^ d.exponent := mul_lt_mul_of_pos_right hlt hpower
      _ = 10 ^ ((length + 1 : Nat) + d.exponent : ℤ) := by rw [zpow_add₀ hne, zpow_natCast]
      _ ≤ 10 ^ (p : ℤ) := zpow_le_zpow_right₀ hten (by omega)

theorem length_le_of_quantity_eq {m : Nat} (hd : 0 < d.digits) (hm : d.quantity = m) :
    ((dropTrailingZeros (Nat.toDigits 10 d.digits)).length : Int) ≤
      d.exponent + (Nat.toDigits 10 d.digits).length := by
  by_contra hlength
  have hdigits := digits_dropTrailingZeros hd
  rw [← quantity_decimalAt, decimalAt] at hm
  generalize d.exponent + ((Nat.toDigits 10 d.digits).length : Int) = place at hm hlength
  have hlast := List.getLast?_eq_some_getLast hdigits.ne_nil
  refine Layout.getLast?_dropTrailingZeros hlast (Layout.ten_dvd_ofDigitChars hdigits.isDigit hlast ?_)
  generalize dropTrailingZeros (Nat.toDigits 10 d.digits) = digits at hm hlength ⊢
  obtain ⟨k, hk⟩ : ∃ k : Nat, (digits.length : Int) - place = k + 1 := ⟨(digits.length - place - 1).toNat, by omega⟩
  have hshift := quantity_mul_ten_pow m (k + 1) (place - digits.length)
  have hexponent : place - digits.length + ((k + 1 : Nat) : Int) = 0 := by
    push_cast
    omega
  rw [hexponent, quantity_nat, ← hm, quantity, quantity] at hshift
  have hpower : (10 : ℚ) ^ (place - digits.length : Int) ≠ 0 := zpow_ne_zero _ (by norm_num)
  have heq : m * 10 ^ (k + 1) = Nat.ofDigitChars 10 digits 0 := by exact_mod_cast mul_right_cancel₀ hpower hshift
  rw [← heq, Nat.pow_succ, ← Nat.mul_assoc]
  exact Nat.dvd_mul_left 10 _

/-- **Where a decimal has its point.**  From ten to the power of sixteen on, an integer has none and is digits only. -/
theorem point_mem_plainText_iff (hd : 0 < d.digits) (hnat : 10 ^ 16 ≤ d.quantity → ∃ m : Nat, d.quantity = m) :
    ('.' ∈ d.plainText ↔ d.quantity < 10 ^ 16) ∧ (10 ^ 16 ≤ d.quantity → Digits d.plainText) := by
  have hplace := quantity_lt_ten_pow_iff hd 16
  have hdigits : 10 ^ 16 ≤ d.quantity → Digits d.plainText := by
    intro hle
    obtain ⟨m, hm⟩ := hnat hle
    have hlarge := hplace.not.1 (not_lt.2 hle)
    exact Layout.digits_positionalText (digits_dropTrailingZeros hd) (length_le_of_quantity_eq hd hm) (not_le.1 hlarge)
  refine ⟨⟨fun hpoint => ?_, fun hlt => ?_⟩, hdigits⟩
  · by_contra hge
    have hdigit := (hdigits (not_lt.1 hge)).isDigit _ hpoint
    cases hdigit
  · refine Layout.point_mem_positionalText fun h => ?_
    exact absurd (hplace.1 hlt) (not_le.2 h.2)

end Decimal
end DocQuery
