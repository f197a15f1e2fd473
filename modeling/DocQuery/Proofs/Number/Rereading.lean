import DocQuery.Proofs.Number.Comparison
import DocQuery.Proofs.Number.PlainDecimals
import Mathlib.Algebra.Order.Field.Basic
/-!
# Reading plain text again

Integers are read again from their plain text, and so are most finite floats, with their sign.  Floats have a fraction in
their text below ten to the power of sixteen only, and integers are read up to two to the power of sixty-three: between the
two bounds a float is read as the integer that stands in its text, which is equal to it (`Number.ofText_plainText`).
-/
namespace DocQuery

open Scalar (Digits Sign UnsignedText DecimalText IntegerText)

variable {negative : Bool} {rank : Nat} {K : Nat}

namespace Double

/-! ## The two bounds -/

theorem exists_rank_sixteen : ∃ s, magnitude s = 10 ^ 16 ∧ (shortest .up s).quantity = 10 ^ 16 := by
  refine ⟨(unitExponent + 1) * 2 ^ 52 + 5000000000000000, ?_, ?_⟩
  · refine (magnitude_eq (m := 10 ^ 16) ?_).trans (by norm_num)
    rw [units_eq (by decide) (.inl (by decide)), Nat.pow_succ]
    omega
  · have hshortest : shortest .up ((unitExponent + 1) * 2 ^ 52 + 5000000000000000) = ⟨1, 16⟩ := by decide +kernel
    rw [hshortest, Decimal.quantity]
    norm_num

/-- **The second bound is not written exactly**: its shortest decimal is 9223372036854776000. -/
theorem exists_rank_sixtyThree : ∃ s, magnitude s = 2 ^ 63 ∧ 2 ^ 63 < (shortest .up s).quantity := by
  refine ⟨(unitExponent + 11) * 2 ^ 52 + 2 ^ 52, ?_, ?_⟩
  · refine (magnitude_eq (m := 2 ^ 63) ?_).trans (by norm_num)
    rw [units_eq (by decide) (.inl (Nat.le_refl _)), Nat.pow_add]
    omega
  · have hshortest : shortest .up ((unitExponent + 11) * 2 ^ 52 + 2 ^ 52) = ⟨9223372036854776, 3⟩ := by decide +kernel
    rw [hshortest, Decimal.quantity]
    norm_num

theorem quantity_shortest_lt_sixteen : (shortest .up rank).quantity < 10 ^ 16 ↔ magnitude rank < 10 ^ 16 := by
  obtain ⟨s, hmagnitude, hquantity⟩ := exists_rank_sixteen
  rw [← hmagnitude]
  exact quantity_shortest_lt_iff (hmagnitude.trans hquantity.symm).le

theorem sixteen_le_quantity_shortest : 10 ^ 16 ≤ (shortest .up rank).quantity ↔ 10 ^ 16 ≤ magnitude rank :=
  le_iff_le_iff_lt_iff_lt.2 quantity_shortest_lt_sixteen

theorem quantity_shortest_sixtyThree : ((shortest .up rank).quantity < 2 ^ 63 ↔ magnitude rank < 2 ^ 63) ∧
    ((shortest .up rank).quantity ≤ 2 ^ 63 ↔ magnitude rank < 2 ^ 63) := by
  obtain ⟨s, hmagnitude, hquantity⟩ := exists_rank_sixtyThree
  rw [← hmagnitude] at hquantity ⊢
  exact ⟨quantity_shortest_lt_iff hquantity.le, quantity_shortest_le_iff hquantity⟩

/-! ## Floats and integers -/

theorem abs_quantity (negative : Bool) (rank : Nat) :
    |((signed negative (units rank) : Int) : ℚ) / 2 ^ unitExponent| = magnitude rank := by
  have hunit : (0 : ℚ) < 2 ^ unitExponent := pow_pos zero_lt_two _
  rw [abs_div, abs_of_pos hunit, magnitude, ← Int.cast_abs, Int.abs_eq_natAbs, natAbs_signed, Int.cast_natCast]

theorem ofDecimal_of_rank {d : Decimal} {r : Fin ranks} (h : d.rank = r) (negative : Bool) :
    ofDecimal negative d = .finite negative r := by
  rw [ofDecimal_eq, h, ofRank, dif_pos r.isLt]

theorem rank_of_quantity_eq (h : (K : ℚ) = (shortest .up rank).quantity) : (⟨K, 0⟩ : Decimal).rank = rank :=
  (Decimal.rank_eq_rank ((Decimal.quantity_nat K).trans h)).trans (rank_shortest .up rank)

theorem ofInt_signed (hK : 0 < K) (negative : Bool) : ofInt (signed negative K) = ofDecimal negative ⟨K, 0⟩ := by
  have hsign : decide (signed negative K < 0) = negative := by
    cases negative with
    | false => simp [signed]
    | true => simp [signed, hK]
  have hrank : (⟨K, 0⟩ : Decimal).rank = rankOfUnits (K * 10 ^ 0 * 2 ^ unitExponent) (10 ^ 0) := rfl
  rw [ofDecimal_eq, hrank, Nat.pow_zero, Nat.mul_one, ofInt, ofRatio, hsign, natAbs_signed, natPow_eq]

theorem exists_toInt_eq_signed (hK : K < 2 ^ 63) (negative : Bool) : ∃ i : Int64, i.toInt = signed negative K := by
  have hleast : Int64.minValue.toInt = -2 ^ 63 := by decide
  have hgreatest : Int64.maxValue.toInt = 2 ^ 63 - 1 := by decide
  have hle : Int64.minValue.toInt ≤ signed negative K := by
    unfold signed
    split <;> omega
  have hge : signed negative K ≤ Int64.maxValue.toInt := by
    unfold signed
    split <;> omega
  exact ⟨Int64.ofIntLE _ hle hge, Int64.toInt_ofIntLE⟩

end Double

/-! ## The text of a float -/

namespace Number

open Double (magnitude shortest)

theorem magnitudeText_eq (hrank : rank ≠ 0) : plainLayout.magnitudeText rank = (shortest .up rank).plainText :=
  (if_neg hrank).trans (if_pos rfl)

/-- **The text of a magnitude** is that of a decimal which is rounded to it, and from ten to the power of sixteen on it is
the digits of the shortest one. -/
theorem exists_unsignedText (rank : Nat) : ∃ d, UnsignedText d (plainLayout.magnitudeText rank) ∧ d.rank = rank ∧
    ('.' ∈ plainLayout.magnitudeText rank ↔ magnitude rank < 10 ^ 16) ∧
    (10 ^ 16 ≤ magnitude rank → Digits (plainLayout.magnitudeText rank) ∧ d.quantity = (shortest .up rank).quantity) := by
  by_cases hrank : rank = 0
  · subst hrank
    have hsmall : magnitude 0 < 10 ^ 16 := by
      rw [Double.magnitude_eq (r := 0) (m := 0) (by rw [Nat.zero_mul]; rfl)]
      norm_num
    refine ⟨⟨0, -1⟩, ?_, Decimal.rank_of_digits_eq_zero rfl, iff_of_true (by decide) hsmall, fun h => ?_⟩
    · exact Scalar.decimal?_eq_some_iff.1 rfl
    · exact absurd hsmall (not_lt.2 h)
  have hdigits := @Double.digits_shortest_pos rank .up hrank
  obtain ⟨d, htext, hquantity⟩ := Decimal.exists_unsignedText hdigits
  have hnat : 10 ^ 16 ≤ (shortest .up rank).quantity → ∃ m : Nat, (shortest .up rank).quantity = m := fun h =>
    Double.exists_nat_shortest (Double.sixteen_le_quantity_shortest.1 h)
  obtain ⟨hpoint, hwhole⟩ := Decimal.point_mem_plainText_iff hdigits hnat
  rw [magnitudeText_eq hrank]
  refine ⟨d, htext, ?_, hpoint.trans Double.quantity_shortest_lt_sixteen, fun h => ⟨?_, hquantity⟩⟩
  · exact (Decimal.rank_eq_rank hquantity).trans (Double.rank_shortest .up rank)
  · exact hwhole (Double.sixteen_le_quantity_shortest.2 h)

theorem sign_finiteText (negative : Bool) : Sign negative (if negative then ['-'] else []) := by
  cases negative with
  | false => exact .none
  | true => exact .minus

theorem point_mem_finiteText_iff : '.' ∈ plainLayout.finiteText negative rank ↔ magnitude rank < 10 ^ 16 := by
  obtain ⟨d, -, -, hpoint, -⟩ := exists_unsignedText rank
  rw [← hpoint, Layout.finiteText, List.mem_append]
  refine or_iff_right fun hsign => ?_
  split at hsign
  · cases List.mem_singleton.1 hsign
  · cases hsign

theorem integerText_finiteText_iff {n : Int} : IntegerText n (plainLayout.finiteText negative rank) ↔
    10 ^ 16 ≤ magnitude rank ∧ ∃ K : Nat, n = Double.signed negative K ∧ (K : ℚ) = (shortest .up rank).quantity := by
  obtain ⟨d, htext, -, hpoint, hlarge⟩ := exists_unsignedText rank
  have hsplit := Scalar.splitSign_append (sign_finiteText negative) htext.ne_sign
  have hwhole : Digits (plainLayout.magnitudeText rank) →
      d = ⟨Nat.ofDigitChars 10 (plainLayout.magnitudeText rank) 0, 0⟩ := by
    intro hdigits
    have hdecimal := Scalar.decimal?_of_digits hdigits
    rw [Scalar.decimal?_eq_some_iff.2 htext] at hdecimal
    exact Option.some.inj hdecimal
  rw [Scalar.integerText_iff, Layout.finiteText, hsplit]
  constructor
  · rintro ⟨hdigits, rfl⟩
    have hle : 10 ^ 16 ≤ magnitude rank := by
      refine not_lt.1 fun hlt => ?_
      have hdigit := hdigits.isDigit _ (hpoint.2 hlt)
      cases hdigit
    refine ⟨hle, _, rfl, ?_⟩
    rw [← (hlarge hle).2, hwhole hdigits, Decimal.quantity_nat]
  · rintro ⟨hle, K, rfl, hK⟩
    obtain ⟨hdigits, hquantity⟩ := hlarge hle
    refine ⟨hdigits, congrArg _ (Nat.cast_injective (R := ℚ) ?_)⟩
    rw [hK, ← hquantity, hwhole hdigits, Decimal.quantity_nat]

/-- **A float is read as an integer between the two bounds.** -/
theorem exists_integerText_finiteText_iff : (∃ i : Int64, IntegerText i.toInt (plainLayout.finiteText negative rank)) ↔
    10 ^ 16 ≤ magnitude rank ∧ magnitude rank < 2 ^ 63 := by
  obtain ⟨hlt, hle⟩ := @Double.quantity_shortest_sixtyThree rank
  constructor
  · rintro ⟨i, hi⟩
    obtain ⟨hlarge, K, hK, hquantity⟩ := integerText_finiteText_iff.1 hi
    refine ⟨hlarge, hle.1 ?_⟩
    have hbound := Double.natAbs_toInt_le i
    rw [hK, Double.natAbs_signed] at hbound
    rw [← hquantity]
    exact_mod_cast hbound
  · rintro ⟨hlarge, hsmall⟩
    obtain ⟨K, hK⟩ := @Double.exists_nat_shortest rank .up hlarge
    have hbound : K < 2 ^ 63 := by
      have hquantity := hlt.2 hsmall
      rw [hK] at hquantity
      exact_mod_cast hquantity
    obtain ⟨i, hi⟩ := Double.exists_toInt_eq_signed hbound negative
    exact ⟨i, integerText_finiteText_iff.2 ⟨hlarge, K, hi, hK.symm⟩⟩

theorem number?_finiteText (negative : Bool) (r : Fin Double.ranks) :
    (∃ i : Int64, IntegerText i.toInt (plainLayout.finiteText negative r) ∧
      Scalar.number? (plainLayout.finiteText negative r) = some (.integer i) ∧
      (integer i).toDouble = .finite negative r) ∨
    (¬∃ i : Int64, IntegerText i.toInt (plainLayout.finiteText negative r)) ∧
      Scalar.number? (plainLayout.finiteText negative r) = some (.float (.finite negative r)) := by
  obtain ⟨d, htext, hrank, -, -⟩ := exists_unsignedText r
  have hdecimal := Scalar.decimalText_iff.1 (DecimalText.intro (sign_finiteText negative) htext)
  rcases Scalar.number?_cases (plainLayout.finiteText negative r) with ⟨i, hi, hread⟩ | ⟨hnone, hread⟩
  · obtain ⟨hlarge, K, hK, hquantity⟩ := integerText_finiteText_iff.1 hi
    have hpos : 0 < K := by
      refine Nat.pos_of_ne_zero fun hzero => ?_
      have hsixteen := Double.sixteen_le_quantity_shortest.2 hlarge
      rw [← hquantity, hzero] at hsixteen
      norm_num at hsixteen
    refine .inl ⟨i, hi, hread, ?_⟩
    rw [toDouble, hK, Double.ofInt_signed hpos, Double.ofDecimal_of_rank (Double.rank_of_quantity_eq hquantity)]
  · refine .inr ⟨hnone, ?_⟩
    rw [hread, Layout.finiteText, hdecimal.1, hdecimal.2, Option.map_some, Double.ofDecimal_of_rank hrank]

/-! ## Reading the text of a number -/

/-- **The text of a float is read as a number that is equal to it**, which is the float itself or an integer. -/
theorem ofText_finiteText (negative : Bool) (r : Fin Double.ranks) : ∃ m,
    Scalar.ofText (plainLayout.finiteText negative r) = .number m ∧ m.eqv (.float (.finite negative r)) = true ∧
    (m.isInteger = false → m = .float (.finite negative r)) ∧
    (m.isInteger = true ↔ 10 ^ 16 ≤ magnitude r ∧ magnitude r < 2 ^ 63) := by
  obtain ⟨d, htext, -⟩ := exists_unsignedText r
  have hdecimal := DecimalText.intro (sign_finiteText negative) htext
  rw [← @exists_integerText_finiteText_iff negative r]
  rcases number?_finiteText negative r with ⟨i, hi, hread, hdouble⟩ | ⟨hnone, hread⟩
  · have heqv : (integer i).eqv (float (.finite negative r)) = (integer i).toDouble.eqv (.finite negative r) := rfl
    refine ⟨.integer i, hdecimal.ofText_eq_number_iff.2 hread, ?_, nofun, iff_of_true rfl ⟨i, hi⟩⟩
    rw [heqv, hdouble]
    exact Double.eqv_self nofun
  · exact ⟨.float (.finite negative r), hdecimal.ofText_eq_number_iff.2 hread, eqv_self nofun, fun _ => rfl,
      iff_of_false nofun hnone⟩

/-- **Finite numbers are read again from their plain text**, and what is read is equal to the number.  It is the same
number, unless the number is a float that has no fraction in its text and stands for a sixty-four-bit integer: then it is
an integer.  The text has a fraction if the number is a float below ten to the power of sixteen. -/
theorem ofText_plainText {n : Number} (hn : n.isFinite = true) : ∃ (q : ℚ) (m : Number),
    n.quantity? = some (.rational q) ∧ Scalar.ofText n.plainText = .number m ∧ m.eqv n = true ∧
    ('.' ∈ n.plainText ↔ n.isInteger = false ∧ |q| < 10 ^ 16) ∧ (m.isInteger = n.isInteger → m = n) ∧
    (m.isInteger = true ↔ n.isInteger = true ∨ 10 ^ 16 ≤ |q| ∧ |q| < 2 ^ 63) := by
  cases n with
  | integer i =>
    refine ⟨i.toInt, .integer i, rfl, Scalar.ofText_of_writes (.integer i), eqv_self nofun, ?_, fun _ => rfl,
      iff_of_true rfl (.inl rfl)⟩
    refine iff_of_false (fun hpoint => ?_) nofun
    rcases Scalar.mem_integerText hpoint with hdigit | hminus
    · cases hdigit
    · cases hminus
  | float x =>
    cases x with
    | nan => cases hn
    | infinite negative => cases hn
    | finite negative r =>
      obtain ⟨m, hread, heqv, hsame, hkind⟩ := ofText_finiteText negative r
      refine ⟨((Double.signed negative (Double.units r) : Int) : ℚ) / 2 ^ Double.unitExponent, m, rfl, hread, heqv, ?_,
        hsame, ?_⟩
      · rw [Double.abs_quantity]
        exact point_mem_finiteText_iff.trans (iff_and_self.2 fun _ => rfl)
      · rw [Double.abs_quantity, hkind]
        exact (or_iff_right nofun).symm

/-- The least integer as a float: no decimal of its length stands for it exactly, so it is read again as a float. -/
theorem ofText_plainText_minValue :
    let x := Number.float (.ofInt Int64.minValue.toInt)
    x.isFinite = true ∧ x.quantity? = some (.rational Int64.minValue.toInt) ∧ Scalar.ofText x.plainText = .number x := by
  intro x
  have hfinite : x.isFinite = true := by decide +kernel
  have hleast : Int64.minValue.toInt = -2 ^ 63 := by decide
  have hquantity : x.quantity? = some (.rational Int64.minValue.toInt) :=
    (Double.quantity_ofInt_iff (i := Int64.minValue)).2 ⟨1, 63, by decide, by decide⟩
  obtain ⟨q, m, hq, hread, -, -, hsame, hkind⟩ := ofText_plainText hfinite
  rw [hquantity, Option.some.injEq, Quantity.rational_inj] at hq
  have hinteger : ¬m.isInteger = true := by
    rw [hkind, ← hq, hleast]
    norm_num [x, isInteger]
  have hfloat : m = x := hsame (Bool.eq_false_iff.2 hinteger)
  rw [hfloat] at hread
  exact ⟨hfinite, hquantity, hread⟩

/-- The least float that is read as an integer has no fraction in its text. -/
theorem plainText_of_large_float :
    let x := Number.float (.ofDecimal false ⟨1, 16⟩)
    x.isFinite = true ∧ x.plainText = "10000000000000000".toList ∧
    Scalar.ofText x.plainText = .number (.integer 10000000000000000) := by
  decide +kernel

end Number
end DocQuery
