import DocQuery.Proofs.Number.Comparison
import DocQuery.Proofs.Number.Text
/-!
# The place of a number among the doubles

Two numbers that are not both integers are compared by their places among the doubles.  Equal doubles have the same place
(`Double.eqv_iff_place`), and the place of an integer grows with it, but not strictly: only below two to the power of
fifty-three has every integer a place of its own (`Number.eq_of_eqv_small`).
-/
namespace DocQuery

namespace Double

variable {x y : Double}

theorem compare_places {a b : Int} (hx : x.place? = some a) (hy : y.place? = some b) :
    x.eqv y = (a == b) ∧ x.lt y = decide (a < b) ∧ x.le y = decide (a ≤ b) := by
  simp only [eqv, lt, le, hx, hy, and_self]

theorem eqv_iff_place : x.eqv y = true ↔ ∃ place, x.place? = some place ∧ y.place? = some place := by
  unfold eqv
  split
  · rename_i a b ha hb
    rw [beq_iff_eq, ha, hb]
    constructor
    · rintro rfl
      exact ⟨a, rfl, rfl⟩
    · rintro ⟨place, ⟨⟩, ⟨⟩⟩
      rfl
  · rename_i hnone
    refine iff_of_false nofun ?_
    rintro ⟨place, hx, hy⟩
    exact hnone _ _ hx hy

theorem eqv_comm (x y : Double) : x.eqv y = y.eqv x := by
  rw [Bool.eq_iff_iff, eqv_iff_place, eqv_iff_place]
  exact exists_congr fun place => and_comm

theorem eq_infinite_of_eqv {n : Bool} (h : (infinite n).eqv x = true) : x = .infinite n := by
  obtain ⟨place, hinfinite, hx⟩ := eqv_iff_place.1 h
  cases hinfinite
  cases x with
  | nan => cases hx
  | infinite m => cases m <;> cases n <;> simp [place?, signed, ranks] at hx ⊢
  | finite m r =>
    have hlt := signed_lt_ranks m r
    have hgt := neg_ranks_lt_signed m r
    have hsigned : signed m r = signed n ranks := Option.some.inj hx
    cases n <;> simp only [signed, Bool.false_eq_true, if_true, if_false] at hsigned hlt hgt <;> omega

end Double

namespace Number

variable {m n : Number}

/-! ## Numbers of which one is a float -/

theorem integers_or_float (m n : Number) :
    (∃ i j, m = .integer i ∧ n = .integer j) ∨ m.isInteger = false ∨ n.isInteger = false := by
  cases m with
  | float x => exact .inr (.inl rfl)
  | integer i =>
    cases n with
    | float y => exact .inr (.inr rfl)
    | integer j => exact .inl ⟨i, j, rfl, rfl⟩

theorem eqv_eq_toDouble (h : m.isInteger = false ∨ n.isInteger = false) : m.eqv n = m.toDouble.eqv n.toDouble := by
  cases m with
  | float x => cases n <;> rfl
  | integer i =>
    cases n with
    | float y => rfl
    | integer j => simp [isInteger] at h

theorem le_eq_toDouble (h : m.isInteger = false ∨ n.isInteger = false) : m.le n = m.toDouble.le n.toDouble := by
  cases m with
  | float x => cases n <;> rfl
  | integer i =>
    cases n with
    | float y => rfl
    | integer j => simp [isInteger] at h

/-- **Equal numbers** are the same, or one of them is a float and they have the same place. -/
theorem eq_or_place_of_eqv (h : m.eqv n = true) : m = n ∨
    (m.isInteger = false ∨ n.isInteger = false) ∧ m.toDouble.place? = n.toDouble.place? := by
  obtain ⟨i, j, rfl, rfl⟩ | hkind := integers_or_float m n
  · exact .inl (congrArg integer (eq_of_beq h))
  · rw [eqv_eq_toDouble hkind] at h
    obtain ⟨place, hm, hn⟩ := Double.eqv_iff_place.1 h
    exact .inr ⟨hkind, hm.trans hn.symm⟩

theorem eqv_comm (m n : Number) : m.eqv n = n.eqv m := by
  obtain ⟨i, j, rfl, rfl⟩ | hkind := integers_or_float m n
  · exact Bool.beq_comm
  · rw [eqv_eq_toDouble hkind, eqv_eq_toDouble hkind.symm, Double.eqv_comm]

theorem eq_of_eqv_infinite (h : m.eqv n = true) (hm : m.isFinite = false) : n = m := by
  cases m with
  | integer i => cases hm
  | float x =>
    cases x with
    | finite negative r => cases hm
    | nan => cases n <;> cases h
    | infinite negative =>
      rw [eqv_eq_toDouble (.inl rfl)] at h
      have hn := Double.eq_infinite_of_eqv h
      cases n with
      | integer i =>
        rw [toDouble, Double.ofInt_eq] at hn
        cases hn
      | float y => exact congrArg float hn

theorem isFinite_of_eqv (h : m.eqv n = true) (hm : m.isFinite = true) : n.isFinite = true := by
  by_contra hn
  rw [eqv_comm] at h
  rw [eq_of_eqv_infinite h (Bool.eq_false_iff.2 hn)] at hm
  exact hn hm

/-! ## The places of integers -/

theorem exists_place_integer (i : Int64) : ∃ place, (integer i).toDouble.place? = some place :=
  ⟨_, by rw [toDouble, Double.ofInt_eq]; rfl⟩

theorem toDouble_le_of_toInt_le {i j : Int64} (h : i.toInt ≤ j.toInt) :
    (integer i).toDouble.le (integer j).toDouble = true := by
  have hquantity : (i.toInt : ℚ) ≤ j.toInt := Int.cast_le.2 h
  exact toDouble_le_of_le (a := .integer i) (b := .integer j) rfl rfl (Quantity.rational_le_iff.2 hquantity)

theorem place_le_of_le {i j : Int64} {a b : Int} (hi : (integer i).toDouble.place? = some a)
    (hj : (integer j).toDouble.place? = some b) (h : i ≤ j) : a ≤ b := by
  have hle := toDouble_le_of_toInt_le (Int64.le_iff_toInt_le.1 h)
  rw [Double.le, hi, hj] at hle
  exact of_decide_eq_true hle

theorem exact_of_natAbs_lt {i : Int64} (h : i.toInt.natAbs < 2 ^ 53) : (integer i).Exact :=
  ⟨i.toInt.natAbs, 0, h, by rw [pow_zero, Nat.mul_one]⟩

theorem quantity_le_of_toInt_le {i j : Int64} {x y : Quantity} (h : i.toInt ≤ j.toInt)
    (hx : (integer i).toDouble.quantity? = some x) (hy : (integer j).toDouble.quantity? = some y) : x ≤ y :=
  (Double.le_iff_quantity hx hy).1 (toDouble_le_of_toInt_le h)

theorem quantity_toDouble_le {m n : Number} {place : Int} {x y : Quantity} (hm : m.toDouble.place? = some place)
    (hn : n.toDouble.place? = some place) (hx : m.toDouble.quantity? = some x) (hy : n.toDouble.quantity? = some y) :
    x ≤ y := by
  refine (Double.le_iff_quantity hx hy).1 ?_
  rw [Double.le, hm, hn]
  exact decide_eq_true (Int.le_refl place)

theorem eq_of_eqv_small {i j : Int64} {x : Double} (hsmall : i.toInt.natAbs < 2 ^ 53)
    (hi : (integer i).eqv (.float x) = true) (hj : (integer j).eqv (.float x) = true) : j = i := by
  rw [eqv_eq_toDouble (.inr rfl)] at hi hj
  obtain ⟨a, hia, hxa⟩ := Double.eqv_iff_place.1 hi
  obtain ⟨b, hjb, hxb⟩ := Double.eqv_iff_place.1 hj
  obtain rfl : a = b := Option.some.inj (hxa.symm.trans hxb)
  have hexact := quantity_toDouble_iff.2 (exact_of_natAbs_lt hsmall)
  obtain ⟨q, hq⟩ := exists_quantity_toDouble (a := .integer j) rfl
  obtain rfl : q = .rational i.toInt :=
    le_antisymm (quantity_toDouble_le hjb hia hq hexact) (quantity_toDouble_le hia hjb hexact hq)
  by_cases hjsmall : j.toInt.natAbs < 2 ^ 53
  · rw [quantity_toDouble_iff.2 (exact_of_natAbs_lt hjsmall)] at hq
    have hji : (j.toInt : ℚ) = i.toInt := Quantity.rational_inj.1 (Option.some.inj hq)
    exact Int64.toInt_inj.1 (Int.cast_inj.1 hji)
  · -- an integer that is not small stays on its side of the small ones
    have hleast : Int64.toInt (-9007199254740992) = -2 ^ 53 := by decide
    have hgreatest : Int64.toInt 9007199254740992 = 2 ^ 53 := by decide
    obtain hle | hge : j.toInt ≤ -2 ^ 53 ∨ 2 ^ 53 ≤ j.toInt := by omega
    · have hbound : (integer (-9007199254740992)).Exact := ⟨1, 53, by decide, by decide⟩
      have hround := quantity_le_of_toInt_le (hle.trans_eq hleast.symm) hq (quantity_toDouble_iff.2 hbound)
      rw [Quantity.rational_le_iff, Int.cast_le] at hround
      omega
    · have hbound : (integer 9007199254740992).Exact := ⟨1, 53, by decide, by decide⟩
      have hround := quantity_le_of_toInt_le (hgreatest.trans_le hge) (quantity_toDouble_iff.2 hbound) hq
      rw [Quantity.rational_le_iff, Int.cast_le] at hround
      omega

end Number
end DocQuery
