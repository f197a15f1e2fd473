import DocQuery.Proofs.Filter.Grammar
import DocQuery.Proofs.Number.Places
import DocQuery.Proofs.Pattern.Figures
/-!
# Predicates that may stand for each other

Predicates are equal when field, operator and literal are, but equal literals are not always the same: an integer is
equal to the float it is rounded to, and the two zeros are equal.  For a comparison this shows on the other integers that
are rounded to the same float (`Operator.Exchangeable`), and for a search on the text, since no two numbers with
different texts are the same pattern (`Predicate.search_congr_iff`).  With that the predicates that may stand for each
other are told apart from those that are only equal (`Predicate.interchangeable_iff`).
-/
namespace DocQuery

/-! ## Literals -/

namespace Operator

variable {op : Operator} {m n k : Number} {i j : Int64} {x y : Double}

def compares : Operator → Number → Number → Bool
  | .equal, k, n => k.eqv n
  | .notEqual, k, n => !k.eqv n
  | .greater, k, n => n.lt k
  | .less, k, n => k.lt n
  | .greaterEqual, k, n => n.le k
  | .lessEqual, k, n => k.le n
  | .search, _, _ => false

/-- **Which other integers may be equal to a float**, for the float to be the literal in place of the integer `i`. -/
def Tolerates (op : Operator) (i j : Int64) : Prop :=
  match op with
  | .equal | .notEqual => j = i
  | .less | .greaterEqual => i ≤ j
  | .greater | .lessEqual => j ≤ i
  | .search => True

/-- **Whether a float may be the literal in place of an integer it is equal to.**  Of the integers that are rounded to
the float, equality needs it to be the only one, and a comparison by size to be the last one on its side. -/
def Exchangeable (op : Operator) (i : Int64) (x : Double) : Prop :=
  ∀ j : Int64, (Number.integer j).eqv (.float x) = true → op.Tolerates i j

/-- **Whether equal literals have the same meaning for an operator.** -/
def SameMeaning (op : Operator) (a b : Scalar) : Prop :=
  match op, a, b with
  | .search, a, b => a.plainText = b.plainText
  | op, .number (.integer i), .number (.float x) => op.Exchangeable i x
  | op, .number (.float x), .number (.integer i) => op.Exchangeable i x
  | _, _, _ => True

theorem compares_congr (hmn : m.toDouble.place? = n.toDouble.place?)
    (hkind : k.isInteger = false ∨ m.isInteger = false ∧ n.isInteger = false) :
    op.compares k m = op.compares k n := by
  have hkm : k.isInteger = false ∨ m.isInteger = false := hkind.imp_right And.left
  have hkn : k.isInteger = false ∨ n.isInteger = false := hkind.imp_right And.right
  cases op <;> simp only [compares, Number.eqv_eq_toDouble, Number.le_eq_toDouble, Number.lt_eq_toDouble, hkm, hkn,
    hkm.symm, hkn.symm, Double.eqv, Double.lt, Double.le, hmn]

/-- **An integer against an integer and a float that are equal**: rounded to another place it is on the same side of
both, and at the same place only if the operator allows it to be there. -/
theorem compares_integer_iff (h : (Number.integer i).eqv (.float x) = true) :
    op.compares (.integer j) (.integer i) = op.compares (.integer j) (.float x) ↔
      ((Number.integer j).eqv (.float x) = true → op.Tolerates i j) := by
  rw [Number.eqv_eq_toDouble (.inr rfl)] at h
  obtain ⟨b, hi, hx⟩ := Double.eqv_iff_place.1 h
  obtain ⟨a, hj⟩ := Number.exists_place_integer j
  have hle := Number.place_le_of_le hj hi
  have hge := Number.place_le_of_le hi hj
  obtain ⟨heqv, hlt, hbelow⟩ := Double.compare_places hj hx
  obtain ⟨-, hgt, habove⟩ := Double.compare_places hx hj
  rw [Int64.le_iff_toInt_le] at hle hge
  have hne : j = i ↔ j.toInt = i.toInt := Int64.toInt_inj.symm
  rw [Bool.eq_iff_iff]
  cases op <;> simp only [compares, Tolerates, Number.eqv, Number.lt, Number.le, heqv, hlt, hbelow, hgt, habove,
    beq_iff_eq, decide_eq_true_eq, Bool.not_eq_true', beq_eq_false_iff_ne, Int64.lt_iff_toInt_lt, Int64.le_iff_toInt_le,
    hne, ne_eq, Bool.false_eq_true, implies_true, iff_self]
  all_goals omega

theorem compares_exchange_iff (h : (Number.integer i).eqv (.float x) = true) :
    (∀ k, op.compares k (.integer i) = op.compares k (.float x)) ↔ op.Exchangeable i x := by
  constructor
  · exact fun hall j => (compares_integer_iff h).1 (hall (.integer j))
  · intro hex k
    cases k with
    | integer j => exact (compares_integer_iff h).2 (hex j)
    | float y =>
      rw [Number.eqv_eq_toDouble (.inr rfl)] at h
      obtain ⟨place, hi, hx⟩ := Double.eqv_iff_place.1 h
      exact compares_congr (hi.trans hx.symm) (.inl rfl)

theorem sameMeaning_self (op : Operator) (a : Scalar) : op.SameMeaning a a := by
  cases op <;> first | exact rfl | (cases a with | number n => cases n <;> trivial | _ => trivial)

theorem sameMeaning_integer_float (hop : op ≠ .search) :
    op.SameMeaning (.number (.integer i)) (.number (.float x)) ↔ op.Exchangeable i x := by
  cases op <;> first | rfl | exact absurd rfl hop

theorem sameMeaning_float_integer (hop : op ≠ .search) :
    op.SameMeaning (.number (.float x)) (.number (.integer i)) ↔ op.Exchangeable i x := by
  cases op <;> first | rfl | exact absurd rfl hop

theorem sameMeaning_floats (hop : op ≠ .search) : op.SameMeaning (.number (.float x)) (.number (.float y)) := by
  cases op <;> trivial

theorem compares_iff_sameMeaning (hop : op ≠ .search) (h : m.eqv n = true) :
    (∀ k, op.compares k m = op.compares k n) ↔ op.SameMeaning (.number m) (.number n) := by
  obtain rfl | ⟨hkind, hplace⟩ := Number.eq_or_place_of_eqv h
  · exact iff_of_true (fun k => rfl) (sameMeaning_self op _)
  cases m with
  | integer i =>
    cases n with
    | integer j => simp [Number.isInteger] at hkind
    | float x => exact (compares_exchange_iff h).trans (sameMeaning_integer_float hop).symm
  | float x =>
    cases n with
    | integer j =>
      rw [Number.eqv_comm] at h
      exact (forall_congr' fun k => eq_comm).trans ((compares_exchange_iff h).trans (sameMeaning_float_integer hop).symm)
    | float y => exact iff_of_true (fun k => compares_congr hplace (.inr ⟨rfl, rfl⟩)) (sameMeaning_floats hop)

theorem exchangeable_of_small (hsmall : i.toInt.natAbs < 2 ^ 53) (h : (Number.integer i).eqv (.float x) = true) :
    op.Exchangeable i x := by
  intro j hj
  obtain rfl := Number.eq_of_eqv_small hsmall h hj
  cases op <;> first | rfl | exact Int64.le_refl _ | trivial

theorem sameMeaning_of_small {a b : Scalar} (hop : op ≠ .search) (h : a.eqv b = true)
    (hsmall : ∀ i : Int64, .number (.integer i) ∈ [a, b] → i.toInt.natAbs < 2 ^ 53) : op.SameMeaning a b := by
  obtain rfl | ⟨m, n, rfl, rfl, hmn⟩ := Scalar.eqv_cases h
  · exact sameMeaning_self op a
  cases m with
  | integer i =>
    cases n with
    | integer j =>
      obtain rfl : i = j := eq_of_beq hmn
      exact sameMeaning_self op _
    | float x => exact (sameMeaning_integer_float hop).2 (exchangeable_of_small (hsmall i (by simp)) hmn)
  | float x =>
    cases n with
    | integer j =>
      rw [Number.eqv_comm] at hmn
      exact (sameMeaning_float_integer hop).2 (exchangeable_of_small (hsmall j (by simp)) hmn)
    | float y => exact sameMeaning_floats hop

end Operator

/-! ## Predicates -/

theorem FieldTest.eq_of_operator {test test' : FieldTest} (h : test.operator = test'.operator)
    (hop : test.operator ≠ .search) : test = test' := by
  cases test <;> cases test' <;> first | rfl | exact absurd rfl hop | cases h

namespace Predicate

variable {f g : String} {op : Operator} {a b : Scalar} {m n : Number} {test : FieldTest} {p q : Predicate} {v : Value}

theorem compile?_of_ofValue [Pattern.Engine] (h : ofValue f op v = .ok p) {P : Pattern} (hP : p.test = .search P) :
    Pattern.compile? false p.literal.plainText = some P := by
  unfold ofValue at h
  split at h
  · unfold ofScalar at h
    cases op with
    | search =>
      dsimp only at h
      split at h
      · rename_i compiled hcompiled
        cases h
        cases hP
        exact hcompiled
      · cases h
    | _ => cases h; cases hP
  · cases h

theorem ofValue_search [Pattern.Engine] {P : Pattern} (hP : Pattern.compile? false a.plainText = some P) :
    ofValue f .search (.scalar a) = .ok ⟨f, .search P, a⟩ := by
  simp only [ofValue, ofScalar, hP]

theorem accepts_number (htest : test.operator ≠ .search) (k : Number) :
    accepts ⟨f, test, .number n⟩ (.number k) = test.operator.compares k n := by
  cases test with
  | search P => exact absurd rfl htest
  | _ => rfl

theorem accepts_not_number (hv : ∀ k, v ≠ .number k) :
    accepts ⟨f, test, .number m⟩ v = accepts ⟨f, test, .number n⟩ v := by
  cases v with
  | scalar x =>
    cases x with
    | number k => exact absurd rfl (hv k)
    | _ => cases test <;> rfl
  | _ => cases test <;> rfl

theorem holds_object (p : Predicate) (v : Value) : p.holds (.object [(p.field, v)]) = p.accepts v := by
  simp [holds, Value.get?]

/-- **Comparisons with numbers** differ on an element only if they differ on a number. -/
theorem holds_number_congr_iff (htest : test.operator ≠ .search) :
    (∀ e, holds ⟨f, test, .number m⟩ e = holds ⟨f, test, .number n⟩ e) ↔
      ∀ k, test.operator.compares k m = test.operator.compares k n := by
  constructor
  · intro h k
    have hk := h (.object [(f, .number k)])
    rwa [holds_object ⟨f, test, .number m⟩, holds_object ⟨f, test, .number n⟩, accepts_number htest,
      accepts_number htest] at hk
  · intro h e
    unfold holds
    dsimp only
    split
    · rename_i v hv
      by_cases hnumber : ∃ k, v = .number k
      · obtain ⟨k, rfl⟩ := hnumber
        rw [accepts_number htest, accepts_number htest, h k]
      · exact accepts_not_number fun k hk => hnumber ⟨k, hk⟩
    · rfl

/-- **Searches for equal literals** hold for the same elements only if the literals have the same text. -/
theorem search_congr_iff {P Q : Pattern} (hP : Pattern.compile? false a.plainText = some P)
    (hQ : Pattern.compile? false b.plainText = some Q) (h : a.eqv b = true) :
    (∀ e, holds ⟨f, .search P, a⟩ e = holds ⟨f, .search Q, b⟩ e) ↔ a.plainText = b.plainText := by
  constructor
  · intro hholds
    have hmatch : ∀ s, P.isMatch s = Q.isMatch s := by
      intro s
      have hs := hholds (.object [(f, .string s)])
      rwa [holds_object ⟨f, .search P, a⟩, holds_object ⟨f, .search Q, b⟩] at hs
    obtain rfl | ⟨m, n, rfl, rfl, hmn⟩ := Scalar.eqv_cases h
    · rfl
    by_cases hm : m.isFinite = true
    · have hn : n.isFinite = true := Number.isFinite_of_eqv hmn hm
      have hmtext : ∀ c ∈ (Scalar.number m).plainText.toList, Scalar.isFigure c = true := fun c hc =>
        Number.isFigure_of_mem_plainText hm (by simpa [Scalar.plainText] using hc)
      have hntext : ∀ c ∈ (Scalar.number n).plainText.toList, Scalar.isFigure c = true := fun c hc =>
        Number.isFigure_of_mem_plainText hn (by simpa [Scalar.plainText] using hc)
      refine Pattern.figures_inj hmtext hntext hP hQ ?_ ?_
      · rw [hmatch]
        exact Pattern.isMatch_self hntext hQ
      · rw [← hmatch]
        exact Pattern.isMatch_self hmtext hP
    · rw [Number.eq_of_eqv_infinite hmn (Bool.eq_false_iff.2 hm)]
  · intro htext
    rw [htext, hQ] at hP
    cases hP
    exact fun e => rfl

/-- **Which equal predicates may stand for each other.**  They hold for the same elements exactly if their literals have
the same meaning: for a search the same text, and for a comparison an integer and a float that no other integer tells
apart.  So they do whenever the literal is no number, and for comparisons whenever an integer literal is below two to the
power of fifty-three in magnitude. -/
theorem interchangeable_iff {u w : Value} {op' : Operator} (hp : ofValue f op u = .ok p) (hq : ofValue g op' w = .ok q)
    (h : p.eqv q = true) :
    ((∀ e, p.holds e = q.holds e) ↔ p.operator.SameMeaning p.literal q.literal) ∧
    ((∀ n, p.literal ≠ .number n) → ∀ e, p.holds e = q.holds e) ∧
    (p.operator ≠ .search → (∀ i : Int64, .number (.integer i) ∈ [p.literal, q.literal] → i.toInt.natAbs < 2 ^ 53) →
      ∀ e, p.holds e = q.holds e) := by
  simp only [eqv, Bool.and_eq_true, beq_iff_eq] at h
  obtain ⟨⟨hfield, hoperator⟩, hliteral⟩ := h
  have hiff : (∀ e, p.holds e = q.holds e) ↔ p.operator.SameMeaning p.literal q.literal := by
    obtain ⟨field, test, a⟩ := p
    obtain ⟨field', test', b⟩ := q
    obtain rfl : field = field' := hfield
    by_cases htest : ∃ P, test = .search P
    · obtain ⟨P, rfl⟩ := htest
      cases test' with
      | search Q => exact search_congr_iff (compile?_of_ofValue hp rfl) (compile?_of_ofValue hq rfl) hliteral
      | _ => cases hoperator
    have hop : test.operator ≠ .search := by
      cases test with
      | search P => exact absurd ⟨P, rfl⟩ htest
      | _ => nofun
    obtain rfl := FieldTest.eq_of_operator hoperator hop
    obtain hab | ⟨m, n, hm, hn, hmn⟩ := Scalar.eqv_cases hliteral
    · obtain rfl : a = b := hab
      exact iff_of_true (fun e => rfl) (Operator.sameMeaning_self _ a)
    · obtain rfl : a = .number m := hm
      obtain rfl : b = .number n := hn
      exact (holds_number_congr_iff hop).trans (Operator.compares_iff_sameMeaning hop hmn)
  refine ⟨hiff, fun hnumber => hiff.2 ?_, fun hop hsmall => hiff.2 (Operator.sameMeaning_of_small hop hliteral hsmall)⟩
  obtain hab | ⟨m, n, hm, -, -⟩ := Scalar.eqv_cases hliteral
  · rw [hab]
    exact Operator.sameMeaning_self _ _
  · exact absurd hm (hnumber m)

/-- One as an integer and as a float are the same bound. -/
theorem interchangeable_one :
    let p := Predicate.mk "f" .less (.number (.integer 1))
    let q := Predicate.mk "f" .less (.number (.float (.ofInt 1)))
    ofValue "f" .less (.integer 1) = .ok p ∧ ofValue "f" .less (.number (.float (.ofInt 1))) = .ok q ∧ p.eqv q = true ∧
      ∀ e, p.holds e = q.holds e := by
  intro p q
  have hp : ofValue "f" .less (.integer 1) = .ok p := rfl
  have hq : ofValue "f" .less (.number (.float (.ofInt 1))) = .ok q := rfl
  have heqv : p.eqv q = true := by decide +kernel
  refine ⟨hp, hq, heqv, (interchangeable_iff hp hq heqv).2.2 nofun fun i hi => ?_⟩
  obtain rfl : i = 1 := by simpa [p, q] using hi
  decide

/-- Equal predicates that are not interchangeable: their literals are an integer and the float it is rounded to,
and two numbers with different texts. -/
theorem equal_predicates_differ :
    (∃ p q, ofValue "f" .equal (.integer 9007199254740993) = .ok p ∧
      ofValue "f" .equal (.number (.float (.ofInt 9007199254740992))) = .ok q ∧ p.eqv q = true ∧
      p.holds (.object [("f", .integer 9007199254740992)]) = false ∧
      q.holds (.object [("f", .integer 9007199254740992)]) = true) ∧
    ∃ p q, ofValue "f" .search (.integer 1) = .ok p ∧ ofValue "f" .search (.number (.float (.ofInt 1))) = .ok q ∧
      p.eqv q = true ∧ p.holds (.object [("f", .string "1")]) = true ∧
      q.holds (.object [("f", .string "1")]) = false := by
  refine ⟨⟨_, _, rfl, rfl, by decide +kernel, by decide +kernel, by decide +kernel⟩, ?_⟩
  have hinteger : (Scalar.number (.integer 1)).plainText = "1" := by decide +kernel
  have hfloat : (Scalar.number (.float (.ofInt 1))).plainText = "1.0" := by decide +kernel
  obtain ⟨P, hP⟩ : ∃ P, Pattern.compile? false "1" = some P := Option.isSome_iff_exists.1 (by decide +kernel)
  obtain ⟨Q, hQ⟩ : ∃ Q, Pattern.compile? false "1.0" = some Q := Option.isSome_iff_exists.1 (by decide +kernel)
  have hliterals : (Scalar.number (.integer 1)).eqv (.number (.float (.ofInt 1))) = true := by decide +kernel
  refine ⟨_, _, ofValue_search (hinteger ▸ hP), ofValue_search (hfloat ▸ hQ), ?_, ?_, ?_⟩
  · rw [eqv, hliterals]
    rfl
  · exact Pattern.isMatch_self (by simp [Scalar.isFigure]) hP
  · refine Bool.eq_false_iff.2 fun hmatch => ?_
    have hlength := Pattern.length_le_of_isMatch (by simp [Scalar.isFigure]) hQ hmatch
    exact absurd hlength (by decide)

end Predicate
end DocQuery
