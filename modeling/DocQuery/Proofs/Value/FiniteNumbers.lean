import DocQuery.Filter.Parser
import DocQuery.Pattern.Parser
import DocQuery.Proofs.Double.Quantities
import DocQuery.Proofs.Filter.Grammar
import DocQuery.Proofs.Json.FiniteNumbers
import DocQuery.Proofs.Json.Places
import DocQuery.Proofs.Yaml.Pieces
import Mathlib.Data.List.Infix
/-!
# Numbers without a text

JSON text has no infinities.  The reader of JSON refuses a number that is too large for a double, so what it reads is
finite.  Bare text is typed otherwise: a decimal that is too large is the infinity, in block documents and in filters
(`ofText_isFinite_iff`), and JSON output writes a null in its place (`numbers_finite`).
-/
namespace DocQuery

variable {cs : List Char} {n : Number} {x : Scalar} {text : String} {v : Value}

namespace Scalar

/-- **A text that writes a decimal too large for a double**, apart from the blanks around it. -/
def Overflows (cs : List Char) : Prop :=
  ∃ negative d, DecimalText negative d (Text.trim cs) ∧ (Double.overflow : ℚ) ≤ d.quantity

theorem number?_of_ofText (h : ofText cs = .number n) : number? (Text.trim cs) = some n := by
  refine (ofText_eq_number_iff fun henclosed => ?_).1 h
  obtain ⟨s, hs⟩ := Quoted.exists_unquote?_iff.2 henclosed
  rw [ofText, ofTrimmed, hs] at h
  cases h

theorem DecimalText.eq {negative negative' : Bool} {d d' : Decimal} (h : DecimalText negative d cs)
    (h' : DecimalText negative' d' cs) : d' = d := by
  have hd := (decimalText_iff.1 h).2
  rw [(decimalText_iff.1 h').2] at hd
  exact Option.some.inj hd

theorem IntegerText.quantity_lt {i : Int64} {negative : Bool} {d : Decimal} (h : IntegerText i.toInt cs)
    (hd : DecimalText negative d cs) : d.quantity < (Double.overflow : ℚ) := by
  obtain ⟨hdigits, hvalue⟩ := integerText_iff.1 h
  have hdecimal := (decimalText_iff.1 hd).2
  rw [decimal?_of_digits hdigits] at hdecimal
  obtain rfl := Option.some.inj hdecimal
  have hrange := Double.natAbs_toInt_le i
  rw [← hvalue, Double.natAbs_signed] at hrange
  have hlt : Nat.ofDigitChars 10 (splitSign cs).2 0 < Double.overflow :=
    Nat.lt_of_le_of_lt hrange (by decide +kernel)
  rw [Decimal.quantity, zpow_zero, mul_one]
  exact Nat.cast_lt.2 hlt

theorem number?_isFinite_iff (h : number? (Text.trim cs) = some n) : n.isFinite = true ↔ ¬Overflows cs := by
  cases n with
  | integer i =>
    refine iff_of_true rfl ?_
    rintro ⟨negative, d, hd, hle⟩
    exact absurd ((number?_eq_integer_iff.1 h).quantity_lt hd) (not_lt.2 hle)
  | float x =>
    obtain ⟨⟨negative, d, hd, rfl⟩, -⟩ := number?_eq_float_iff.1 h
    rw [Number.isFinite, Double.ofDecimal_isFinite_iff]
    constructor
    · rintro hlt ⟨negative', d', hd', hle⟩
      rw [hd.eq hd'] at hle
      exact absurd hlt (not_lt.2 hle)
    · intro hnot
      exact not_le.1 fun hle => hnot ⟨negative, d, hd, hle⟩

/-- **A number that is typed is finite** unless its text is too large. -/
theorem ofText_isFinite_iff (h : ofText cs = .number n) : n.isFinite = true ↔ ¬Overflows cs :=
  number?_isFinite_iff (number?_of_ofText h)

theorem overflows_iff : Overflows cs ↔ (number? (Text.trim cs)).any (!·.isFinite) = true := by
  cases h : number? (Text.trim cs) with
  | none =>
    refine iff_of_false (fun hover => ?_) Bool.false_ne_true
    obtain ⟨negative, d, hd, -⟩ := hover
    exact number?_eq_none_iff.1 h ⟨negative, d, hd⟩
  | some n =>
    rw [Option.any_some, Bool.not_eq_true', ← Bool.not_eq_true, number?_isFinite_iff h, not_not]

instance : DecidablePred Overflows := fun _ => decidable_of_iff _ overflows_iff.symm

end Scalar

/-! ## What is decoded -/

/-- **A scalar that is no number, or one that a piece of the text writes**: it is finite unless the piece writes a decimal
too large for a double. -/
def Scalar.TypedFrom (text : String) (x : Scalar) : Prop :=
  ∀ n, x = .number n → ∃ cs, cs <:+: text.toList ∧ Scalar.ofText cs = .number n ∧
    (n.isFinite = true ↔ ¬Scalar.Overflows cs)

theorem Scalar.typedFrom_ofText (h : cs <:+: text.toList) : (Scalar.ofText cs).TypedFrom text := fun _ hn =>
  ⟨cs, h, hn, Scalar.ofText_isFinite_iff hn⟩

theorem decodeYaml_typedFrom (h : decodeYaml text = .ok v) : v.Everywhere (Value.IfScalar (Scalar.TypedFrom text)) := by
  refine (Yaml.everywhere_piece h).imp fun u hu => hu.imp ?_
  rintro x (rfl | ⟨cs, hcs, rfl⟩)
  · nofun
  · exact Scalar.typedFrom_ofText hcs

theorem decodeJson_finite (h : decodeJson text = .ok v) : v.Everywhere (Value.IfScalar Scalar.FiniteNumber) :=
  Json.document_finite (Json.document_of_decodeJson h)

theorem Filter.literal_typedFrom [Pattern.Engine] {p : Predicate} (h : Filter.parse text = .ok p) :
    p.literal.TypedFrom text := by
  obtain ⟨w, rfl⟩ := exists_written_iff.2 (.inl ⟨p, h⟩)
  rw [w.parse_text] at h
  obtain ⟨-, -, hliteral⟩ := Predicate.ofScalar_eq_ok h
  have hvalue : w.value <:+: w.text.toList := by
    rw [Written.text, String.toList_ofList, Written.rest]
    refine ⟨w.before ++ (w.field ++ (w.behindField ++ (w.operator.symbol.toList ++ w.behindOperator))), w.after, ?_⟩
    simp only [List.append_assoc]
  rw [hliteral]
  cases hop : w.operator with
  | search =>
    intro n hn
    cases hn
  | _ => exact Scalar.typedFrom_ofText hvalue

/-- **Numbers are finite, but for decimals too large for a double in bare text.**  All numbers of a JSON text are finite.
A number of a block document or of a filter is what a piece of the text is typed as, and it is infinite where the piece
writes a decimal that is too large.  JSON output has a null at the places of the null and of the numbers that are not
finite, and at no other; so it has nulls for nulls only, unless a block document writes a decimal that is too large. -/
theorem numbers_finite [Pattern.Engine] (text : String) :
    (∀ v, decodeJson text = .ok v → v.Everywhere (Value.IfScalar Scalar.FiniteNumber)) ∧
    (∀ v, decodeYaml text = .ok v → v.Everywhere (Value.IfScalar (Scalar.TypedFrom text))) ∧
    (∀ p, Filter.parse text = .ok p → p.literal.TypedFrom text) ∧
    (∀ (spacing : Json.Spacing) (v w : Value) (trail : Trail) (address : Address),
      v.locate? trail = some (address, w) →
      (Json.NullAt spacing v trail ↔ w = .scalar .null ∨ ∃ n, w = .scalar (.number n) ∧ n.isFinite = false)) ∧
    ∀ (format : Format) (v : Value), decode format text = .ok v →
      (format = .yaml → ∀ cs, cs <:+: text.toList → ¬Scalar.Overflows cs) →
      ∀ (spacing : Json.Spacing) (w : Value) (trail : Trail) (address : Address),
        v.locate? trail = some (address, w) → (Json.NullAt spacing v trail ↔ w = .scalar .null) := by
  refine ⟨fun v => decodeJson_finite, fun v => decodeYaml_typedFrom, fun p => Filter.literal_typedFrom,
    fun spacing v w trail address => Json.nullAt_iff, fun format v hdecode hpieces spacing w trail address hw => ?_⟩
  have hfinite : v.Everywhere (Value.IfScalar Scalar.FiniteNumber) := by
    cases format with
    | json => exact decodeJson_finite hdecode
    | yaml =>
      refine (decodeYaml_typedFrom hdecode).imp fun u hu => hu.imp fun x hx n hn => ?_
      obtain ⟨cs, hcs, -, hiff⟩ := hx n hn
      exact hiff.2 (hpieces rfl cs hcs)
  rw [Json.nullAt_iff hw, or_iff_left]
  rintro ⟨n, rfl, hn⟩
  have htrue : n.isFinite = true := hfinite.of_locate? hw n rfl
  rw [hn] at htrue
  cases htrue

/-- Numbers that are not too large: a float and a null of a block document, of which the null alone is written as one,
a float of a JSON text, and the literal of a filter. -/
theorem numbers_finite_small :
    (∃ v, decodeYaml "k: 1.5\nn:" = .ok v ∧ v.Everywhere (Value.IfScalar (Scalar.TypedFrom "k: 1.5\nn:")) ∧
      (∀ cs, cs <:+: "k: 1.5\nn:".toList → ¬Scalar.Overflows cs) ∧
      ∀ spacing, ¬Json.NullAt spacing v [0] ∧ Json.NullAt spacing v [1]) ∧
    (∃ v, decodeJson "[0.5]" = .ok v ∧ v.Everywhere (Value.IfScalar Scalar.FiniteNumber)) ∧
    ∃ p, Filter.parse "k == 0.5" = .ok p ∧ p.literal.TypedFrom "k == 0.5" := by
  obtain ⟨-, hblock, -, -, hnulls⟩ := numbers_finite "k: 1.5\nn:"
  have hdecode : decodeYaml "k: 1.5\nn:" =
      .ok (.object [("k", .scalar (.number (.float (.ofDecimal false ⟨15, -1⟩)))), ("n", .null)]) := by rfl
  have hpieces : ∀ cs, cs <:+: "k: 1.5\nn:".toList → ¬Scalar.Overflows cs := by
    have hall : ∀ t ∈ "k: 1.5\nn:".toList.tails, ∀ cs ∈ t.inits, ¬Scalar.Overflows cs := by decide +kernel
    intro cs hcs
    obtain ⟨t, hprefix, hsuffix⟩ := List.infix_iff_prefix_suffix.1 hcs
    exact hall t ((List.mem_tails _ _).2 hsuffix) cs ((List.mem_inits _ _).2 hprefix)
  obtain ⟨v, hjson⟩ : ∃ v, decodeJson "[0.5]" = .ok v := ⟨_, rfl⟩
  refine ⟨⟨_, hdecode, hblock _ hdecode, hpieces, fun spacing => ⟨?_, ?_⟩⟩,
    ⟨_, hjson, (numbers_finite "[0.5]").1 _ hjson⟩, _, rfl, (numbers_finite "k == 0.5").2.2.1 _ rfl⟩
  · exact fun h => nomatch (hnulls .yaml _ hdecode (fun _ => hpieces) spacing _ [0] _ rfl).1 h
  · exact (hnulls .yaml _ hdecode (fun _ => hpieces) spacing _ [1] _ rfl).2 rfl

/-- A decimal that is too large: a value of a block document and a literal of a filter that are infinite, and a null
in the place of the value. -/
theorem infinite_number_decoded : ∃ v : Value,
    decodeYaml "k: 1e999" = .ok v ∧
    v.locate? [0] = some ([.key "k"], .scalar (.number (.float (.infinite false)))) ∧
    ¬v.Everywhere (Value.IfScalar Scalar.FiniteNumber) ∧
    v.compactJson = "\x7b\"k\":null\x7d" ∧ Json.NullAt .compact v [0] ∧ Json.NullAt .indented v [0] ∧
    (Filter.parse "k == 1e999").map (fun p => p.literal) = .ok (.number (.float (.infinite false))) := by
  have hplace : (Value.object [("k", .scalar (.number (.float (.infinite false))))]).locate? [0] =
      some ([.key "k"], .scalar (.number (.float (.infinite false)))) := rfl
  have hnull : ∀ spacing, Json.NullAt spacing (.object [("k", .scalar (.number (.float (.infinite false))))]) [0] :=
    fun spacing => (Json.nullAt_iff hplace).2 (.inr ⟨_, rfl, rfl⟩)
  refine ⟨.object [("k", .scalar (.number (.float (.infinite false))))], by rfl, hplace, fun h => ?_, by decide, hnull _,
    hnull _, by rfl⟩
  exact absurd (h.of_locate? hplace _ rfl) (by decide)

end DocQuery
