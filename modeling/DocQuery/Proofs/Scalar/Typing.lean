import DocQuery.Proofs.Scalar.Grammar
import DocQuery.Proofs.Scalar.Quotes
/-!
# The typing of bare text

Bare text that is not between quotes is a word, a number or a string, by its form (`ofText_typed`).  The reader of
numbers takes a text apart at once; it does what three stages do, of which the first only looks at characters
(`number?_eq_screenedNumber?`) and refuses the infinities and the not-a-number that a reader of doubles accepts.
-/
namespace DocQuery.Scalar

variable {negative : Bool} {sign cs w text : List Char} {d : Decimal} {i : Int64} {x : Double}

/-! ## Screening -/

def isNumeral (c : Char) : Bool :=
  c.isDigit || ['.', 'e', 'E', '-', '+'].contains c

/-- Whether a text looks like a number: behind its sign it begins with a digit or a point, has a digit, and holds
nothing that a number cannot hold. -/
def screened (cs : List Char) : Bool :=
  let digits := (splitSign cs).2
  digits.head?.any (fun c => c.isDigit || c == '.') && digits.any Char.isDigit && digits.all isNumeral

def integer? (cs : List Char) : Option Int64 :=
  let (negative, digits) := splitSign cs
  if digits.all Char.isDigit && !digits.isEmpty then
    int64? (Double.signed negative (Nat.ofDigitChars 10 digits 0))
  else none

/-- The double of a text, where infinities and the not-a-number have texts too. -/
def double? (cs : List Char) : Option Double :=
  let (negative, rest) := splitSign cs
  let lower := rest.map Char.toLower
  if lower = "inf".toList || lower = "infinity".toList then some (.infinite negative)
  else if lower = "nan".toList then some .nan
  else (decimal? rest).map (.ofDecimal negative)

/-- A number read in three stages: what does not look like one is refused, digits alone are an integer if they are in
range, and everything else is left to the reader of doubles. -/
def screenedNumber? (cs : List Char) : Option Number :=
  if screened cs then
    ((if (splitSign cs).2.all Char.isDigit then integer? cs else none).map .integer).or ((double? cs).map .float)
  else none

/-- **The text of an infinity or of a not-a-number**, in any case. -/
inductive SpecialText : List Char → Prop
  | intro {negative : Bool} {sign word : List Char} (hsign : Sign negative sign)
    (hword : word.map Char.toLower ∈ ["inf".toList, "infinity".toList, "nan".toList]) : SpecialText (sign ++ word)

theorem screened_iff : screened cs = true ↔ (∃ c ∈ (splitSign cs).2.head?, c.isDigit = true ∨ c = '.') ∧
    (∃ c ∈ (splitSign cs).2, c.isDigit = true) ∧ ∀ c ∈ (splitSign cs).2, isNumeral c = true := by
  simp [screened, Option.any_eq_true, and_assoc]

theorem isNumeral_of_isDigit {c : Char} (h : c.isDigit = true) : isNumeral c = true := by
  rw [isNumeral, h, Bool.true_or]

theorem Mantissa.isNumeral {n k : Nat} (h : Mantissa n k cs) : ∀ c ∈ cs, isNumeral c = true := by
  intro c hc
  have hpoint : Scalar.isNumeral '.' = true := rfl
  cases h with
  | whole hw => exact isNumeral_of_isDigit (hw.isDigit c hc)
  | point hw hf =>
    rcases List.mem_append.1 hc with hc | hc
    · exact isNumeral_of_isDigit (hw.isDigit c hc)
    rcases List.mem_cons.1 hc with rfl | hc
    · exact hpoint
    · exact isNumeral_of_isDigit (hf c hc)
  | fraction hf =>
    rcases List.mem_cons.1 hc with rfl | hc
    · exact hpoint
    · exact isNumeral_of_isDigit (hf.isDigit c hc)

theorem Sign.isNumeral (h : Sign negative sign) : ∀ c ∈ sign, isNumeral c = true := by
  cases h with
  | none => nofun
  | plus =>
    intro c hc
    rw [List.mem_singleton.1 hc]
    rfl
  | minus =>
    intro c hc
    rw [List.mem_singleton.1 hc]
    rfl

theorem Exponent.isNumeral {e : Int} (h : Exponent e cs) : ∀ c ∈ cs, isNumeral c = true := by
  cases h with
  | none => nofun
  | power hletter hsign hdigits =>
    intro c hc
    rcases List.mem_cons.1 hc with rfl | hc
    · rcases hletter with rfl | rfl <;> rfl
    rcases List.mem_append.1 hc with hc | hc
    · exact hsign.isNumeral c hc
    · exact isNumeral_of_isDigit (hdigits.isDigit c hc)

theorem UnsignedText.isNumeral (h : UnsignedText d cs) : ∀ c ∈ cs, isNumeral c = true := by
  obtain ⟨hm, hx⟩ := h
  exact fun c hc => (List.mem_append.1 hc).elim (hm.isNumeral c) (hx.isNumeral c)

theorem DecimalText.isNumeral (h : DecimalText negative d cs) : ∀ c ∈ cs, isNumeral c = true := by
  obtain ⟨hsign, h⟩ := h
  exact fun c hc => (List.mem_append.1 hc).elim (hsign.isNumeral c) (h.isNumeral c)

theorem screened_of_decimalText (h : DecimalText negative d cs) : screened cs = true := by
  have htext := decimal?_eq_some_iff.1 (decimalText_iff.1 h).2
  have hnumeral := htext.isNumeral
  rw [screened_iff]
  generalize (splitSign cs).2 = digits at *
  obtain ⟨hm, -⟩ := htext
  obtain ⟨c, hc, hdigit⟩ := hm.exists_digit
  refine ⟨?_, ⟨c, List.mem_append_left _ hc, hdigit⟩, hnumeral⟩
  obtain ⟨c, ds, rfl, hopens⟩ := hm.exists_cons
  exact ⟨c, rfl, hopens⟩

theorem exists_letter (h : w.map Char.toLower ∈ ["inf".toList, "infinity".toList, "nan".toList]) :
    ∃ c ds, w = c :: ds ∧ (c ≠ '-' ∧ c ≠ '+') ∧ ¬(c.isDigit = true ∨ c = '.') := by
  cases w with
  | nil => simp at h
  | cons c ds =>
    have hletter : c.toLower = 'i' ∨ c.toLower = 'n' := by
      simp only [List.map_cons, List.mem_cons, List.not_mem_nil, or_false] at h
      rcases h with h | h | h
      · exact .inl (List.cons.inj h).1
      · exact .inl (List.cons.inj h).1
      · exact .inr (List.cons.inj h).1
    have hlower : c.toLower ≠ c ∨ c = 'i' ∨ c = 'n' := by
      by_cases hc : c.toLower = c
      · exact .inr (hc ▸ hletter)
      · exact .inl hc
    have hne : ∀ d : Char, d.toLower = d → d ≠ 'i' → d ≠ 'n' → c ≠ d := by
      rintro d hd hi hn rfl
      exact hletter.elim (fun h => hi (hd ▸ h)) fun h => hn (hd ▸ h)
    refine ⟨c, ds, rfl, ⟨hne '-' rfl (by decide) (by decide), hne '+' rfl (by decide) (by decide)⟩, ?_⟩
    rintro (hc | hc)
    · rw [(of_isDigit hc).2] at hletter
      rcases hletter with rfl | rfl <;> cases hc
    · exact hne '.' rfl (by decide) (by decide) hc

theorem specialText_iff : SpecialText cs ↔
    (splitSign cs).2.map Char.toLower ∈ ["inf".toList, "infinity".toList, "nan".toList] := by
  constructor
  · rintro ⟨hsign, hword⟩
    obtain ⟨c, ds, rfl, hne, -⟩ := exists_letter hword
    rw [splitSign_append hsign]
    · exact hword
    · rintro d ⟨⟩
      exact hne
  · intro h
    obtain ⟨sign, hsign, hcs⟩ := exists_sign cs
    have htext := SpecialText.intro hsign h
    rwa [← hcs] at htext

theorem screened_of_specialText (h : SpecialText cs) : screened cs = false := by
  obtain ⟨c, ds, hcs, -, hopens⟩ := exists_letter (specialText_iff.1 h)
  rw [← Bool.not_eq_true, screened_iff, hcs]
  rintro ⟨⟨d, ⟨⟩, hd⟩, -⟩
  exact hopens hd

theorem double?_of_not_specialText (h : ¬SpecialText cs) :
    double? cs = (decimal? (splitSign cs).2).map (.ofDecimal (splitSign cs).1) := by
  rw [specialText_iff] at h
  simp only [List.mem_cons, List.not_mem_nil, or_false, not_or] at h
  unfold double?
  simp only [h, decide_false, Bool.or_self, Bool.false_eq_true, if_false]

theorem exists_double?_iff : (∃ x, double? cs = some x) ↔ (∃ negative d, DecimalText negative d cs) ∨ SpecialText cs := by
  by_cases hspecial : SpecialText cs
  · refine iff_of_true ?_ (.inr hspecial)
    have hword := specialText_iff.1 hspecial
    simp only [List.mem_cons, List.not_mem_nil, or_false] at hword
    unfold double?
    rcases hword with h | h | h
    · exact ⟨.infinite (splitSign cs).1, by simp only [h]; rfl⟩
    · exact ⟨.infinite (splitSign cs).1, by simp only [h]; rfl⟩
    · exact ⟨.nan, by simp only [h]; rfl⟩
  · rw [double?_of_not_specialText hspecial, or_iff_left hspecial]
    constructor
    · rintro ⟨x, hx⟩
      obtain ⟨d, hd, -⟩ := Option.map_eq_some_iff.1 hx
      exact ⟨_, d, decimalText_iff.2 ⟨rfl, hd⟩⟩
    · rintro ⟨negative, d, h⟩
      exact ⟨_, by rw [(decimalText_iff.1 h).2]; rfl⟩

theorem integer?_eq_some_iff : integer? cs = some i ↔ IntegerText i.toInt cs := by
  rw [integerText_iff, ← int64?_eq_some_iff, digits_iff]
  unfold integer?
  dsimp only
  split <;> simp_all

/-- **Numbers are read in the three stages.** -/
theorem number?_eq_screenedNumber? (cs : List Char) : number? cs = screenedNumber? cs := by
  unfold screenedNumber?
  by_cases hscreened : screened cs = true
  · rw [if_pos hscreened]
    have hspecial : ¬SpecialText cs := fun h => by
      rw [screened_of_specialText h] at hscreened
      cases hscreened
    rw [double?_of_not_specialText hspecial, Option.map_map]
    rcases number?_cases cs with ⟨i, hi, hn⟩ | ⟨hnot, hn⟩
    · have hdigits := (digits_iff.1 (integerText_iff.1 hi).1)
      rw [Bool.and_eq_true] at hdigits
      rw [hn, if_pos hdigits.1, integer?_eq_some_iff.2 hi]
      rfl
    · have hnone : integer? cs = none :=
        Option.eq_none_iff_forall_ne_some.2 fun i hi => hnot ⟨i, integer?_eq_some_iff.1 hi⟩
      rw [hn, hnone, ite_self]
      rfl
  · rw [if_neg hscreened, number?_eq_none_iff]
    rintro ⟨negative, d, h⟩
    exact hscreened (screened_of_decimalText h)

/-! ## Words -/

inductive WordText : Scalar → List Char → Prop
  | trueWord {cs : List Char} (h : cs.map Char.toLower = "true".toList) : WordText (.boolean true) cs
  | falseWord {cs : List Char} (h : cs.map Char.toLower = "false".toList) : WordText (.boolean false) cs
  | nullWord {cs : List Char} (h : cs.map Char.toLower = "null".toList) : WordText .null cs
  | noneWord {cs : List Char} (h : cs.map Char.toLower = "none".toList) : WordText .null cs

theorem word?_eq_some_iff {v : Scalar} : word? cs = some v ↔ WordText v cs := by
  constructor
  · intro h
    unfold word? at h
    dsimp only at h
    split at h
    · rename_i hword
      cases h
      exact .trueWord hword
    split at h
    · rename_i hword
      cases h
      exact .falseWord hword
    split at h
    · rename_i hword
      cases h
      rw [Bool.or_eq_true, decide_eq_true_eq, decide_eq_true_eq] at hword
      exact hword.elim .nullWord .noneWord
    · cases h
  · intro h
    cases h with
    | trueWord h => simp [word?, h]
    | falseWord h => simp [word?, h]
    | nullWord h => simp [word?, h]
    | noneWord h => simp [word?, h]

theorem wordText_boolean_iff {b : Bool} : WordText (.boolean b) cs ↔
    cs.map Char.toLower = if b then "true".toList else "false".toList := by
  constructor
  · intro h
    cases h with
    | trueWord h => exact h
    | falseWord h => exact h
  · intro h
    cases b with
    | true => exact .trueWord h
    | false => exact .falseWord h

theorem wordText_null_iff : WordText .null cs ↔
    cs.map Char.toLower = "null".toList ∨ cs.map Char.toLower = "none".toList := by
  constructor
  · intro h
    cases h with
    | nullWord h => exact .inl h
    | noneWord h => exact .inr h
  · intro h
    exact h.elim .nullWord .noneWord

theorem exists_wordText_iff : (∃ v, WordText v cs) ↔
    cs.map Char.toLower ∈ ["true".toList, "false".toList, "null".toList, "none".toList] := by
  simp only [List.mem_cons, List.not_mem_nil, or_false]
  constructor
  · rintro ⟨v, h⟩
    cases h with
    | trueWord h => exact .inl h
    | falseWord h => exact .inr (.inl h)
    | nullWord h => exact .inr (.inr (.inl h))
    | noneWord h => exact .inr (.inr (.inr h))
  · rintro (h | h | h | h)
    · exact ⟨_, .trueWord h⟩
    · exact ⟨_, .falseWord h⟩
    · exact ⟨_, .nullWord h⟩
    · exact ⟨_, .noneWord h⟩

theorem WordText.not_isDigit {v : Scalar} (h : WordText v cs) : ∀ c ∈ cs, c.isDigit = false := by
  have hletters : ∀ word ∈ ["true".toList, "false".toList, "null".toList, "none".toList],
      word.any Char.isDigit = false := by decide
  intro c hc
  rw [← Bool.not_eq_true]
  intro hdigit
  have hnone := hletters _ (exists_wordText_iff.1 ⟨v, h⟩)
  rw [List.any_map, List.any_eq_false] at hnone
  have hlower := hnone c hc
  rw [Function.comp_apply, (of_isDigit hdigit).2, hdigit] at hlower
  exact hlower rfl

theorem DecimalText.not_wordText (h : DecimalText negative d cs) (v : Scalar) : ¬WordText v cs := by
  intro hword
  obtain ⟨hsign, ⟨hm, hx⟩⟩ := h
  obtain ⟨c, hc, hdigit⟩ := hm.exists_digit
  rw [hword.not_isDigit c (by simp [hc])] at hdigit
  cases hdigit

/-! ## Bare text -/

/-- **Bare text is a word, a number or a string**, and only one of them. -/
theorem ofText_cases (h : ¬Quoted.Enclosed (Text.trim text)) :
    (∃ v, WordText v (Text.trim text) ∧ ofText text = v) ∨
    (∃ n, (¬∃ v, WordText v (Text.trim text)) ∧ number? (Text.trim text) = some n ∧ ofText text = .number n) ∨
    (¬∃ v, WordText v (Text.trim text)) ∧ number? (Text.trim text) = none ∧
      ofText text = .string (String.ofList (Text.trim text)) := by
  rw [ofText, ofTrimmed, Quoted.unquote?_eq_none_iff.2 h]
  dsimp only
  cases hword : word? (Text.trim text) with
  | some v => exact .inl ⟨v, word?_eq_some_iff.1 hword, rfl⟩
  | none =>
    have hnot : ¬∃ v, WordText v (Text.trim text) := by
      rintro ⟨v, hv⟩
      rw [word?_eq_some_iff.2 hv] at hword
      cases hword
    cases hnumber : number? (Text.trim text) with
    | some n => exact .inr (.inl ⟨n, hnot, rfl, rfl⟩)
    | none => exact .inr (.inr ⟨hnot, rfl, rfl⟩)

theorem WordText.kind {v : Scalar} (h : WordText v cs) : (∃ b, v = .boolean b) ∨ v = .null := by
  cases h with
  | trueWord => exact .inl ⟨_, rfl⟩
  | falseWord => exact .inl ⟨_, rfl⟩
  | nullWord => exact .inr rfl
  | noneWord => exact .inr rfl

theorem ofText_eq_word_iff {v : Scalar} (h : ¬Quoted.Enclosed (Text.trim text)) (hv : (∃ b, v = .boolean b) ∨ v = .null) :
    ofText text = v ↔ WordText v (Text.trim text) := by
  rcases ofText_cases h with ⟨v', hv', ht⟩ | ⟨n, hnot, -, ht⟩ | ⟨hnot, -, ht⟩
  · rw [ht]
    constructor
    · rintro rfl
      exact hv'
    · intro hword
      exact Option.some.inj ((word?_eq_some_iff.2 hv').symm.trans (word?_eq_some_iff.2 hword))
  · rw [ht]
    refine iff_of_false ?_ fun hword => hnot ⟨v, hword⟩
    rcases hv with ⟨b, rfl⟩ | rfl <;> nofun
  · rw [ht]
    refine iff_of_false ?_ fun hword => hnot ⟨v, hword⟩
    rcases hv with ⟨b, rfl⟩ | rfl <;> nofun

theorem ofText_eq_number_iff {n : Number} (h : ¬Quoted.Enclosed (Text.trim text)) :
    ofText text = .number n ↔ number? (Text.trim text) = some n := by
  rcases ofText_cases h with ⟨v, hv, ht⟩ | ⟨m, -, hm, ht⟩ | ⟨-, hnone, ht⟩
  · have hnone : number? (Text.trim text) = none :=
      number?_eq_none_iff.2 fun ⟨_, _, hdecimal⟩ => hdecimal.not_wordText v hv
    rw [ht, hnone]
    refine iff_of_false ?_ nofun
    rcases hv.kind with ⟨b, rfl⟩ | rfl <;> nofun
  · rw [ht, hm, Option.some_inj]
    exact ⟨Scalar.number.inj, congrArg _⟩
  · rw [ht, hnone]
    exact iff_of_false nofun nofun

theorem DecimalText.trimmed (h : DecimalText negative d cs) : Text.Trimmed cs := by
  refine .of_all ?_ fun c hc => ?_
  · rintro rfl
    have hnone : decimal? [] = none := by decide
    have hsome : decimal? [] = some d := (decimalText_iff.1 h).2
    rw [hnone] at hsome
    cases hsome
  · have hnumeral := h.isNumeral c hc
    simp only [Scalar.isNumeral, Bool.or_eq_true, List.contains_iff_mem, List.mem_cons, List.not_mem_nil, or_false]
      at hnumeral
    rcases hnumeral with hdigit | rfl | rfl | rfl | rfl | rfl
    · exact (of_isDigit hdigit).1
    all_goals rfl

theorem DecimalText.not_enclosed (h : DecimalText negative d cs) : ¬Quoted.Enclosed cs := by
  rintro ⟨quote, inner, hquote, rfl⟩
  have hnumeral := h.isNumeral quote (by simp)
  rcases hquote with rfl | rfl <;> cases hnumeral

theorem DecimalText.ofText_eq_number_iff (h : DecimalText negative d cs) {n : Number} :
    ofText cs = .number n ↔ number? cs = some n := by
  have htrim := h.trimmed.trim_eq
  have hbare : ¬Quoted.Enclosed (Text.trim cs) := by
    rw [htrim]
    exact h.not_enclosed
  have hnumber := Scalar.ofText_eq_number_iff (n := n) hbare
  rwa [htrim] at hnumber

theorem ofText_eq_string_iff {t : String} (h : ¬Quoted.Enclosed (Text.trim text)) : ofText text = .string t ↔
    t = String.ofList (Text.trim text) ∧ (¬∃ v, WordText v (Text.trim text)) ∧
      ¬∃ negative d, DecimalText negative d (Text.trim text) := by
  rw [← number?_eq_none_iff]
  rcases ofText_cases h with ⟨v, hv, ht⟩ | ⟨n, -, hn, ht⟩ | ⟨hnot, hnone, ht⟩
  · rw [ht]
    refine iff_of_false ?_ fun hs => hs.2.1 ⟨v, hv⟩
    rcases hv.kind with ⟨b, rfl⟩ | rfl <;> nofun
  · rw [ht, hn]
    exact iff_of_false nofun fun hs => by cases hs.2.2
  · rw [ht]
    constructor
    · rintro ⟨⟩
      exact ⟨rfl, hnot, hnone⟩
    · rintro ⟨rfl, -⟩
      rfl

/-- **Bare text is typed by its form.**  Without the blanks around it, it is a truth value or null if it is one of their
words in any case, an integer if it is digits behind a sign or none that are in range, a float if it is any other decimal,
and otherwise the string that it is.  Read in stages, a number first has to look like one: of what the reader of doubles
accepts, decimals and the words for infinities and for the not-a-number, these words are what is refused for its looks. -/
theorem ofText_typed (h : ¬Quoted.Enclosed (Text.trim text)) :
    (∀ b, ofText text = .boolean b ↔
      (Text.trim text).map Char.toLower = if b then "true".toList else "false".toList) ∧
    (ofText text = .null ↔ (Text.trim text).map Char.toLower = "null".toList ∨
      (Text.trim text).map Char.toLower = "none".toList) ∧
    (∀ i, ofText text = .number (.integer i) ↔ IntegerText i.toInt (Text.trim text)) ∧
    (∀ x, ofText text = .number (.float x) ↔
      (∃ negative d, DecimalText negative d (Text.trim text) ∧ x = .ofDecimal negative d) ∧
        ¬∃ i : Int64, IntegerText i.toInt (Text.trim text)) ∧
    (∀ t, ofText text = .string t ↔ t = String.ofList (Text.trim text) ∧
      (Text.trim text).map Char.toLower ∉ ["true".toList, "false".toList, "null".toList, "none".toList] ∧
        ¬∃ negative d, DecimalText negative d (Text.trim text)) ∧
    (∀ cs, number? cs = screenedNumber? cs) ∧
    (∀ cs, (∃ x, double? cs = some x) ↔ (∃ negative d, DecimalText negative d cs) ∨ SpecialText cs) ∧
    ∀ cs, (∃ x, double? cs = some x) → (screened cs = false ↔ SpecialText cs) := by
  refine ⟨fun b => ?_, ?_, fun i => ?_, fun x => ?_, fun t => ?_, number?_eq_screenedNumber?,
    fun cs => exists_double?_iff, fun cs hcs => ⟨fun hscreened => ?_, screened_of_specialText⟩⟩
  · rw [ofText_eq_word_iff h (.inl ⟨b, rfl⟩), wordText_boolean_iff]
  · rw [ofText_eq_word_iff h (.inr rfl), wordText_null_iff]
  · rw [ofText_eq_number_iff h, number?_eq_integer_iff]
  · rw [ofText_eq_number_iff h, number?_eq_float_iff]
  · rw [ofText_eq_string_iff h, exists_wordText_iff]
  · rcases exists_double?_iff.1 hcs with ⟨negative, d, hdecimal⟩ | hspecial
    · rw [screened_of_decimalText hdecimal] at hscreened
      cases hscreened
    · exact hspecial

/-- An integer that is just out of range is a float. -/
theorem ofText_typed_out_of_range : ¬Quoted.Enclosed (Text.trim "\t+9223372036854775808 ".toList) ∧
    ofText "\t+9223372036854775808 ".toList = .number (.float (.ofDecimal false ⟨9223372036854775808, 0⟩)) := by
  have htrim : Text.trim "\t+9223372036854775808 ".toList = "+9223372036854775808".toList := by decide
  have hbare : ¬Quoted.Enclosed (Text.trim "\t+9223372036854775808 ".toList) :=
    Quoted.unquote?_eq_none_iff.1 (by decide)
  have hdecimal : DecimalText false ⟨9223372036854775808, 0⟩ "+9223372036854775808".toList :=
    decimalText_iff.2 ⟨rfl, by decide⟩
  obtain ⟨-, -, -, hfloat, -⟩ := ofText_typed hbare
  refine ⟨hbare, (hfloat _).2 ⟨⟨_, _, htrim ▸ hdecimal, rfl⟩, ?_⟩⟩
  rintro ⟨i, hi⟩
  rw [htrim] at hi
  have hvalue : 9223372036854775808 = i.toInt := (integerText_iff.1 hi).2
  have hmax : i.toInt ≤ 9223372036854775807 := i.toInt_le
  omega

end DocQuery.Scalar
