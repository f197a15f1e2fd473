import DocQuery.Proofs.Scalar.Writing
/-!
# The grammar of numbers

A number is written with a sign, digits, a point among them and an exponent, and each of these parts stands for
something.  The readers of the parts accept just what is written so (`exponent?_eq_some_iff`, `decimal?_eq_some_iff`), and
a text is a number where it is a decimal: an integer if it is digits in range, and a float otherwise
(`number?_eq_integer_iff`, `number?_eq_float_iff`, `number?_eq_none_iff`).
-/
namespace DocQuery.Scalar

/-! ## The forms of numbers -/

inductive Sign : Bool → List Char → Prop
  | none : Sign false []
  | plus : Sign false ['+']
  | minus : Sign true ['-']

structure Digits (cs : List Char) : Prop where
  ne_nil : cs ≠ []
  isDigit : ∀ c ∈ cs, c.isDigit = true

/-- **The text of an integer**: digits behind a sign or none. -/
inductive IntegerText : Int → List Char → Prop
  | intro {negative : Bool} {sign digits : List Char} (hsign : Sign negative sign) (hdigits : Digits digits) :
    IntegerText (Double.signed negative (Nat.ofDigitChars 10 digits 0)) (sign ++ digits)

/-- **Digits with a point or none**: the number that they write without the point, and how many are behind it. -/
inductive Mantissa : Nat → Nat → List Char → Prop
  | whole {w : List Char} (hw : Digits w) : Mantissa (Nat.ofDigitChars 10 w 0) 0 w
  | point {w f : List Char} (hw : Digits w) (hf : ∀ c ∈ f, c.isDigit = true) :
    Mantissa (Nat.ofDigitChars 10 (w ++ f) 0) f.length (w ++ '.' :: f)
  | fraction {f : List Char} (hf : Digits f) : Mantissa (Nat.ofDigitChars 10 f 0) f.length ('.' :: f)

inductive Exponent : Int → List Char → Prop
  | none : Exponent 0 []
  | power {letter : Char} {negative : Bool} {sign digits : List Char} (hletter : letter = 'e' ∨ letter = 'E')
    (hsign : Sign negative sign) (hdigits : Digits digits) :
    Exponent (Double.signed negative (Nat.ofDigitChars 10 digits 0)) (letter :: (sign ++ digits))

inductive UnsignedText : Decimal → List Char → Prop
  | intro {n k : Nat} {e : Int} {m x : List Char} (hm : Mantissa n k m) (hx : Exponent e x) :
    UnsignedText ⟨n, e - k⟩ (m ++ x)

/-- **The text of a decimal**, and whether it is negative. -/
inductive DecimalText : Bool → Decimal → List Char → Prop
  | intro {negative : Bool} {d : Decimal} {sign cs : List Char} (hsign : Sign negative sign) (h : UnsignedText d cs) :
    DecimalText negative d (sign ++ cs)

variable {negative : Bool} {sign cs w f rest : List Char} {d : Decimal} {n : Int} {i : Int64} {x : Double}

/-! ## Signs -/

theorem splitSign_append (h : Sign negative sign) (hcs : ∀ c ∈ cs.head?, c ≠ '-' ∧ c ≠ '+') :
    splitSign (sign ++ cs) = (negative, cs) := by
  cases h with
  | plus => rfl
  | minus => rfl
  | none =>
    rw [List.nil_append, splitSign]
    · rintro ds rfl
      exact (hcs '-' rfl).1 rfl
    · rintro ds rfl
      exact (hcs '+' rfl).2 rfl

theorem exists_sign (cs : List Char) : ∃ sign, Sign (splitSign cs).1 sign ∧ cs = sign ++ (splitSign cs).2 := by
  unfold splitSign
  split
  · exact ⟨_, .minus, rfl⟩
  · exact ⟨_, .plus, rfl⟩
  · exact ⟨_, .none, rfl⟩

theorem ne_sign_of_isDigit {c : Char} (h : c.isDigit = true) : c ≠ '-' ∧ c ≠ '+' := by
  constructor
  · rintro rfl
    cases h
  · rintro rfl
    cases h

theorem Digits.ne_sign (h : Digits cs) : ∀ c ∈ cs.head?, c ≠ '-' ∧ c ≠ '+' := fun c hc =>
  ne_sign_of_isDigit (h.isDigit c (List.mem_of_head? hc))

theorem digits_iff : Digits cs ↔ (cs.all Char.isDigit && !cs.isEmpty) = true := by
  simp only [Bool.and_eq_true, List.all_eq_true, Bool.not_eq_true', List.isEmpty_eq_false_iff]
  exact ⟨fun h => ⟨h.isDigit, h.ne_nil⟩, fun h => ⟨h.2, h.1⟩⟩

theorem integerText_iff : IntegerText n cs ↔
    Digits (splitSign cs).2 ∧ Double.signed (splitSign cs).1 (Nat.ofDigitChars 10 (splitSign cs).2 0) = n := by
  constructor
  · rintro ⟨hsign, hdigits⟩
    rw [splitSign_append hsign hdigits.ne_sign]
    exact ⟨hdigits, rfl⟩
  · rintro ⟨hdigits, rfl⟩
    obtain ⟨sign, hsign, hcs⟩ := exists_sign cs
    have h := IntegerText.intro hsign hdigits
    rwa [← hcs] at h

theorem Digits.exists_cons (h : Digits cs) : ∃ c ds, cs = c :: ds ∧ c.isDigit = true := by
  obtain ⟨c, ds, rfl⟩ := List.exists_cons_of_ne_nil h.ne_nil
  exact ⟨c, ds, rfl, h.isDigit c List.mem_cons_self⟩

/-! ## Decimals -/

theorem Mantissa.exists_cons {n k : Nat} (h : Mantissa n k cs) : ∃ c ds, cs = c :: ds ∧ (c.isDigit = true ∨ c = '.') := by
  cases h with
  | whole hw =>
    obtain ⟨c, ds, rfl, hc⟩ := hw.exists_cons
    exact ⟨c, ds, rfl, .inl hc⟩
  | point hw _ =>
    obtain ⟨c, ds, rfl, hc⟩ := hw.exists_cons
    exact ⟨c, _, rfl, .inl hc⟩
  | fraction _ => exact ⟨'.', _, rfl, .inr rfl⟩

theorem Mantissa.exists_digit {n k : Nat} (h : Mantissa n k cs) : ∃ c ∈ cs, c.isDigit = true := by
  cases h with
  | whole hw =>
    obtain ⟨c, ds, rfl, hc⟩ := hw.exists_cons
    exact ⟨c, List.mem_cons_self, hc⟩
  | point hw _ =>
    obtain ⟨c, ds, rfl, hc⟩ := hw.exists_cons
    exact ⟨c, List.mem_cons_self, hc⟩
  | fraction hf =>
    obtain ⟨c, ds, rfl, hc⟩ := hf.exists_cons
    exact ⟨c, List.mem_cons_of_mem _ List.mem_cons_self, hc⟩

theorem exponent?_eq_some_iff {e : Int} : exponent? cs = some e ↔ Exponent e cs := by
  constructor
  · intro h
    cases cs with
    | nil =>
      cases h
      exact .none
    | cons letter cs =>
      obtain ⟨sign, hsign, hcs⟩ := exists_sign cs
      unfold exponent? at h
      dsimp only at h
      split at h
      · rename_i hform
        cases h
        simp only [Bool.and_eq_true, Bool.or_eq_true, decide_eq_true_eq] at hform
        have hdigits : Digits (splitSign cs).2 := digits_iff.2 (by simp [hform.1.2, hform.2])
        have hpower := Exponent.power hform.1.1 hsign hdigits
        rwa [← hcs] at hpower
      · cases h
  · intro h
    cases h with
    | none => rfl
    | power hletter hsign hdigits =>
      have hform := digits_iff.1 hdigits
      rw [Bool.and_eq_true] at hform
      rw [exponent?, splitSign_append hsign hdigits.ne_sign]
      simp only [hform, Bool.and_true]
      rcases hletter with rfl | rfl <;> rfl

theorem Exponent.head {e : Int} (h : Exponent e cs) : ∀ c ∈ cs.head?, c.isDigit = false ∧ c ≠ '.' := by
  cases h with
  | none => nofun
  | power hletter hsign hdigits =>
    rintro c ⟨⟩
    rcases hletter with rfl | rfl <;> decide

theorem decimal?_whole (hw : ∀ c ∈ w, c.isDigit = true) (hrest : ∀ c ∈ rest.head?, c.isDigit = false ∧ c ≠ '.') :
    decimal? (w ++ rest) =
      if w = [] then none else (exponent? rest).map fun e => ⟨Nat.ofDigitChars 10 w 0, e⟩ := by
  obtain ⟨htake, hdrop⟩ := Text.scan_append hw fun c hc => (hrest c hc).1
  unfold decimal?
  rw [htake, hdrop]
  split
  · rename_i fraction behind hmatch
    split at hmatch
    · exact absurd rfl (hrest '.' rfl).2
    · cases hmatch
      simp

theorem decimal?_point (hw : ∀ c ∈ w, c.isDigit = true) (hf : ∀ c ∈ f, c.isDigit = true)
    (hrest : ∀ c ∈ rest.head?, c.isDigit = false) :
    decimal? (w ++ '.' :: (f ++ rest)) = if w ++ f = [] then none else
      (exponent? rest).map fun e => ⟨Nat.ofDigitChars 10 (w ++ f) 0, e - f.length⟩ := by
  have hpoint : ∀ c ∈ ('.' :: (f ++ rest)).head?, c.isDigit = false := by
    rintro c ⟨⟩
    rfl
  obtain ⟨htake, hdrop⟩ := Text.scan_append hw hpoint
  obtain ⟨hfraction, hbehind⟩ := Text.scan_append hf hrest
  unfold decimal?
  rw [htake, hdrop]
  simp only [hfraction, hbehind, List.isEmpty_iff]

theorem decimal?_eq_some_iff : decimal? cs = some d ↔ UnsignedText d cs := by
  constructor
  · intro h
    obtain ⟨w, behind, rfl, hw, hbehind⟩ := Text.exists_scan Char.isDigit cs
    by_cases hpoint : behind.head? = some '.'
    · obtain ⟨tail, rfl⟩ := List.head?_eq_some_iff.1 hpoint
      obtain ⟨f, rest, rfl, hf, hrest⟩ := Text.exists_scan Char.isDigit tail
      rw [decimal?_point hw hf hrest] at h
      split at h
      · cases h
      rename_i hne
      obtain ⟨e, he, rfl⟩ := Option.map_eq_some_iff.1 h
      have hx := exponent?_eq_some_iff.1 he
      by_cases hwhole : w = []
      · subst hwhole
        have hm : Mantissa (Nat.ofDigitChars 10 f 0) f.length ('.' :: f) := .fraction ⟨hne, hf⟩
        have htext := UnsignedText.intro hm hx
        exact htext
      · have htext := UnsignedText.intro (.point ⟨hwhole, hw⟩ hf) hx
        rwa [List.append_assoc, List.cons_append] at htext
    · have hrest : ∀ c ∈ behind.head?, c.isDigit = false ∧ c ≠ '.' := fun c hc =>
        ⟨hbehind c hc, fun heq => hpoint (heq ▸ hc)⟩
      rw [decimal?_whole hw hrest] at h
      split at h
      · cases h
      rename_i hne
      obtain ⟨e, he, rfl⟩ := Option.map_eq_some_iff.1 h
      have htext := UnsignedText.intro (.whole ⟨hne, hw⟩) (exponent?_eq_some_iff.1 he)
      rwa [Nat.cast_zero, sub_zero] at htext
  · rintro ⟨hm, hx⟩
    have he := exponent?_eq_some_iff.2 hx
    have hdigit := fun c hc => (hx.head c hc).1
    cases hm with
    | whole hw => rw [decimal?_whole hw.isDigit hx.head, if_neg hw.ne_nil, he, Option.map_some, Nat.cast_zero, sub_zero]
    | point hw hf =>
      rw [List.append_assoc, List.cons_append, decimal?_point hw.isDigit hf hdigit, if_neg (by simp [hw.ne_nil]), he,
        Option.map_some]
    | fraction hf =>
      have hpoint := decimal?_point (w := []) nofun hf.isDigit hdigit
      rw [List.nil_append, List.nil_append, if_neg hf.ne_nil, he, Option.map_some] at hpoint
      exact hpoint

theorem decimal?_of_digits (h : Digits cs) : decimal? cs = some ⟨Nat.ofDigitChars 10 cs 0, 0⟩ := by
  have hdecimal := decimal?_eq_some_iff.2 (UnsignedText.intro (.whole h) .none)
  rwa [List.append_nil, Nat.cast_zero, sub_zero] at hdecimal

/-! ## Numbers -/

theorem UnsignedText.ne_sign (h : UnsignedText d cs) : ∀ c ∈ cs.head?, c ≠ '-' ∧ c ≠ '+' := by
  obtain ⟨hm, -⟩ := h
  obtain ⟨c, m, rfl, hc | rfl⟩ := hm.exists_cons
  · rintro c ⟨⟩
    exact ne_sign_of_isDigit hc
  · rintro c ⟨⟩
    decide

theorem decimalText_iff : DecimalText negative d cs ↔
    (splitSign cs).1 = negative ∧ decimal? (splitSign cs).2 = some d := by
  constructor
  · rintro ⟨hsign, h⟩
    rw [splitSign_append hsign h.ne_sign]
    exact ⟨rfl, decimal?_eq_some_iff.2 h⟩
  · rintro ⟨rfl, h⟩
    obtain ⟨sign, hsign, hcs⟩ := exists_sign cs
    have htext := DecimalText.intro hsign (decimal?_eq_some_iff.1 h)
    rwa [← hcs] at htext

theorem IntegerText.exists_decimalText (h : IntegerText n cs) : ∃ negative d, DecimalText negative d cs := by
  obtain ⟨hsign, hdigits⟩ := h
  have htext := UnsignedText.intro (.whole hdigits) .none
  rw [List.append_nil] at htext
  exact ⟨_, _, .intro hsign htext⟩

/-- **Text is a number in one of two ways**: as an integer in range, or as a decimal that is none. -/
theorem number?_cases (cs : List Char) :
    (∃ i : Int64, IntegerText i.toInt cs ∧ number? cs = some (.integer i)) ∨
    (¬∃ i : Int64, IntegerText i.toInt cs) ∧
      number? cs = (decimal? (splitSign cs).2).map fun d => .float (.ofDecimal (splitSign cs).1 d) := by
  unfold number?
  dsimp only
  by_cases hdigits : Digits (splitSign cs).2
  · rw [if_pos (digits_iff.1 hdigits)]
    cases hi : int64? (Double.signed (splitSign cs).1 (Nat.ofDigitChars 10 (splitSign cs).2 0)) with
    | some i => exact .inl ⟨i, integerText_iff.2 ⟨hdigits, int64?_eq_some_iff.1 hi⟩, rfl⟩
    | none =>
      refine .inr ⟨?_, rfl⟩
      rintro ⟨i, h⟩
      rw [int64?_eq_some_iff.2 (integerText_iff.1 h).2] at hi
      cases hi
  · rw [if_neg (digits_iff.not.1 hdigits)]
    refine .inr ⟨?_, rfl⟩
    rintro ⟨i, h⟩
    exact hdigits (integerText_iff.1 h).1

theorem number?_eq_integer_iff : number? cs = some (.integer i) ↔ IntegerText i.toInt cs := by
  rcases number?_cases cs with ⟨j, hj, hn⟩ | ⟨hnot, hn⟩
  · rw [hn]
    constructor
    · rintro ⟨⟩
      exact hj
    · intro h
      rw [Int64.toInt_inj.1 ((integerText_iff.1 hj).2.symm.trans (integerText_iff.1 h).2)]
  · rw [hn]
    refine iff_of_false ?_ fun h => hnot ⟨i, h⟩
    intro h
    obtain ⟨d, -, hd⟩ := Option.map_eq_some_iff.1 h
    cases hd

theorem number?_eq_float_iff : number? cs = some (.float x) ↔
    (∃ negative d, DecimalText negative d cs ∧ x = .ofDecimal negative d) ∧ ¬∃ i : Int64, IntegerText i.toInt cs := by
  rcases number?_cases cs with ⟨j, hj, hn⟩ | ⟨hnot, hn⟩
  · rw [hn]
    exact iff_of_false nofun fun h => h.2 ⟨j, hj⟩
  · rw [hn, Option.map_eq_some_iff]
    constructor
    · rintro ⟨d, hd, hx⟩
      exact ⟨⟨_, d, decimalText_iff.2 ⟨rfl, hd⟩, (Number.float.inj hx).symm⟩, hnot⟩
    · rintro ⟨⟨negative, d, h, rfl⟩, -⟩
      obtain ⟨rfl, hd⟩ := decimalText_iff.1 h
      exact ⟨d, hd, rfl⟩

theorem number?_eq_none_iff : number? cs = none ↔ ¬∃ negative d, DecimalText negative d cs := by
  rcases number?_cases cs with ⟨j, hj, hn⟩ | ⟨-, hn⟩
  · rw [hn]
    exact iff_of_false nofun (not_not_intro hj.exists_decimalText)
  · rw [hn, Option.map_eq_none_iff, Option.eq_none_iff_forall_ne_some]
    constructor
    · rintro h ⟨negative, d, htext⟩
      exact h d (decimalText_iff.1 htext).2
    · intro h d hd
      exact h ⟨_, d, decimalText_iff.2 ⟨rfl, hd⟩⟩

end DocQuery.Scalar
