import DocQuery.Proofs.Double.Rounding
import DocQuery.Proofs.Text.Trimming
import DocQuery.Scalar.Bare
import Mathlib.Tactic.IntervalCases
/-!
# Written scalars

A string has many quoted texts: between double quotes every character may stand as an escape, and some must; between
single quotes only quotes are doubled.  Whichever is chosen, typing the text gives the string back, and the literals of
the other scalars are typed as those scalars.
-/
namespace DocQuery

/-! ## Quoted strings -/

namespace Quoted

/-- **What a string may be written as between double quotes**: each character as itself, unless it must be escaped, or
as an escape that stands for it. -/
inductive EscapedText : List Char → List Char → Prop
  | nil : EscapedText [] []
  | plain {c : Char} {s t : List Char} (hc : c ∉ ['\\', '"', '\n', '\r']) (h : EscapedText s t) :
    EscapedText (c :: s) (c :: t)
  | escape {c e : Char} {s t : List Char} (he : unescaped e = [c]) (h : EscapedText s t) :
    EscapedText (c :: s) ('\\' :: e :: t)

def doubled : List Char → List Char
  | [] => []
  | c :: cs => if c = '\'' then '\'' :: '\'' :: doubled cs else c :: doubled cs

/-- **The quoted texts of a string.**  A newline has no place between single quotes. -/
inductive Writes : List Char → List Char → Prop
  | double {s t : List Char} (h : EscapedText s t) : Writes s ('"' :: t ++ ['"'])
  | single {s : List Char} (h : '\n' ∉ s) : Writes s ('\'' :: doubled s ++ ['\''])

theorem unescape_of_escapedText {s t : List Char} (h : EscapedText s t) : unescape t = s := by
  induction h with
  | nil => rfl
  | plain hc _ ih =>
    simp only [List.mem_cons, not_or] at hc
    simp [unescape, hc.1, ih]
  | escape he _ ih => simp [unescape, he, ih]

theorem undouble_doubled : ∀ s : List Char, undouble (doubled s) = s
  | [] => rfl
  | c :: s => by
    by_cases hc : c = '\''
    · simp [doubled, hc, undouble, undouble_doubled s]
    · simp [doubled, hc, undouble, undouble_doubled s]

theorem unquote?_of_writes {s t : List Char} (h : Writes s t) : unquote? t = some s := by
  cases h with
  | double h => simp [unquote?, unescape_of_escapedText h]
  | single h => simp [unquote?, undouble_doubled]

theorem exists_escapedText : ∀ s : List Char, ∃ t, EscapedText s t
  | [] => ⟨[], .nil⟩
  | c :: s => by
    obtain ⟨t, ht⟩ := exists_escapedText s
    by_cases hc : c ∈ ['\\', '"', '\n', '\r']
    · obtain ⟨e, he⟩ : ∃ e, unescaped e = [c] := by
        simp only [List.mem_cons, List.not_mem_nil, or_false] at hc
        rcases hc with rfl | rfl | rfl | rfl
        · exact ⟨'\\', rfl⟩
        · exact ⟨'"', rfl⟩
        · exact ⟨'n', rfl⟩
        · exact ⟨'r', rfl⟩
      exact ⟨_, .escape he ht⟩
    · exact ⟨_, .plain hc ht⟩

theorem exists_writes (s : List Char) : ∃ t, Writes s t := by
  obtain ⟨t, ht⟩ := exists_escapedText s
  exact ⟨_, .double ht⟩

theorem trimmed_of_writes {s t : List Char} (h : Writes s t) : Text.Trimmed t := by
  cases h with
  | double h => exact .enclose rfl rfl _
  | single h => exact .enclose rfl rfl _

theorem not_mem_escapedText {s t : List Char} (h : EscapedText s t) : '\n' ∉ t := by
  induction h with
  | nil => simp
  | plain hc _ ih =>
    simp only [List.mem_cons, not_or] at hc
    simp [Ne.symm hc.2.2.1, ih]
  | @escape c e s t he _ ih =>
    have hn : e ≠ '\n' := by
      rintro rfl
      cases he
    simp [Ne.symm hn, ih]

theorem not_mem_doubled : ∀ {s : List Char}, '\n' ∉ s → '\n' ∉ doubled s
  | [], h => h
  | c :: s, h => by
    rw [List.mem_cons, not_or] at h
    by_cases hc : c = '\''
    · simp [doubled, hc, not_mem_doubled h.2]
    · simp [doubled, hc, h.1, not_mem_doubled h.2]

theorem not_mem_of_writes {s t : List Char} (h : Writes s t) : '\n' ∉ t := by
  cases h with
  | double h => simp [not_mem_escapedText h]
  | single h => simp [not_mem_doubled h]

end Quoted

/-! ## Literals -/

namespace Scalar

/-- **The texts of a scalar.**  A double has none. -/
inductive Writes : Scalar → List Char → Prop
  | null : Writes .null ['n', 'u', 'l', 'l']
  | false : Writes (.boolean false) ['f', 'a', 'l', 's', 'e']
  | true : Writes (.boolean true) ['t', 'r', 'u', 'e']
  | integer (i : Int64) : Writes (.number (.integer i)) (Number.integerText i.toInt)
  | string {s : String} {t : List Char} (h : Quoted.Writes s.toList t) : Writes (.string s) t

theorem integerText_eq (i : Int) : ∃ sign, (sign = ['-'] ∧ i < 0 ∨ sign = [] ∧ 0 ≤ i) ∧
    Number.integerText i = sign ++ Nat.toDigits 10 i.natAbs := by
  by_cases hi : i < 0
  · exact ⟨['-'], .inl ⟨rfl, hi⟩, by simp [Number.integerText, hi]⟩
  · exact ⟨[], .inr ⟨rfl, by omega⟩, by simp [Number.integerText, hi]⟩

theorem isDigit_of_mem_toDigits {n : Nat} {c : Char} (h : c ∈ Nat.toDigits 10 n) : c.isDigit = true :=
  Nat.isDigit_of_mem_toDigits (by decide) (by decide) h

theorem mem_integerText {i : Int} {c : Char} (h : c ∈ Number.integerText i) : c.isDigit = true ∨ c = '-' := by
  obtain ⟨sign, hsign, ht⟩ := integerText_eq i
  rw [ht, List.mem_append] at h
  rcases h with h | h
  · rcases hsign with ⟨rfl, -⟩ | ⟨rfl, -⟩
    · exact .inr (List.mem_singleton.1 h)
    · cases h
  · exact .inl (isDigit_of_mem_toDigits h)

theorem number?_integerText (i : Int64) : number? (Number.integerText i.toInt) = some (.integer i) := by
  obtain ⟨sign, hsign, ht⟩ := integerText_eq i.toInt
  have hall : (Nat.toDigits 10 i.toInt.natAbs).all Char.isDigit = true :=
    List.all_eq_true.2 fun c hc => isDigit_of_mem_toDigits hc
  have hsplit : splitSign (Number.integerText i.toInt) =
      (decide (i.toInt < 0), Nat.toDigits 10 i.toInt.natAbs) := by
    rw [ht]
    rcases hsign with ⟨rfl, hi⟩ | ⟨rfl, hi⟩
    · simp [splitSign, hi]
    · have hi' : ¬i.toInt < 0 := by omega
      cases hd : Nat.toDigits 10 i.toInt.natAbs with
      | nil => exact absurd hd Nat.toDigits_ne_nil
      | cons c cs =>
        have hc : c.isDigit = true := isDigit_of_mem_toDigits (n := i.toInt.natAbs) (by simp [hd])
        rw [List.nil_append, splitSign]
        · simp [hi']
        · intro ds h
          obtain rfl : c = '-' := (List.cons.inj h).1
          exact absurd hc (by decide)
        · intro ds h
          obtain rfl : c = '+' := (List.cons.inj h).1
          exact absurd hc (by decide)
  rw [number?, hsplit]
  simp only [hall, Nat.ofDigitChars_ten_toDigits, Double.signed_natAbs, int64?_toInt]
  simp [Nat.toDigits_ne_nil]

theorem of_isDigit {c : Char} (h : c.isDigit = true) : Text.isBlank c = false ∧ c.toLower = c := by
  have hc : c = Char.ofNat c.toNat := (Char.ofNat_toNat c).symm
  simp only [Char.isDigit, Bool.and_eq_true, decide_eq_true_eq, ge_iff_le, UInt32.le_iff_toNat_le] at h
  obtain ⟨hlow, hhigh⟩ : 48 ≤ c.toNat ∧ c.toNat ≤ 57 := h
  rw [hc]
  generalize c.toNat = n at *
  interval_cases n <;> decide

theorem unquote?_integerText (i : Int) : Quoted.unquote? (Number.integerText i) = none := by
  cases ht : Number.integerText i with
  | nil => rfl
  | cons c cs =>
    have hc := mem_integerText (i := i) (c := c) (by simp [ht])
    have hs : c ≠ '\'' := by rintro rfl; simp at hc
    have hd : c ≠ '"' := by rintro rfl; simp at hc
    rw [Quoted.unquote?, if_neg hs, if_neg hd, ite_self]

theorem word?_integerText (i : Int) : word? (Number.integerText i) = none := by
  cases ht : Number.integerText i with
  | nil =>
    obtain ⟨sign, -, h⟩ := integerText_eq i
    rw [ht] at h
    exact absurd (List.append_eq_nil_iff.1 h.symm).2 Nat.toDigits_ne_nil
  | cons c cs =>
    have hc := mem_integerText (i := i) (c := c) (by simp [ht])
    have hl : c.toLower = c := by
      rcases hc with hc | rfl
      · exact (of_isDigit hc).2
      · rfl
    have hne : ∀ d : Char, d.isDigit = false → d ≠ '-' → c ≠ d := by
      rintro d hd hd' rfl
      simp [hd, hd'] at hc
    simp [word?, hl, hne]

theorem trimmed_of_writes {x : Scalar} {t : List Char} (h : Writes x t) : Text.Trimmed t := by
  cases h with
  | null => exact .enclose rfl rfl ['u', 'l']
  | false => exact .enclose rfl rfl ['a', 'l', 's']
  | true => exact .enclose rfl rfl ['r', 'u']
  | string h => exact Quoted.trimmed_of_writes h
  | integer i =>
    refine .of_all (fun h => ?_) fun c hc => ?_
    · obtain ⟨sign, -, ht⟩ := integerText_eq i.toInt
      rw [h] at ht
      exact absurd (List.append_eq_nil_iff.1 ht.symm).2 Nat.toDigits_ne_nil
    · rcases mem_integerText hc with hc | rfl
      · exact (of_isDigit hc).1
      · rfl

/-- **A written scalar is typed as that scalar.** -/
theorem ofText_of_writes {x : Scalar} {t : List Char} (h : Writes x t) : ofText t = x := by
  rw [ofText, (trimmed_of_writes h).trim_eq]
  cases h with
  | null => rfl
  | false => rfl
  | true => rfl
  | string h =>
    rw [ofTrimmed, Quoted.unquote?_of_writes h]
    exact congrArg string (String.ofList_toList)
  | integer i => rw [ofTrimmed, unquote?_integerText, word?_integerText, number?_integerText]

end Scalar
end DocQuery
