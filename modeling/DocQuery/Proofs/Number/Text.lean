import DocQuery.Proofs.Scalar.Typing
/-!
# The characters of number texts

Whatever the layout, the text of a number holds digits, a point, an exponent and signs and nothing else
(`isNumeral_of_mem_finiteText`).  Without exponents only digits, points and minus signs are left
(`isFigure_of_mem_plainText`).
-/
namespace DocQuery

open Scalar (isNumeral)

variable {c : Char} {digits : List Char} {place exponent : Int} {negative : Bool} {rank : Nat} {layout : Layout}

def Scalar.isFigure (c : Char) : Bool :=
  c.isDigit || c == '.' || c == '-'

/-- An integer, or a float that is neither infinite nor a not-a-number. -/
def Number.isFinite : Number → Bool
  | .integer _ => true
  | .float x => x.isFinite

namespace Layout

theorem mem_of_mem_dropTrailingZeros (h : c ∈ dropTrailingZeros digits) : c ∈ digits :=
  List.mem_reverse.1 ((List.dropWhile_sublist _).subset (List.mem_reverse.1 h))

theorem mem_positionalText (h : c ∈ positionalText digits place) : c ∈ digits ∨ c = '0' ∨ c = '.' := by
  unfold positionalText at h
  split at h
  · simp only [List.mem_cons, List.mem_append, List.mem_replicate] at h
    rcases h with rfl | rfl | ⟨-, rfl⟩ | h
    · exact .inr (.inl rfl)
    · exact .inr (.inr rfl)
    · exact .inr (.inl rfl)
    · exact .inl h
  split at h
  · simp only [List.mem_append, List.mem_replicate] at h
    rcases h with (h | ⟨-, rfl⟩) | h
    · exact .inl h
    · exact .inr (.inl rfl)
    · split at h
      · simp only [List.mem_cons, List.not_mem_nil, or_false] at h
        exact .inr h.symm
      · cases h
  · simp only [List.mem_append, List.mem_cons] at h
    rcases h with h | rfl | h
    · exact .inl (List.mem_of_mem_take h)
    · exact .inr (.inr rfl)
    · exact .inl (List.mem_of_mem_drop h)

theorem isNumeral_of_mem_exponentText (hdigits : ∀ d ∈ digits, d.isDigit = true) (h : c ∈ exponentText digits exponent) :
    isNumeral c = true := by
  unfold exponentText at h
  simp only [List.mem_append, List.mem_cons] at h
  rcases h with (h | h) | rfl | rfl | h
  · exact Scalar.isNumeral_of_isDigit (hdigits c (List.mem_of_mem_take h))
  · split at h
    · cases h
    · rcases List.mem_cons.1 h with rfl | h
      · rfl
      · exact Scalar.isNumeral_of_isDigit (hdigits c (List.mem_of_mem_drop h))
  · rfl
  · split <;> rfl
  · exact Scalar.isNumeral_of_isDigit (Scalar.isDigit_of_mem_toDigits h)

theorem isDigit_of_mem_digits {n : Nat} (h : c ∈ dropTrailingZeros (Nat.toDigits 10 n)) : c.isDigit = true :=
  Scalar.isDigit_of_mem_toDigits (mem_of_mem_dropTrailingZeros h)

theorem mem_magnitudeText (h : c ∈ layout.magnitudeText rank) : c.isDigit = true ∨ c = '.' ∨
    isNumeral c = true ∧ ∃ e, layout.positional e = false := by
  unfold magnitudeText at h
  split at h
  · simp only [List.mem_cons, List.not_mem_nil, or_false] at h
    rcases h with rfl | rfl | rfl
    · exact .inl rfl
    · exact .inr (.inl rfl)
    · exact .inl rfl
  dsimp only at h
  split at h
  · rcases mem_positionalText h with h | rfl | rfl
    · exact .inl (isDigit_of_mem_digits h)
    · exact .inl rfl
    · exact .inr (.inl rfl)
  · rename_i hlayout
    rw [Bool.not_eq_true] at hlayout
    exact .inr (.inr ⟨isNumeral_of_mem_exponentText (fun d hd => isDigit_of_mem_digits hd) h, _, hlayout⟩)

theorem isNumeral_of_mem_finiteText (h : c ∈ layout.finiteText negative rank) : isNumeral c = true := by
  rcases List.mem_append.1 h with h | h
  · split at h
    · rw [List.mem_singleton.1 h]
      rfl
    · cases h
  · rcases mem_magnitudeText h with hdigit | rfl | ⟨hnumeral, -⟩
    · exact Scalar.isNumeral_of_isDigit hdigit
    · rfl
    · exact hnumeral

end Layout

namespace Number

theorem isNumeral_of_mem_integerText {i : Int} (h : c ∈ integerText i) : isNumeral c = true := by
  rcases Scalar.mem_integerText h with hdigit | rfl
  · exact Scalar.isNumeral_of_isDigit hdigit
  · rfl

theorem isFigure_of_mem_plainText {n : Number} (hn : n.isFinite = true) (h : c ∈ n.plainText) :
    Scalar.isFigure c = true := by
  have hfigure : ∀ d : Char, d.isDigit = true ∨ d = '.' ∨ d = '-' → Scalar.isFigure d = true := by
    simp [Scalar.isFigure, or_assoc]
  cases n with
  | integer i => exact hfigure c ((Scalar.mem_integerText h).imp_right .inr)
  | float x =>
    cases x with
    | nan => cases hn
    | infinite n => cases hn
    | finite negative r =>
      rcases List.mem_append.1 h with h | h
      · split at h
        · exact hfigure c (.inr (.inr (List.mem_singleton.1 h)))
        · cases h
      · rcases Layout.mem_magnitudeText h with hdigit | hpoint | ⟨-, e, he⟩
        · exact hfigure c (.inl hdigit)
        · exact hfigure c (.inr (.inl hpoint))
        · cases he

end Number
end DocQuery
