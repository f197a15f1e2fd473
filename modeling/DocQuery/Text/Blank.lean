/-!
# Blank characters and trimming

A character is blank when Unicode gives it the property White_Space.  Everything that trims text
(scalars, keys, path queries, filters) means this class, so it is fixed once, here.  Text is a list of
characters wherever it is taken apart; the trimming functions are structural recursions on that list.
-/
namespace DocQuery.Text

/-- The Unicode property White_Space, twenty-five characters. -/
def isBlank (c : Char) : Bool :=
  ('\t' ≤ c && c ≤ '\r') || c == ' ' || c == '\u0085' || c == '\u00a0' || c == '\u1680' ||
    ('\u2000' ≤ c && c ≤ '\u200a') || c == '\u2028' || c == '\u2029' || c == '\u202f' ||
    c == '\u205f' || c == '\u3000'

def trimStart (cs : List Char) : List Char :=
  cs.dropWhile isBlank

def trimEnd : List Char → List Char
  | [] => []
  | c :: cs =>
    match trimEnd cs with
    | [] => if isBlank c then [] else [c]
    | d :: ds => c :: d :: ds

def trim (cs : List Char) : List Char :=
  trimEnd (trimStart cs)

theorem trimEnd_cons_of_ne_nil {c : Char} {cs : List Char} (h : trimEnd cs ≠ []) :
    trimEnd (c :: cs) = c :: trimEnd cs := by
  cases e : trimEnd cs with
  | nil => exact absurd e h
  | cons d ds => simp [trimEnd, e]

theorem trimEnd_eq_nil_iff {cs : List Char} : trimEnd cs = [] ↔ cs.all isBlank = true := by
  induction cs with
  | nil => simp [trimEnd]
  | cons c cs ih =>
    cases e : trimEnd cs with
    | nil => cases hc : isBlank c <;> simp_all [trimEnd]
    | cons d ds =>
      rw [trimEnd_cons_of_ne_nil (by simp [e])]
      simp_all

theorem trimEnd_append_blanks (cs : List Char) :
    ∃ bs, bs.all isBlank = true ∧ trimEnd cs ++ bs = cs := by
  induction cs with
  | nil => exact ⟨[], rfl, rfl⟩
  | cons c cs ih =>
    obtain ⟨bs, hb, e⟩ := ih
    cases h : trimEnd cs with
    | nil =>
      cases hc : isBlank c with
      | true => exact ⟨c :: cs, by simp_all, by simp [trimEnd, h, hc]⟩
      | false => exact ⟨cs, by simp_all, by simp [trimEnd, h, hc]⟩
    | cons d ds => exact ⟨bs, hb, by rw [trimEnd_cons_of_ne_nil (by simp [h])]; simp [e]⟩

end DocQuery.Text
