import DocQuery.Yaml.Reader
/-!
# Lines fed one after the other

A fault is numbered by the line it is found on, so feeding the same lines under later numbers moves the number and
nothing else (`feedTexts_add`), and a line that is passed over moves the numbers of those behind it
(`feedTexts_insert`).  Lines that are read the same are fed the same.
-/
namespace DocQuery.Yaml

def Halt.renumber (f : Nat → Nat) (halt : Halt) : Halt :=
  ⟨halt.fault, f halt.line⟩

/-- The number of a line once another line has been put behind the first `k`. -/
def behind (k number : Nat) : Nat :=
  if number ≤ k then number else number + 1

namespace State

variable {raw raw' : List Char} {texts texts' : List (List Char)} {number : Nat} {s : State} {halt : Halt}

theorem feedText_congr (h : LineReading.ofText raw = LineReading.ofText raw') (s : State) :
    s.feedText raw = s.feedText raw' := by
  unfold feedText
  rw [h]

theorem feedText_blank (h : LineReading.ofText raw = .blank) (s : State) : s.feedText raw = .ok s := by
  unfold feedText
  rw [h]

theorem feedTexts_cons_congr (h : LineReading.ofText raw = LineReading.ofText raw') (s : State) (number : Nat) :
    s.feedTexts number (raw :: texts) = s.feedTexts number (raw' :: texts) := by
  rw [feedTexts, feedTexts, feedText_congr h]

theorem feedTexts_cons_blank (h : LineReading.ofText raw = .blank) (s : State) (number : Nat) :
    s.feedTexts number (raw :: texts) = s.feedTexts (number + 1) texts := by
  rw [feedTexts, feedText_blank h]

theorem feedTexts_append (texts' : List (List Char)) : ∀ (texts : List (List Char)) (number : Nat) (s : State),
    s.feedTexts number (texts ++ texts') =
      match s.feedTexts number texts with
      | .ok next => next.feedTexts (number + texts.length) texts'
      | .error halt => .error halt
  | [], _, _ => rfl
  | raw :: texts, number, s => by
    rw [List.cons_append, feedTexts, feedTexts]
    cases s.feedText raw with
    | error fault => rfl
    | ok next =>
      have ih := feedTexts_append texts' texts (number + 1) next
      rwa [Nat.add_assoc, Nat.add_comm 1] at ih

theorem feedTexts_add (k : Nat) : ∀ (texts : List (List Char)) (number : Nat) (s : State),
    s.feedTexts (number + k) texts = (s.feedTexts number texts).mapError (Halt.renumber (· + k))
  | [], _, _ => rfl
  | raw :: texts, number, s => by
    rw [feedTexts, feedTexts]
    cases s.feedText raw with
    | error fault => rfl
    | ok next =>
      have ih := feedTexts_add k texts (number + 1) next
      rwa [Nat.add_right_comm] at ih

theorem line_of_feedTexts : ∀ {texts : List (List Char)} {number : Nat} {s : State},
    s.feedTexts number texts = .error halt → number ≤ halt.line ∧ halt.line < number + texts.length
  | [], _, _, h => by cases h
  | raw :: texts, number, s, h => by
    rw [feedTexts] at h
    cases hr : s.feedText raw with
    | error fault =>
      rw [hr] at h
      cases h
      simp
    | ok next =>
      rw [hr] at h
      have := line_of_feedTexts h
      rw [List.length_cons]
      omega

/-- **A line that is passed over where it stands** moves the numbers of the lines behind it. -/
theorem feedTexts_insert (texts' : List (List Char))
    (h : ∀ next, s.feedTexts 1 texts = .ok next → next.feedText raw = .ok next) :
    s.feedTexts 1 (texts ++ raw :: texts') =
      (s.feedTexts 1 (texts ++ texts')).mapError (Halt.renumber (behind texts.length)) := by
  rw [feedTexts_append, feedTexts_append]
  cases hs : s.feedTexts 1 texts with
  | error halt =>
    have hline := line_of_feedTexts hs
    have hbehind : behind texts.length halt.line = halt.line := if_pos (by omega)
    have hrenumber : halt.renumber (behind texts.length) = halt := by rw [Halt.renumber, hbehind]
    exact congrArg Except.error hrenumber.symm
  | ok next =>
    dsimp only
    rw [feedTexts, h next hs]
    dsimp only
    rw [feedTexts_add]
    cases hn : next.feedTexts (1 + texts.length) texts' with
    | ok last => rfl
    | error halt =>
      have hline := line_of_feedTexts hn
      have hbehind : behind texts.length halt.line = halt.line + 1 := if_neg (by omega)
      have hrenumber : halt.renumber (behind texts.length) = halt.renumber (· + 1) := by
        rw [Halt.renumber, Halt.renumber, hbehind]
      exact congrArg Except.error hrenumber.symm

theorem feedTexts_insert_blank (h : LineReading.ofText raw = .blank) (texts texts' : List (List Char)) (s : State) :
    s.feedTexts 1 (texts ++ raw :: texts') =
      (s.feedTexts 1 (texts ++ texts')).mapError (Halt.renumber (behind texts.length)) :=
  feedTexts_insert texts' fun next _ => feedText_blank h next

end State

end DocQuery.Yaml
