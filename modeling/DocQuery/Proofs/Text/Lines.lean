import DocQuery.Text.Lines
import Mathlib.Data.List.Basic
/-!
# Lines and their ends

A text is cut at its newlines, and a carriage return in front of a newline belongs to the end of the line.  Text in front
of a newline is one line (`lines_newline`), and lines that are ended have nothing to do with those behind them
(`lines_append`).
-/
namespace DocQuery.Text

/-- **A text with nothing behind its last newline.** -/
def EndsLine (cs : List Char) : Prop :=
  ∀ c ∈ cs.getLast?, c = '\n'

def chomp (line : List Char) : List Char :=
  if line.getLast? = some '\r' then line.dropLast else line

variable {c : Char} {cs ds line : List Char} {ls : List (List Char)}

theorem EndsLine.tail (h : EndsLine (c :: cs)) : EndsLine cs := by
  intro d hd
  refine h d ?_
  rw [List.getLast?_cons, Option.mem_def.1 hd]
  rfl

theorem EndsLine.ne_nil (h : EndsLine (c :: cs)) (hc : c ≠ '\n') : cs ≠ [] := by
  rintro rfl
  exact hc (h c rfl)

theorem lines_cons (hc : c ≠ '\n') (hr : ∀ ds, c = '\r' → cs ≠ '\n' :: ds) (h : lines cs = line :: ls) :
    lines (c :: cs) = (c :: line) :: ls := by
  rw [lines, h]
  · exact hc
  · exact hr

theorem lines_ne_nil (h : cs ≠ []) : lines cs ≠ [] := by
  unfold lines
  split
  · exact absurd rfl h
  · simp
  · simp
  · split <;> simp

theorem lines_singleton (hc : c ≠ '\n') : lines [c] = [[c]] := by
  rw [lines]
  · rfl
  · exact hc
  · simp

theorem lines_of_not_mem : ∀ {cs : List Char}, '\n' ∉ cs → cs ≠ [] → lines cs = [cs]
  | [], _, h => absurd rfl h
  | [c], hn, _ => lines_singleton fun h => hn (by simp [h])
  | c :: d :: cs, hn, _ => by
    rw [List.mem_cons, not_or] at hn
    refine lines_cons (Ne.symm hn.1) (fun ds _ h => hn.2 ?_) (lines_of_not_mem hn.2 (by simp))
    simp [(List.cons.inj h).1]

theorem chomp_cons (h : cs ≠ []) : chomp (c :: cs) = c :: chomp cs := by
  unfold chomp
  rw [List.getLast?_cons_of_ne_nil h, List.dropLast_cons_of_ne_nil h]
  split <;> rfl

theorem lines_newline (rest : List Char) : ∀ {line : List Char}, '\n' ∉ line →
    lines (line ++ '\n' :: rest) = chomp line :: lines rest
  | [], _ => rfl
  | [c], hn => by
    by_cases hr : c = '\r'
    · subst hr
      rfl
    · have hchomp : chomp [c] = [c] := by simp [chomp, hr]
      rw [hchomp]
      exact lines_cons (fun h => hn (by simp [h])) (fun ds h => absurd h hr) rfl
  | c :: d :: line, hn => by
    rw [List.mem_cons, not_or] at hn
    rw [chomp_cons (by simp)]
    refine lines_cons (Ne.symm hn.1) (fun ds _ h => hn.2 ?_) (lines_newline rest hn.2)
    simp [(List.cons.inj h).1]

/-- **Lines that are ended have nothing to do with those behind them.** -/
theorem lines_append (ds : List Char) (h : EndsLine cs) : lines (cs ++ ds) = lines cs ++ lines ds := by
  fun_induction lines cs with
  | case1 => rfl
  | case2 cs ih => rw [List.cons_append, lines, ih h.tail, List.cons_append]
  | case3 cs ih => rw [List.cons_append, List.cons_append, lines, ih h.tail.tail, List.cons_append]
  | case4 c cs hc hr hnil ih => exact absurd hnil (lines_ne_nil (h.ne_nil hc))
  | case5 c cs hc hr l ls hls ih =>
    rw [hls] at ih
    -- a newline behind `c` would be one of `cs` itself, which is not empty
    refine lines_cons hc (fun es hcr he => ?_) (ih h.tail)
    have hcs := h.ne_nil hc
    cases cs with
    | nil => exact hcs rfl
    | cons d cs => exact hr cs hcr (by rw [(List.cons.inj he).1])

theorem length_lines (h : EndsLine cs) : (lines cs).length = cs.count '\n' := by
  fun_induction lines cs with
  | case1 => rfl
  | case2 cs ih => rw [List.length_cons, ih h.tail, List.count_cons_self]
  | case3 cs ih =>
    have hr : '\r' ≠ '\n' := by decide
    rw [List.length_cons, ih h.tail.tail, List.count_cons_of_ne hr, List.count_cons_self]
  | case4 c cs hc hr hnil ih => exact absurd hnil (lines_ne_nil (h.ne_nil hc))
  | case5 c cs hc hr l ls hls ih =>
    rw [hls] at ih
    rw [List.length_cons, List.count_cons_of_ne hc, ← ih h.tail, List.length_cons]

theorem not_mem_lines (cs : List Char) : ∀ line ∈ lines cs, '\n' ∉ line := by
  fun_induction lines cs with
  | case1 => nofun
  | case2 cs ih => exact List.forall_mem_cons.2 ⟨by simp, ih⟩
  | case3 cs ih => exact List.forall_mem_cons.2 ⟨by simp, ih⟩
  | case4 c cs hc hr hnil ih => simpa using Ne.symm hc
  | case5 c cs hc hr l ls hls ih =>
    rw [hls] at ih
    obtain ⟨hl, hls⟩ := List.forall_mem_cons.1 ih
    refine List.forall_mem_cons.2 ⟨fun h => ?_, hls⟩
    rcases List.mem_cons.1 h with h | h
    · exact hc h.symm
    · exact hl h

theorem prefix_of_lines (h : lines cs = line :: ls) : line <+: cs := by
  fun_induction lines cs generalizing line ls with
  | case1 => cases h
  | case2 cs ih =>
    cases h
    exact List.nil_prefix
  | case3 cs ih =>
    cases h
    exact List.nil_prefix
  | case4 c cs hc hr hnil ih =>
    cases h
    exact List.cons_prefix_cons.2 ⟨rfl, List.nil_prefix⟩
  | case5 c cs hc hr l ls' hls ih =>
    cases h
    exact List.cons_prefix_cons.2 ⟨rfl, ih hls⟩

theorem infix_of_mem_lines (h : line ∈ lines cs) : line <:+: cs := by
  fun_induction lines cs with
  | case1 => cases h
  | case2 cs ih =>
    rcases List.mem_cons.1 h with rfl | h
    · exact List.nil_infix
    · exact (ih h).trans (List.suffix_cons _ _).isInfix
  | case3 cs ih =>
    rcases List.mem_cons.1 h with rfl | h
    · exact List.nil_infix
    · exact (ih h).trans ((List.suffix_cons _ _).trans (List.suffix_cons _ _)).isInfix
  | case4 c cs hc hr hnil ih =>
    rw [List.mem_singleton.1 h]
    exact (List.cons_prefix_cons.2 ⟨rfl, List.nil_prefix⟩ : [c] <+: c :: cs).isInfix
  | case5 c cs hc hr l ls' hls ih =>
    rcases List.mem_cons.1 h with rfl | h
    · exact (List.cons_prefix_cons.2 ⟨rfl, prefix_of_lines hls⟩ : c :: l <+: c :: cs).isInfix
    · exact (ih (hls ▸ List.mem_cons_of_mem l h)).trans (List.suffix_cons _ _).isInfix

end DocQuery.Text
