import DocQuery.Text.Blank
/-!
# Scanning and trimming

A scan takes the characters of a kind that a text begins with, and stops in one place (`scan_unique`).  Trimming cuts a
text into blanks, a middle that begins and ends with something else, and blanks again; the middle may be empty.  There is
one such cut (`trimsTo_iff`).
-/
namespace DocQuery.Text

/-! ## Scans -/

theorem scan_append {p : Char → Bool} {body rest : List Char} (inside : ∀ c ∈ body, p c = true)
    (boundary : ∀ c ∈ rest.head?, p c = false) :
    (body ++ rest).takeWhile p = body ∧ (body ++ rest).dropWhile p = rest := by
  rw [List.takeWhile_append_of_pos inside, List.dropWhile_append_of_pos inside]
  cases rest with
  | nil => simp
  | cons c rest => simp [boundary c rfl]

theorem exists_scan (p : Char → Bool) (cs : List Char) : ∃ body rest, cs = body ++ rest ∧
    (∀ c ∈ body, p c = true) ∧ ∀ c ∈ rest.head?, p c = false := by
  refine ⟨cs.takeWhile p, cs.dropWhile p, List.takeWhile_append_dropWhile.symm, List.all_eq_true.1 List.all_takeWhile,
    fun c hc => ?_⟩
  have hhead := List.head?_dropWhile_not p cs
  rw [Option.mem_def.1 hc] at hhead
  simpa using hhead

theorem scan_unique {p : Char → Bool} {body rest body' rest' : List Char} (h : body ++ rest = body' ++ rest')
    (inside : ∀ c ∈ body, p c = true) (boundary : ∀ c ∈ rest.head?, p c = false)
    (inside' : ∀ c ∈ body', p c = true) (boundary' : ∀ c ∈ rest'.head?, p c = false) : body = body' ∧ rest = rest' := by
  obtain ⟨htake, hdrop⟩ := scan_append inside boundary
  obtain ⟨htake', hdrop'⟩ := scan_append inside' boundary'
  rw [h] at htake hdrop
  exact ⟨htake.symm.trans htake', hdrop.symm.trans hdrop'⟩

/-! ## Trimmed text -/

/-- **Text that begins and ends with something that is not blank.** -/
structure Trimmed (cs : List Char) : Prop where
  head : ∃ c, cs.head? = some c ∧ isBlank c = false
  last : ∃ c, cs.getLast? = some c ∧ isBlank c = false

/-- **What is left of a text without the blanks at either end.** -/
def TrimsTo (cs t : List Char) : Prop :=
  ∃ before after, cs = before ++ (t ++ after) ∧ before.all isBlank = true ∧ after.all isBlank = true ∧
    (t = [] ∨ Trimmed t)

variable {cs ds : List Char} {c d : Char}

theorem trimEnd_concat (hc : isBlank c = false) : ∀ cs : List Char, trimEnd (cs ++ [c]) = cs ++ [c]
  | [] => by simp [trimEnd, hc]
  | d :: cs => by
    have ih := trimEnd_concat hc cs
    rw [List.cons_append, trimEnd_cons_of_ne_nil (by simp [ih]), ih]

theorem trimEnd_append_of_ne_nil (h : trimEnd ds ≠ []) : ∀ cs : List Char, trimEnd (cs ++ ds) = cs ++ trimEnd ds
  | [] => rfl
  | c :: cs => by
    have ih := trimEnd_append_of_ne_nil h cs
    rw [List.cons_append, trimEnd_cons_of_ne_nil (by simp [ih, h]), ih, List.cons_append]

theorem trimEnd_ne_nil (h : ∃ c ∈ cs, isBlank c = false) : trimEnd cs ≠ [] := by
  obtain ⟨c, hc, hblank⟩ := h
  intro hnil
  rw [List.all_eq_true.1 (trimEnd_eq_nil_iff.1 hnil) c hc] at hblank
  cases hblank

namespace Trimmed

theorem singleton (hc : isBlank c = false) : Trimmed [c] := ⟨⟨c, rfl, hc⟩, c, rfl, hc⟩

theorem enclose (hc : isBlank c = false) (hd : isBlank d = false) (cs : List Char) : Trimmed (c :: cs ++ [d]) :=
  ⟨⟨c, rfl, hc⟩, d, List.getLast?_concat, hd⟩

theorem append (h : Trimmed cs) (es : List Char) (h' : Trimmed ds) : Trimmed (cs ++ (es ++ ds)) := by
  obtain ⟨c, hc, hblank⟩ := h.head
  obtain ⟨d, hd, hblank'⟩ := h'.last
  exact ⟨⟨c, by simp [hc], hblank⟩, d, by simp [List.getLast?_append, hd], hblank'⟩

theorem of_all (hne : cs ≠ []) (h : ∀ c ∈ cs, isBlank c = false) : Trimmed cs := by
  refine ⟨?_, _, List.getLast?_eq_some_getLast hne, h _ (List.getLast_mem hne)⟩
  cases cs with
  | nil => exact absurd rfl hne
  | cons c cs => exact ⟨c, rfl, h c List.mem_cons_self⟩

theorem ne_nil (h : Trimmed cs) : cs ≠ [] := by
  rintro rfl
  obtain ⟨c, hc, -⟩ := h.head
  cases hc

theorem trimEnd_append (h : Trimmed cs) (ds : List Char) : trimEnd (ds ++ cs) = ds ++ cs := by
  obtain ⟨c, hc, hblank⟩ := h.last
  obtain ⟨es, rfl⟩ := List.getLast?_eq_some_iff.1 hc
  rw [← List.append_assoc, trimEnd_concat hblank]

theorem trimEnd_eq (h : Trimmed cs) : trimEnd cs = cs :=
  h.trimEnd_append []

theorem trimStart_append (h : Trimmed cs) (ds : List Char) : trimStart (cs ++ ds) = cs ++ ds := by
  obtain ⟨c, hc, hblank⟩ := h.head
  cases cs with
  | nil => cases hc
  | cons d cs => cases hc; simp [trimStart, hblank]

theorem trimStart_eq (h : Trimmed cs) : trimStart cs = cs := by
  have := h.trimStart_append []
  rwa [List.append_nil] at this

theorem trim_eq (h : Trimmed cs) : trim cs = cs := by
  rw [trim, h.trimStart_eq, h.trimEnd_eq]

end Trimmed

/-! ## The one cut -/

theorem trimEnd_append_of_blank {bs : List Char} (hb : bs.all isBlank = true) : ∀ cs : List Char,
    trimEnd (cs ++ bs) = trimEnd cs
  | [] => trimEnd_eq_nil_iff.2 hb
  | c :: cs => by rw [List.cons_append, trimEnd, trimEnd_append_of_blank hb cs, trimEnd]

theorem getLast?_trimEnd : ∀ {cs : List Char}, (trimEnd cs).getLast? = some c → isBlank c = false
  | [], h => by cases h
  | d :: cs, h => by
    by_cases hcs : trimEnd cs = []
    · rw [trimEnd, hcs] at h
      by_cases hd : isBlank d = true
      · rw [if_pos hd] at h
        cases h
      · rw [if_neg hd] at h
        cases h
        simpa using hd
    · rw [trimEnd_cons_of_ne_nil hcs, List.getLast?_cons_of_ne_nil hcs] at h
      exact getLast?_trimEnd h

theorem trimsTo_trim (cs : List Char) : TrimsTo cs (trim cs) := by
  obtain ⟨after, hafter, he⟩ := trimEnd_append_blanks (trimStart cs)
  have hcut : cs.takeWhile isBlank ++ (trim cs ++ after) = cs := by
    rw [trim, he, trimStart, List.takeWhile_append_dropWhile]
  refine ⟨_, after, hcut.symm, List.all_takeWhile, hafter, ?_⟩
  cases ht : trim cs with
  | nil => exact .inl rfl
  | cons c t =>
    have hstart : trimStart cs = c :: (t ++ after) := by rw [← he, ← trim, ht, List.cons_append]
    have hhead : isBlank c = false := by
      have := List.head?_dropWhile_not isBlank cs
      rw [← trimStart, hstart] at this
      simpa using this
    have hlast := List.getLast?_eq_some_getLast (List.cons_ne_nil c t)
    exact .inr ⟨⟨c, rfl, hhead⟩, _, hlast, getLast?_trimEnd (by rw [← trim, ht, hlast])⟩

/-- **Trimming makes the one cut there is.** -/
theorem trimsTo_iff {cs t : List Char} : TrimsTo cs t ↔ trim cs = t := by
  constructor
  · rintro ⟨before, after, rfl, hb, ha, ht⟩
    have hstart : trimStart (before ++ (t ++ after)) = trimStart (t ++ after) :=
      List.dropWhile_append_of_pos (List.all_eq_true.1 hb)
    rcases ht with rfl | ht
    · have hnil : trimStart (after ++ []) = [] := List.dropWhile_append_of_pos (List.all_eq_true.1 ha)
      rw [trim, hstart, List.nil_append, ← List.append_nil after, hnil, trimEnd]
    · rw [trim, hstart, ht.trimStart_append, trimEnd_append_of_blank ha, ht.trimEnd_eq]
  · rintro rfl
    exact trimsTo_trim cs

theorem trim_append_blanks {before after : List Char} (hb : before.all isBlank = true) (ha : after.all isBlank = true)
    (cs : List Char) : trim (before ++ (cs ++ after)) = trim cs := by
  obtain ⟨before', after', hcs, hb', ha', ht⟩ := trimsTo_trim cs
  refine trimsTo_iff.1 ⟨before ++ before', after' ++ after, ?_, by simp [hb, hb'], by simp [ha, ha'], ht⟩
  conv => lhs; rw [hcs]
  simp only [List.append_assoc]

theorem trim_cons_blank (hc : isBlank c = true) (cs : List Char) : trim (c :: cs) = trim cs := by
  have h := @trim_append_blanks [c] [] (by simp [hc]) rfl cs
  rwa [List.append_nil] at h

theorem trim_trim (cs : List Char) : trim (trim cs) = trim cs := by
  obtain ⟨before, after, hcs, hb, ha, -⟩ := trimsTo_trim cs
  conv => rhs; rw [hcs]
  exact (trim_append_blanks hb ha (trim cs)).symm

theorem trim_trimEnd (cs : List Char) : trim (trimEnd cs) = trim cs := by
  obtain ⟨after, ha, hcs⟩ := trimEnd_append_blanks cs
  conv => rhs; rw [← hcs]
  exact (@trim_append_blanks [] after rfl ha (trimEnd cs)).symm

theorem mem_trim_iff (hc : isBlank c = false) : c ∈ trim cs ↔ c ∈ cs := by
  obtain ⟨before, after, hcs, hb, ha, -⟩ := trimsTo_trim cs
  have hblank : ∀ {bs : List Char}, bs.all isBlank = true → c ∉ bs := by
    intro bs hbs hmem
    rw [List.all_eq_true.1 hbs c hmem] at hc
    cases hc
  conv => rhs; rw [hcs]
  simp [hblank hb, hblank ha]

theorem trim_ne_nil (h : ∃ c ∈ cs, isBlank c = false) : trim cs ≠ [] := by
  obtain ⟨c, hc, hblank⟩ := h
  exact List.ne_nil_of_mem ((mem_trim_iff hblank).2 hc)

theorem trim_eq_self_iff {cs : List Char} :
    trim cs = cs ↔ (∀ c ∈ cs.head?, isBlank c = false) ∧ ∀ c ∈ cs.getLast?, isBlank c = false := by
  constructor
  · intro h
    obtain ⟨-, -, -, -, -, rfl | ⟨⟨c, hc, hblank⟩, d, hd, hblank'⟩⟩ := trimsTo_iff.2 h
    · simp
    · simp [hc, hd, hblank, hblank']
  · rintro ⟨hhead, hlast⟩
    cases cs with
    | nil => rfl
    | cons c cs =>
      have hl := List.getLast?_eq_some_getLast (List.cons_ne_nil c cs)
      exact Trimmed.trim_eq ⟨⟨c, rfl, hhead c rfl⟩, _, hl, hlast _ hl⟩

/-! ## Pieces -/

theorem prefix_trimEnd (cs : List Char) : trimEnd cs <+: cs := by
  obtain ⟨blanks, -, h⟩ := trimEnd_append_blanks cs
  exact ⟨blanks, h⟩

theorem infix_trim (cs : List Char) : trim cs <:+: cs :=
  (prefix_trimEnd _).isInfix.trans (List.dropWhile_suffix _).isInfix

end DocQuery.Text
