import DocQuery.Proofs.Text.Trimming
import DocQuery.Yaml.Line
/-!
# Comments and the ends of lines

The scanner for comments is an automaton that takes one character at a time (`Scan.kept_eq`): what it keeps of a line is
the part in front of the sign that starts a comment.  So nothing that is put behind a line changes what it keeps of the
line itself, and blanks behind it (`ofText_append_blanks`), or a comment if the scanner is outside quotes there
(`ofText_append_comment`), do not change how the line is read.
-/
namespace DocQuery.Yaml

open Text (isBlank trimEnd)

/-! ## The scanner as an automaton -/

/-- **Where the scanner is**: outside quotes, where `fresh` says that a comment or a quote can start; between double
quotes, or there behind a backslash; between single quotes, or there behind a quote, which closes unless another one
follows; or in a comment. -/
inductive Scan where
  | outside (fresh : Bool)
  | double
  | escape
  | single
  | singleQuote
  | comment
  deriving DecidableEq, Repr

namespace Scan

def next : Scan → Char → Scan
  | outside fresh, c =>
    if fresh && c = '#' then comment
    else if fresh && c = '"' then double
    else if fresh && c = '\'' then single
    else outside (isBlank c)
  | double, c => if c = '\\' then escape else if c = '"' then outside false else double
  | escape, _ => double
  | single, c => if c = '\'' then singleQuote else single
  | singleQuote, c => if c = '\'' then single else outside (isBlank c)
  | comment, _ => comment

def run (s : Scan) (cs : List Char) : Scan :=
  cs.foldl next s

def kept : Scan → List Char → List Char
  | _, [] => []
  | s, c :: cs => if s.next c = comment then [] else c :: (s.next c).kept cs

/-- Whether the scanner is outside quotes.  A quote that nothing follows has closed, and a comment is outside. -/
def isOutside : Scan → Bool
  | outside _ => true
  | singleQuote => true
  | comment => true
  | _ => false

variable {s : Scan} {cs blanks : List Char}

theorem run_cons (s : Scan) (c : Char) (cs : List Char) : s.run (c :: cs) = (s.next c).run cs := rfl

theorem run_append (s : Scan) (xs ys : List Char) : s.run (xs ++ ys) = (s.run xs).run ys :=
  List.foldl_append

theorem run_comment : ∀ cs : List Char, comment.run cs = comment
  | [] => rfl
  | _ :: cs => run_comment cs

theorem kept_comment (cs : List Char) : comment.kept cs = [] := by
  cases cs <;> rfl

theorem kept_append (ys : List Char) : ∀ (xs : List Char) (s : Scan),
    s.kept (xs ++ ys) = if s.run xs = comment then s.kept xs else xs ++ (s.run xs).kept ys
  | [], s => by
    by_cases hs : s = comment
    · subst hs
      exact kept_comment ys
    · exact (if_neg hs).symm
  | x :: xs, s => by
    rw [run_cons, List.cons_append, kept, kept]
    by_cases hx : s.next x = comment
    · rw [hx, run_comment]
      rfl
    · rw [if_neg hx, if_neg hx, kept_append ys xs]
      split <;> rfl

theorem kept_eq_self (h : s.run cs ≠ comment) : s.kept cs = cs := by
  have hkept := kept_append [] cs s
  rwa [if_neg h, List.append_nil, kept, List.append_nil] at hkept

theorem kept_singleQuote (h : ∀ ds, cs ≠ '\'' :: ds) : singleQuote.kept cs = (outside false).kept cs := by
  cases cs with
  | nil => rfl
  | cons c cs =>
    have hc : c ≠ '\'' := fun hc => h cs (by rw [hc])
    simp [kept, next, hc]

/-- **The scanner keeps what is in front of a comment**, in each of the states it can start in. -/
theorem kept_eq : (∀ fresh cs, (outside fresh).kept cs = uncommented fresh cs) ∧
    (∀ cs, single.kept cs = uncommentedSingle cs) ∧ ∀ cs, double.kept cs = uncommentedDouble cs := by
  apply uncommented.mutual_induct
  case case1 => intro fresh; rfl
  case case2 =>
    intro fresh c cs h
    rw [kept, next, if_pos h, if_pos rfl, uncommented, if_pos h]
  case case3 =>
    intro fresh c cs h hd ih
    rw [kept, next, if_neg h, if_pos hd, if_neg nofun, uncommented, if_neg h, if_pos hd, ih]
  case case4 =>
    intro fresh c cs h hd hs ih
    rw [kept, next, if_neg h, if_neg hd, if_pos hs, if_neg nofun, uncommented, if_neg h, if_neg hd, if_pos hs, ih]
  case case5 =>
    intro fresh c cs h hd hs ih
    rw [kept, next, if_neg h, if_neg hd, if_neg hs, if_neg nofun, uncommented, if_neg h, if_neg hd, if_neg hs, ih]
  case case6 => rfl
  case case7 =>
    intro cs ih
    simp [kept, next, uncommentedSingle, ih]
  case case8 =>
    intro cs h ih
    rw [uncommentedSingle, ← ih, ← kept_singleQuote h]
    · rfl
    · exact h
  case case9 =>
    intro c cs _ hc ih
    rw [uncommentedSingle]
    · rw [kept, next, if_neg hc, if_neg nofun, ih]
    · assumption
    · exact hc
  case case10 => rfl
  case case11 =>
    intro c cs ih
    simp [kept, next, uncommentedDouble, ih]
  case case12 =>
    intro cs ih
    simp [kept, next, uncommentedDouble, ih]
  case case13 =>
    intro c cs hescape hc ih
    rw [uncommentedDouble]
    · by_cases hb : c = '\\'
      · -- a backslash that nothing follows
        cases cs with
        | nil => simp [kept, next, hb, uncommentedDouble]
        | cons d ds => exact absurd rfl (hescape d ds hb)
      · rw [kept, next, if_neg hb, if_neg hc, if_neg nofun, ih]
    · exact hescape
    · exact hc

theorem next_ne_comment {c : Char} (hs : s ≠ comment) (hc : c ≠ '#') : s.next c ≠ comment := by
  unfold next
  split
  · rw [if_neg (by simp [hc])]
    split
    · nofun
    split <;> nofun
  · split
    · nofun
    split <;> nofun
  · nofun
  · split <;> nofun
  · split <;> nofun
  · exact absurd rfl hs

theorem kept_of_not_mem : ∀ {cs : List Char} {s : Scan}, s ≠ comment → '#' ∉ cs → s.kept cs = cs
  | [], _, _, _ => rfl
  | c :: cs, s, hs, h => by
    rw [List.mem_cons, not_or] at h
    have hn := next_ne_comment hs (Ne.symm h.1)
    rw [kept, if_neg hn, kept_of_not_mem hn h.2]

theorem run_ne_comment : ∀ {cs : List Char} {s : Scan}, s ≠ comment → '#' ∉ cs → s.run cs ≠ comment
  | [], _, hs, _ => hs
  | c :: cs, s, hs, h => by
    rw [List.mem_cons, not_or] at h
    rw [run_cons]
    exact run_ne_comment (next_ne_comment hs (Ne.symm h.1)) h.2

theorem prefix_kept : ∀ (cs : List Char) (s : Scan), s.kept cs <+: cs
  | [], _ => List.prefix_rfl
  | c :: cs, s => by
    rw [kept]
    split
    · exact List.nil_prefix
    · exact (List.prefix_cons_inj c).2 (prefix_kept cs _)

theorem next_outside {fresh : Bool} {c : Char} (h : fresh = true → c ∉ ['#', '"', '\'']) :
    (outside fresh).next c = outside (isBlank c) := by
  cases fresh with
  | false => rfl
  | true =>
    have hc := h rfl
    simp only [List.mem_cons, List.not_mem_nil, or_false, not_or] at hc
    simp [next, hc]

theorem exists_run_outside : ∀ {cs : List Char}, (∀ c ∈ cs, c ∉ ['#', '"', '\'']) → ∀ fresh,
    ∃ fresh', (outside fresh).run cs = outside fresh'
  | [], _, fresh => ⟨fresh, rfl⟩
  | c :: cs, h, fresh => by
    rw [run_cons, next_outside fun _ => h c List.mem_cons_self]
    exact exists_run_outside (fun d hd => h d (List.mem_cons_of_mem c hd)) (isBlank c)

theorem run_blanks : ∀ {blanks : List Char}, blanks.all isBlank = true → (outside true).run blanks = outside true
  | [], _ => rfl
  | b :: blanks, h => by
    rw [List.all_cons, Bool.and_eq_true] at h
    have hne : ∀ c, isBlank c = false → b ≠ c := by
      rintro c hc rfl
      rw [hc] at h
      cases h.1
    have hsign : b ∉ ['#', '"', '\''] := by simp [hne '#' rfl, hne '"' rfl, hne '\'' rfl]
    have hnext : (outside true).next b = outside true := by rw [next_outside fun _ => hsign, h.1]
    rw [run_cons, hnext, run_blanks h.2]

theorem kept_space_sign (hs : s.isOutside = true) (cs : List Char) : s.kept (' ' :: '#' :: cs) = [] ∨
    s.kept (' ' :: '#' :: cs) = [' '] := by
  cases s with
  | outside fresh => cases fresh <;> exact .inr rfl
  | singleQuote => exact .inr rfl
  | comment => exact .inl rfl
  | double => cases hs
  | escape => cases hs
  | single => cases hs

theorem kept_open (hs : s.isOutside = false) (cs : List Char) :
    ∃ front, front <+: cs ∧ s.kept (' ' :: '#' :: ' ' :: cs) = ' ' :: '#' :: ' ' :: front := by
  cases s with
  | double => exact ⟨_, prefix_kept cs double, rfl⟩
  | escape => exact ⟨_, prefix_kept cs double, rfl⟩
  | single => exact ⟨_, prefix_kept cs single, rfl⟩
  | outside => cases hs
  | singleQuote => cases hs
  | comment => cases hs

end Scan

/-! ## Readings of lines -/

theorem uncommented_eq_kept (cs : List Char) : uncommented true cs = (Scan.outside true).kept cs :=
  (Scan.kept_eq.1 true cs).symm

theorem uncommented_of_not_mem {cs : List Char} (h : '#' ∉ cs) (fresh : Bool) : uncommented fresh cs = cs := by
  have hstart : Scan.outside fresh ≠ .comment := nofun
  rw [← Scan.kept_eq.1, Scan.kept_of_not_mem hstart h]

theorem not_mem_blanks {blanks : List Char} (h : blanks.all isBlank = true) : '#' ∉ blanks := fun hmem => by
  have := List.all_eq_true.1 h _ hmem
  cases this

namespace LineReading

variable {raw raw' blanks : List Char}

theorem ofText_congr (h : trimEnd (uncommented true raw) = trimEnd (uncommented true raw')) :
    ofText raw = ofText raw' := by
  unfold ofText
  rw [h]

theorem ofText_of_head {c : Char} {cs : List Char} (h : trimEnd (uncommented true raw) = c :: cs)
    (hc : isIndentation c = false) : ofText raw = .content ⟨0, c :: cs⟩ := by
  unfold ofText
  rw [h]
  simp [hc]

theorem ofText_eq_blank (h : (uncommented true raw).all isBlank = true) : ofText raw = .blank := by
  unfold ofText
  rw [Text.trimEnd_eq_nil_iff.2 h]
  rfl

theorem ofText_append_blanks (h : blanks.all isBlank = true) (raw : List Char) : ofText (raw ++ blanks) = ofText raw := by
  refine ofText_congr ?_
  rw [uncommented_eq_kept, uncommented_eq_kept, Scan.kept_append]
  split
  · rfl
  · rename_i hrun
    rw [Scan.kept_eq_self hrun, Scan.kept_of_not_mem hrun (not_mem_blanks h), Text.trimEnd_append_of_blank h]

/-- **A comment behind a line does not matter**, unless the line leaves a quote open. -/
theorem ofText_append_comment (h : (Scan.run (.outside true) raw).isOutside = true) (cs : List Char) :
    ofText (raw ++ ' ' :: '#' :: cs) = ofText raw := by
  refine ofText_congr ?_
  rw [uncommented_eq_kept, uncommented_eq_kept, Scan.kept_append]
  split
  · rfl
  · rename_i hrun
    rw [Scan.kept_eq_self hrun]
    rcases Scan.kept_space_sign h cs with hk | hk
    · rw [hk, List.append_nil]
    · rw [hk, Text.trimEnd_append_of_blank rfl]

theorem ofText_blanks (h : blanks.all isBlank = true) : ofText blanks = .blank := by
  refine ofText_eq_blank ?_
  rwa [uncommented_of_not_mem (not_mem_blanks h)]

theorem ofText_blanks_comment (h : blanks.all isBlank = true) (cs : List Char) :
    ofText (blanks ++ '#' :: cs) = .blank := by
  refine ofText_eq_blank ?_
  have hsign : (Scan.outside true).kept ('#' :: cs) = [] := rfl
  rwa [uncommented_eq_kept, Scan.kept_append, Scan.run_blanks h, if_neg nofun, hsign, List.append_nil]

end LineReading
end DocQuery.Yaml
