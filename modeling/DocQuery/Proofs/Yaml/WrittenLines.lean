import DocQuery.Proofs.Scalar.Writing
import DocQuery.Proofs.Text.Lines
import DocQuery.Proofs.Yaml.Comments
import DocQuery.Yaml.Reader
/-!
# Written lines

The scanners that cut a line apart agree on where a quoted text ends: comments, the colon of an entry and the blanks
around a text are looked for behind the closing quote.  So a line of quoted texts, dashes, colons and spaces is read as
it was written (`Written.ofText_replicate`), and its marks are those that it was written for.
-/
namespace DocQuery.Yaml

open Quoted (EscapedText doubled Writes)

variable {s t q cs rest : List Char}

/-! ## Behind the closing quote -/

theorem uncommentedDouble_append (h : EscapedText s t) (rest : List Char) :
    uncommentedDouble (t ++ '"' :: rest) = t ++ '"' :: uncommented false rest := by
  induction h with
  | nil => simp [uncommentedDouble]
  | plain hc _ ih =>
    simp only [List.mem_cons, not_or] at hc
    simp [uncommentedDouble, hc.1, hc.2.1, ih]
  | escape he _ ih => simp [uncommentedDouble, ih]

theorem uncommentedSingle_append (hrest : rest.head? ≠ some '\'') : ∀ s : List Char,
    uncommentedSingle (doubled s ++ '\'' :: rest) = doubled s ++ '\'' :: uncommented false rest
  | [] => by
    cases rest with
    | nil => simp [doubled, uncommentedSingle, uncommented]
    | cons c rest =>
      have hc : c ≠ '\'' := by simpa using hrest
      simp [doubled, uncommentedSingle, hc]
  | c :: s => by
    have ih := uncommentedSingle_append hrest s
    by_cases hc : c = '\''
    · simp [doubled, hc, uncommentedSingle, ih]
    · simp [doubled, hc, uncommentedSingle, ih]

theorem uncommented_writes (h : Writes s q) (hrest : rest.head? ≠ some '\'') :
    uncommented true (q ++ rest) = q ++ uncommented false rest := by
  cases h with
  | double h => simp [uncommented, uncommentedDouble_append h]
  | single h => simp [uncommented, uncommentedSingle_append hrest]

theorem splitEntryDouble_append (h : EscapedText s t) (rest : List Char) :
    splitEntryDouble (t ++ '"' :: rest) = (splitEntry rest).map fun (key, value) => (t ++ '"' :: key, value) := by
  induction h with
  | nil => simp [splitEntryDouble]
  | plain hc _ ih =>
    simp only [List.mem_cons, not_or] at hc
    simp [splitEntryDouble, hc.1, hc.2.1, ih, Function.comp_def]
  | escape he _ ih => simp [splitEntryDouble, ih, Function.comp_def]

theorem splitEntrySingle_append (hrest : rest.head? ≠ some '\'') : ∀ s : List Char,
    splitEntrySingle (doubled s ++ '\'' :: rest) =
      (splitEntry rest).map fun (key, value) => (doubled s ++ '\'' :: key, value)
  | [] => by
    cases rest with
    | nil => simp [doubled, splitEntrySingle, splitEntry]
    | cons c rest =>
      have hc : c ≠ '\'' := by simpa using hrest
      simp [doubled, splitEntrySingle, hc]
  | c :: s => by
    have ih := splitEntrySingle_append hrest s
    by_cases hc : c = '\''
    · simp [doubled, hc, splitEntrySingle, ih, Function.comp_def]
    · simp [doubled, hc, splitEntrySingle, ih, Function.comp_def]

theorem entryParts?_writes (h : Writes s q) (hrest : rest.head? ≠ some '\'') :
    entryParts? (q ++ rest) = (splitEntry rest).map fun (key, value) => (Text.trimEnd (q ++ key), Text.trim value) := by
  cases h with
  | double h => simp [entryParts?, splitEntryDouble_append h, Function.comp_def]
  | single h => simp [entryParts?, splitEntrySingle_append hrest, Function.comp_def]

/-! ## Entries and texts -/

theorem entryParts?_key (h : Writes s q) : entryParts? (q ++ [':']) = some (q, []) := by
  rw [entryParts?_writes h (by simp)]
  simp [splitEntry, (Quoted.trimmed_of_writes h).trimEnd_eq, Text.trim, Text.trimStart, Text.trimEnd]

theorem entryParts?_key_value (h : Writes s q) (ht : Text.Trimmed t) (n : Nat) :
    entryParts? (q ++ ':' :: ' ' :: (List.replicate n ' ' ++ t)) = some (q, t) := by
  have htrim : Text.trim (' ' :: (List.replicate n ' ' ++ t)) = t := by
    rw [← List.cons_append, ← List.replicate_succ, Text.trim, Text.trimStart,
      List.dropWhile_append_of_pos (by simp [Text.isBlank])]
    exact ht.trim_eq
  rw [entryParts?_writes h (by simp)]
  simp [splitEntry, htrim, (Quoted.trimmed_of_writes h).trimEnd_eq]

theorem entryParts?_of_writes (h : Writes s q) : entryParts? q = none := by
  have hnone : entryParts? (q ++ []) = none := by
    rw [entryParts?_writes h (by simp), splitEntry, Option.map_none]
  rwa [List.append_nil] at hnone

theorem splitEntry_of_not_mem : ∀ {cs : List Char}, ':' ∉ cs → splitEntry cs = none
  | [], _ => rfl
  | c :: cs, h => by
    rw [List.mem_cons, not_or] at h
    simp [splitEntry, Ne.symm h.1, splitEntry_of_not_mem h.2]

theorem entryParts?_of_scalar {x : Scalar} (h : x.Writes t) : entryParts? t = none := by
  cases h with
  | null => rfl
  | false => rfl
  | true => rfl
  | string h => exact entryParts?_of_writes h
  | integer i =>
    have hcolon : ':' ∉ Number.integerText i.toInt := fun h => by simpa using Scalar.mem_integerText h
    have hd : '"' ∉ Number.integerText i.toInt := fun h => by simpa using Scalar.mem_integerText h
    have hs : '\'' ∉ Number.integerText i.toInt := fun h => by simpa using Scalar.mem_integerText h
    rw [entryParts?, splitEntry_of_not_mem hcolon]
    · rfl
    · intro r hr
      exact hd (by simp [hr])
    · intro r hr
      exact hs (by simp [hr])

/-! ## Marks -/

theorem marks_of_head {c : Char} (hspace : c ≠ ' ') (hdash : c ≠ '-') (column : Nat) (cs : List Char) :
    marks column (c :: cs) = [(column, .ofContent (c :: cs))] := by
  simp [marks, hdash]

theorem marks_writes (h : Writes s q) (column : Nat) (rest : List Char) :
    marks column (q ++ rest) = [(column, .ofContent (q ++ rest))] := by
  cases h with
  | double h => exact marks_of_head (by decide) (by decide) column _
  | single h => exact marks_of_head (by decide) (by decide) column _

/-- **The text of a scalar is one mark.** -/
theorem marks_scalar {x : Scalar} (h : x.Writes t) (column : Nat) : marks column t = [(column, .text t)] := by
  have hm : marks column t = [(column, .ofContent t)] := by
    cases h with
    | null => rfl
    | false => rfl
    | true => rfl
    | string h => simpa using marks_writes h column []
    | integer i =>
      obtain ⟨sign, hsign, ht⟩ := Scalar.integerText_eq i.toInt
      cases hd : Nat.toDigits 10 i.toInt.natAbs with
      | nil => exact absurd hd Nat.toDigits_ne_nil
      | cons c cs =>
        have hc : c.isDigit = true := Scalar.isDigit_of_mem_toDigits (n := i.toInt.natAbs) (by simp [hd])
        have hspace : c ≠ ' ' := by rintro rfl; exact absurd hc (by decide)
        have hdash : c ≠ '-' := by rintro rfl; exact absurd hc (by decide)
        rw [ht, hd]
        rcases hsign with ⟨rfl, -⟩ | ⟨rfl, -⟩
        · simp [marks, hspace]
        · exact marks_of_head hspace hdash column cs
  rw [hm, Mark.ofContent, entryParts?_of_scalar h]

theorem marks_dash (n column : Nat) (cs : List Char) :
    marks column ('-' :: ' ' :: (List.replicate n ' ' ++ cs)) = (column, .item) :: marks (column + 2 + n) cs := by
  rw [← marks_replicate]
  rfl

theorem marks_key (h : Writes s q) (column : Nat) : marks column (q ++ [':']) = [(column, .entry q [])] := by
  rw [marks_writes h, Mark.ofContent, entryParts?_key h]

theorem marks_key_value (h : Writes s q) (ht : Text.Trimmed t) (n column : Nat) :
    marks column (q ++ ':' :: ' ' :: (List.replicate n ' ' ++ t)) = [(column, .entry q t)] := by
  rw [marks_writes h, Mark.ofContent, entryParts?_key_value h ht]

/-! ## Whole lines -/

/-- **A content that a line can be written with**: nothing in it starts a comment, there are no blanks around it, and it
is not taken for the start or the end of a document. -/
structure Written (cs : List Char) : Prop where
  uncommented_eq : uncommented true cs = cs
  trimmed : Text.Trimmed cs
  not_mem : '\n' ∉ cs
  ne_start : cs ≠ ['-', '-', '-']
  ne_end : cs ≠ ['.', '.', '.']

theorem uncommented_replicate (n : Nat) (cs : List Char) :
    uncommented true (List.replicate n ' ' ++ cs) = List.replicate n ' ' ++ uncommented true cs := by
  induction n with
  | zero => rfl
  | succ n ih =>
    have hblank : Text.isBlank ' ' = true := rfl
    simp [List.replicate_succ, uncommented, hblank, ih]

namespace Written

theorem scalar {x : Scalar} (h : x.Writes t) : Written t := by
  have htrim := Scalar.trimmed_of_writes h
  cases h with
  | null => exact ⟨rfl, htrim, by decide, by decide, by decide⟩
  | false => exact ⟨rfl, htrim, by decide, by decide, by decide⟩
  | true => exact ⟨rfl, htrim, by decide, by decide, by decide⟩
  | string h =>
    have hu : uncommented true (t ++ []) = t ++ uncommented false [] := uncommented_writes h (by simp)
    rw [List.append_nil, uncommented, List.append_nil] at hu
    refine ⟨hu, htrim, Quoted.not_mem_of_writes h, ?_, ?_⟩
    · rintro rfl; cases h
    · rintro rfl; cases h
  | integer i =>
    have hne : ∀ c : Char, c.isDigit = false → c ≠ '-' → c ∉ Number.integerText i.toInt := fun c hd hc h => by
      simpa [hd, hc] using Scalar.mem_integerText h
    refine ⟨uncommented_of_not_mem (hne _ rfl (by decide)) true, htrim, hne _ rfl (by decide), fun h => ?_,
      fun h => hne '.' rfl (by decide) (by simp [h])⟩
    -- behind a sign there is a digit
    obtain ⟨sign, hsign, ht⟩ := Scalar.integerText_eq i.toInt
    have hdash : '-' ∉ Nat.toDigits 10 i.toInt.natAbs := fun h =>
      absurd (Scalar.isDigit_of_mem_toDigits h) (by decide)
    have hmem : '-' ∈ Nat.toDigits 10 i.toInt.natAbs := by
      rw [h] at ht
      rcases hsign with ⟨rfl, -⟩ | ⟨rfl, -⟩
      · have hdigits : ['-', '-'] = Nat.toDigits 10 i.toInt.natAbs := (List.cons.inj ht).2
        simp [← hdigits]
      · have hdigits : ['-', '-', '-'] = Nat.toDigits 10 i.toInt.natAbs := ht
        simp [← hdigits]
    exact hdash hmem

theorem quoted (h : Writes s q) (hhead : rest.head? ≠ some '\'') (hu : uncommented false rest = rest)
    (htrim : Text.Trimmed rest) (hn : '\n' ∉ rest) : Written (q ++ rest) := by
  refine ⟨by rw [uncommented_writes h hhead, hu], (Quoted.trimmed_of_writes h).append [] htrim, ?_, ?_, ?_⟩
  · rw [List.mem_append, not_or]
    exact ⟨Quoted.not_mem_of_writes h, hn⟩
  · cases h <;> simp
  · cases h <;> simp

theorem key (h : Writes s q) : Written (q ++ [':']) :=
  quoted h (by simp) (by simp [uncommented]) (.singleton rfl) (by simp)

theorem key_value (h : Writes s q) (ht : Written t) (n : Nat) :
    Written (q ++ ':' :: ' ' :: (List.replicate n ' ' ++ t)) := by
  refine quoted h (by simp) ?_ ((Text.Trimmed.singleton rfl).append (' ' :: List.replicate n ' ') ht.trimmed) ?_
  · have hblank : Text.isBlank ' ' = true := rfl
    simp [uncommented, hblank, uncommented_replicate, ht.uncommented_eq]
  · simp [ht.not_mem]

theorem dash : Written ['-'] :=
  ⟨rfl, .singleton rfl, by decide, by decide, by decide⟩

theorem dash_content (ht : Written t) (n : Nat) : Written ('-' :: ' ' :: (List.replicate n ' ' ++ t)) := by
  refine ⟨?_, (Text.Trimmed.singleton rfl).append (' ' :: List.replicate n ' ') ht.trimmed, ?_, by simp, by simp⟩
  · have hblank : Text.isBlank ' ' = true := rfl
    simp [uncommented, hblank, uncommented_replicate, ht.uncommented_eq]
  · simp [ht.not_mem]

theorem ofText_replicate (h : Written cs) (column : Nat) :
    LineReading.ofText (List.replicate column ' ' ++ cs) = .content ⟨column, cs⟩ := by
  obtain ⟨c, hc, hblank⟩ := h.trimmed.head
  cases cs with
  | nil => cases hc
  | cons d cs =>
    obtain rfl : d = c := Option.some.inj hc
    have hd : isIndentation d = false := by
      cases hi : isIndentation d with
      | false => rfl
      | true =>
        simp only [isIndentation, Bool.or_eq_true, beq_iff_eq] at hi
        rcases hi with rfl | rfl <;> cases hblank
    have hall : ∀ c ∈ List.replicate column ' ', isIndentation c = true := by simp [isIndentation]
    rw [LineReading.ofText]
    simp only [uncommented_replicate, h.uncommented_eq, h.trimmed.trimEnd_append,
      List.dropWhile_append_of_pos hall, List.takeWhile_append_of_pos hall]
    simp [hd]

theorem isDocumentStart_eq_false (h : Written cs) (column : Nat) : isDocumentStart ⟨column, cs⟩ = false := by
  simp [isDocumentStart, h.ne_start]

theorem isDocumentEnd_eq_false (h : Written cs) (column : Nat) : isDocumentEnd ⟨column, cs⟩ = false := by
  simp [isDocumentEnd, h.ne_end]

theorem lines_append (h : Written cs) (column : Nat) (rest : List Char) :
    Text.lines (List.replicate column ' ' ++ cs ++ '\n' :: rest) =
      (List.replicate column ' ' ++ cs) :: Text.lines rest := by
  have hnewline : '\n' ∉ List.replicate column ' ' ++ cs := by simp [h.not_mem]
  have hreturn : (List.replicate column ' ' ++ cs).getLast? ≠ some '\r' := by
    obtain ⟨c, hc, hblank⟩ := h.trimmed.last
    rw [List.getLast?_append, hc]
    rintro ⟨⟩
    cases hblank
  rw [Text.lines_newline rest hnewline, Text.chomp, if_neg hreturn]

end Written

end DocQuery.Yaml
