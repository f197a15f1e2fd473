import DocQuery.Proofs.Scalar.Comparison
import DocQuery.Proofs.Yaml.Comments
import DocQuery.Proofs.Yaml.WrittenLines
/-!
# Bare keys

A key without quotes is read as it stands if nothing in it is a blank, a colon, a quote or the sign of a comment.  So an
entry with such a key is one mark, whatever text stands behind its colon, and a document of one line with such an entry
holds that text up to its comment (`document_uncommented`).
-/
namespace DocQuery.Yaml

/-- **A key that needs no quotes.** -/
structure BareKey (cs : List Char) : Prop where
  ne_nil : cs ≠ []
  plain : ∀ c ∈ cs, Text.isBlank c = false ∧ c ∉ [':', '#', '"', '\'']

variable {key text rest : List Char}

namespace BareKey

theorem trimmed (h : BareKey key) : Text.Trimmed key :=
  .of_all h.ne_nil fun c hc => (h.plain c hc).1

theorem not_mem (h : BareKey key) {c : Char} (hc : Text.isBlank c = true ∨ c ∈ [':', '#', '"', '\'']) : c ∉ key := by
  intro hmem
  obtain ⟨hblank, hplain⟩ := h.plain c hmem
  rcases hc with hc | hc
  · rw [hblank] at hc
    cases hc
  · exact hplain hc

theorem exists_cons (h : BareKey key) : ∃ c cs, key = c :: cs ∧ c ≠ ' ' ∧ c ≠ '"' ∧ c ≠ '\'' := by
  cases hkey : key with
  | nil => exact absurd hkey h.ne_nil
  | cons c cs =>
    have hne : ∀ d : Char, Text.isBlank d = true ∨ d ∈ [':', '#', '"', '\''] → c ≠ d := by
      rintro d hd rfl
      exact h.not_mem hd (by simp [hkey])
    exact ⟨c, cs, rfl, hne ' ' (.inl rfl), hne '"' (by simp), hne '\'' (by simp)⟩

theorem unquote?_eq_none (h : BareKey key) : Quoted.unquote? key = none := by
  obtain ⟨c, cs, rfl, -, hd, hs⟩ := h.exists_cons
  rw [Quoted.unquote?, if_neg hs, if_neg hd, ite_self]

end BareKey

/-! ## Entries -/

theorem splitEntry_append (hkey : ':' ∉ key) (hrest : ∀ c ∈ rest.head?, c = ' ') :
    splitEntry (key ++ ':' :: rest) = some (key, rest) := by
  induction key with
  | nil =>
    cases rest with
    | nil => rfl
    | cons c rest =>
      obtain rfl : c = ' ' := hrest c rfl
      rfl
  | cons c key ih =>
    rw [List.mem_cons, not_or] at hkey
    rw [List.cons_append, splitEntry, ih hkey.2]
    · rfl
    · exact fun h => absurd h.symm hkey.1
    · exact fun ds h => absurd h.symm hkey.1

theorem entryParts?_bareKey (h : BareKey key) (hrest : ∀ c ∈ rest.head?, c = ' ') :
    entryParts? (key ++ ':' :: rest) = some (key, Text.trim rest) := by
  have hsplit := splitEntry_append (h.not_mem (by simp)) hrest
  obtain ⟨c, cs, rfl, -, hd, hs⟩ := h.exists_cons
  rw [List.cons_append] at hsplit ⊢
  unfold entryParts?
  dsimp only
  split
  · rename_i he
    exact absurd (List.cons.inj he).1 hd
  · rename_i he
    exact absurd (List.cons.inj he).1 hs
  · rw [hsplit, Option.map_some, h.trimmed.trimEnd_eq]

theorem marks_bareKey (h : BareKey key) (hrest : ∀ c ∈ rest.head?, c = ' ') (column : Nat) :
    marks column (key ++ ':' :: rest) = [(column, .entry key (Text.trim rest))] := by
  have hentry := entryParts?_bareKey h hrest
  obtain ⟨c, cs, rfl, hc, -, -⟩ := h.exists_cons
  have hspace : ∀ ds, cs ++ ':' :: rest ≠ ' ' :: ds := by
    intro ds he
    cases cs with
    | nil => cases he
    | cons d cs =>
      obtain rfl : d = ' ' := (List.cons.inj he).1
      exact h.not_mem (c := ' ') (.inl rfl) (by simp)
  rw [List.cons_append] at hentry ⊢
  have hmarks : marks column (c :: (cs ++ ':' :: rest)) = [(column, .ofContent (c :: (cs ++ ':' :: rest)))] := by
    unfold marks
    split <;> simp_all
  rw [hmarks, Mark.ofContent, hentry]

/-! ## Lines -/

theorem bareKey_append_ne {ds : List Char} (hds : ':' ∉ ds) : key ++ ':' :: rest ≠ ds := by
  rintro rfl
  exact hds (by simp)

theorem written_bareKey (h : BareKey key) (hlast : ∀ c ∈ rest.getLast?, Text.isBlank c = false) (hsign : '#' ∉ rest)
    (hline : '\n' ∉ rest) : Written (key ++ ':' :: rest) := by
  refine ⟨uncommented_of_not_mem (by simp [h.not_mem, hsign]) true, ⟨?_, ?_⟩, ?_, bareKey_append_ne (by simp),
    bareKey_append_ne (by simp)⟩
  · obtain ⟨c, hc, hblank⟩ := h.trimmed.head
    exact ⟨c, by simp [hc], hblank⟩
  · cases hr : rest.getLast? with
    | none => exact ⟨':', by simp [List.getLast?_eq_none_iff.1 hr], rfl⟩
    | some d => exact ⟨d, by simp [List.getLast?_append, List.getLast?_cons, hr], hlast d hr⟩
  · have hkey : '\n' ∉ key := h.not_mem (.inl rfl)
    simp [hkey, hline]

theorem run_bareKey (h : BareKey key) : Scan.run (.outside true) (key ++ [':', ' ']) = .outside true := by
  have hsigns : ∀ c ∈ key, c ∉ ['#', '"', '\''] := by
    rintro c hc hmem
    exact (h.plain c hc).2 (List.mem_cons_of_mem ':' hmem)
  obtain ⟨fresh, hrun⟩ := Scan.exists_run_outside hsigns true
  rw [Scan.run_append, hrun]
  cases fresh <;> rfl

theorem uncommented_bareKey (h : BareKey key) (text : List Char) :
    uncommented true (key ++ ':' :: ' ' :: text) = key ++ ':' :: ' ' :: uncommented true text := by
  have hkept := Scan.kept_append text (key ++ [':', ' ']) (.outside true)
  rw [run_bareKey h, if_neg nofun, ← uncommented_eq_kept, ← uncommented_eq_kept] at hkept
  simpa using hkept

theorem ofText_bareKey (h : BareKey key) (hblank : ∃ c ∈ uncommented true text, Text.isBlank c = false) :
    LineReading.ofText (key ++ ':' :: ' ' :: text) =
      .content ⟨0, key ++ ':' :: ' ' :: Text.trimEnd (uncommented true text)⟩ := by
  have htrim : Text.trimEnd (uncommented true (key ++ ':' :: ' ' :: text)) =
      key ++ ':' :: ' ' :: Text.trimEnd (uncommented true text) := by
    rw [uncommented_bareKey h, List.append_cons, List.append_cons, Text.trimEnd_append_of_ne_nil]
    · simp
    · exact Text.trimEnd_ne_nil hblank
  obtain ⟨c, cs, rfl, hspace, -, -⟩ := h.exists_cons
  refine LineReading.ofText_of_head htrim ?_
  have htab : c ≠ '\t' := by
    rintro rfl
    exact h.not_mem (c := '\t') (.inl rfl) List.mem_cons_self
  simp [isIndentation, hspace, htab]

/-! ## Documents of one line -/

/-- **An entry holds what its text is typed as up to its comment.** -/
theorem document_uncommented (h : BareKey key) (hline : '\n' ∉ text)
    (hblank : ∃ c ∈ uncommented true text, Text.isBlank c = false) :
    document (key ++ ':' :: ' ' :: text) =
      .ok (.object [(String.ofList key, .scalar (.ofText (uncommented true text)))]) := by
  have hlines : Text.lines (key ++ ':' :: ' ' :: text) = [key ++ ':' :: ' ' :: text] := by
    have hkey : '\n' ∉ key := h.not_mem (.inl rfl)
    exact Text.lines_of_not_mem (by simp [hkey, hline]) (by simp)
  have hread := ofText_bareKey h hblank
  generalize uncommented true text = value at *
  have hmarks : Line.marks ⟨0, key ++ ':' :: ' ' :: Text.trimEnd value⟩ = [(0, .entry key (Text.trim value))] := by
    rw [Line.marks, marks_bareKey h (by simp), Text.trim_cons_blank rfl, Text.trim_trimEnd]
  have hstart : isDocumentStart ⟨0, key ++ ':' :: ' ' :: Text.trimEnd value⟩ = false := by
    simp [isDocumentStart, bareKey_append_ne]
  have hend : isDocumentEnd ⟨0, key ++ ':' :: ' ' :: Text.trimEnd value⟩ = false := by
    simp [isDocumentEnd, bareKey_append_ne]
  have hvalue : (Text.trim value).isEmpty = false := by simpa using Text.trim_ne_nil hblank
  have henter : State.enter 0 [] key (Text.trim value) [] =
      .ok (.blocks (.mapping 0 [(String.ofList key, .scalar (.ofText value))] none) []) := by
    simp [State.enter, h.unquote?_eq_none, h.ne_nil, hvalue, Entries.put, Scalar.ofText_trim]
  have hfeed : State.start.feedText (key ++ ':' :: ' ' :: text) =
      .ok (.blocks (.mapping 0 [(String.ofList key, .scalar (.ofText value))] none) []) := by
    rw [State.feedText, hread]
    simp only [State.feedLine, hend, hstart, hmarks]
    simp [State.feed, State.step, State.openValue, henter]
  rw [document, hlines, State.feedTexts, hfeed]
  rfl

theorem document_bareKey (h : BareKey key) (hsign : '#' ∉ text) (hline : '\n' ∉ text)
    (hblank : ∃ c ∈ text, Text.isBlank c = false) :
    document (key ++ ':' :: ' ' :: text) = .ok (.object [(String.ofList key, .scalar (.ofText text))]) := by
  have huncommented := uncommented_of_not_mem hsign true
  rw [← huncommented] at hblank
  rw [document_uncommented h hline hblank, huncommented]

end DocQuery.Yaml
