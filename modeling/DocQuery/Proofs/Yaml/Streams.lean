import DocQuery.Proofs.Yaml.FirstFault
import DocQuery.Proofs.Yaml.Moving
import DocQuery.Proofs.Yaml.Resumption
/-!
# Streams of documents

A line that starts a document is refused once there is content, so nothing behind it is read (`feedTexts_start`); in
front of any content it is passed over.  A line that ends a document is passed over wherever it stands, so the documents
in front of it and behind it are read as one (`decodeYaml_stream`).
-/
namespace DocQuery

namespace Yaml

/-! ## Kinds of lines -/

def StartsDocument (raw : List Char) : Prop :=
  ∃ line ∈ (LineReading.ofText raw).line?, isDocumentStart line = true

def EndsDocument (raw : List Char) : Prop :=
  ∃ line ∈ (LineReading.ofText raw).line?, isDocumentEnd line = true

/-- **A line with content**: it is not passed over, and neither starts nor ends a document. -/
def HasContent (raw : List Char) : Prop :=
  LineReading.ofText raw ≠ .blank ∧ Unmarked raw

instance : DecidablePred StartsDocument := fun raw =>
  inferInstanceAs (Decidable (∃ line ∈ (LineReading.ofText raw).line?, _))

instance : DecidablePred EndsDocument := fun raw =>
  inferInstanceAs (Decidable (∃ line ∈ (LineReading.ofText raw).line?, _))

instance : DecidablePred HasContent := fun _ =>
  inferInstanceAs (Decidable (_ ∧ _))

variable {raw mark : List Char} {texts before after : List (List Char)} {number : Nat} {l : Line}

theorem ofText_of_mem_line? (h : l ∈ (LineReading.ofText raw).line?) : LineReading.ofText raw = .content l := by
  cases hr : LineReading.ofText raw with
  | blank =>
    rw [hr] at h
    cases h
  | tabbed =>
    rw [hr] at h
    cases h
  | content l' =>
    rw [hr] at h
    cases h
    rfl

theorem hasContent_iff (h : LineReading.ofText raw = .content l) :
    HasContent raw ↔ isDocumentStart l = false ∧ isDocumentEnd l = false := by
  unfold HasContent Unmarked
  rw [h]
  simp [LineReading.line?]

namespace State

variable {s next : State}

theorem feedText_of_starts (h : StartsDocument raw) (s : State) :
    s.feedText raw = if s.isStart then .ok s else .error .severalDocuments := by
  obtain ⟨l, hl, hstart⟩ := h
  have hend : isDocumentEnd l = false := by
    simp only [isDocumentStart, Bool.and_eq_true, beq_iff_eq] at hstart
    simp [isDocumentEnd, hstart.2]
  unfold feedText
  rw [ofText_of_mem_line? hl]
  dsimp only [feedLine]
  rw [hend, hstart]
  rfl

theorem feedText_of_ends (h : EndsDocument raw) (s : State) : s.feedText raw = .ok s := by
  obtain ⟨l, hl, hend⟩ := h
  unfold feedText
  rw [ofText_of_mem_line? hl]
  exact if_pos hend

theorem isStart_of_feedText (hs : s.Sound) (h : s.feedText raw = .ok next) :
    next.Sound ∧ (next.isStart = true ↔ s.isStart = true ∧ ¬HasContent raw) := by
  unfold feedText at h
  split at h
  · rename_i hr
    cases h
    have hnot : ¬HasContent raw := fun hc => hc.1 hr
    exact ⟨hs, by simp [hnot]⟩
  · cases h
  · rename_i l hr
    have hcontent := hasContent_iff hr
    unfold feedLine at h
    split at h
    · rename_i hend
      cases h
      exact ⟨hs, by simp [hcontent, hend]⟩
    split at h
    · rename_i hstart
      split at h <;> cases h
      exact ⟨hs, by simp [hcontent, hstart]⟩
    · -- content has a mark, and a mark from a sound state leads to open blocks or a scalar
      rename_i hend hstart
      have hunderway := underway_feed_of_ne_nil (marks_of_content hr) hs h
      exact ⟨.inr hunderway, by simp [hcontent, hend, hstart, isStart_of_underway hunderway]⟩

/-- **Lines that are accepted** leave the document unstarted if and only if none of them has content. -/
theorem isStart_of_feedTexts : ∀ {texts : List (List Char)} {number : Nat} {s : State}, s.Sound →
    s.feedTexts number texts = .ok next → (next.isStart = true ↔ s.isStart = true ∧ ∀ raw ∈ texts, ¬HasContent raw)
  | [], _, s, _, h => by
    cases h
    simp
  | raw :: texts, number, s, hs, h => by
    rw [feedTexts] at h
    cases hr : s.feedText raw with
    | error fault => rw [hr] at h; cases h
    | ok t =>
      rw [hr] at h
      obtain ⟨ht, hstart⟩ := isStart_of_feedText hs hr
      rw [isStart_of_feedTexts ht h, hstart, List.forall_mem_cons, and_assoc]

/-- **A second document is refused** at the line that starts it, if nothing in front of it is. -/
theorem feedTexts_start (hmark : StartsDocument mark) (hbefore : ∃ raw ∈ before, HasContent raw)
    (after : List (List Char)) : ∃ halt, State.start.feedTexts 1 (before ++ mark :: after) = .error halt ∧
      (halt.line ≤ before.length ∨ halt = ⟨.severalDocuments, before.length + 1⟩) := by
  rw [feedTexts_append]
  cases hb : State.start.feedTexts 1 before with
  | error halt =>
    have hline := line_of_feedTexts hb
    exact ⟨halt, rfl, .inl (by omega)⟩
  | ok next =>
    have hnext : ¬next.isStart = true := by
      rw [isStart_of_feedTexts (.inl rfl) hb]
      rintro ⟨-, hnone⟩
      obtain ⟨raw, hraw, hcontent⟩ := hbefore
      exact hnone raw hraw hcontent
    have hnumber : 1 + before.length = before.length + 1 := Nat.add_comm 1 _
    refine ⟨⟨.severalDocuments, before.length + 1⟩, ?_, .inr rfl⟩
    dsimp only
    rw [hnumber, feedTexts, feedText_of_starts hmark, if_neg hnext]

theorem feedText_of_leading_start (hmark : StartsDocument mark) (hbefore : ∀ raw ∈ before, ¬HasContent raw)
    (h : State.start.feedTexts 1 before = .ok next) : next.feedText mark = .ok next := by
  have hnext : next.isStart = true := (isStart_of_feedTexts (.inl rfl) h).2 ⟨rfl, hbefore⟩
  rw [feedText_of_starts hmark, if_pos hnext]

end State

theorem document_without {cs : List Char} (hlines : Text.lines cs = before ++ mark :: after)
    (h : ∀ next, State.start.feedTexts 1 before = .ok next → next.feedText mark = .ok next) :
    document cs = (document (Text.joined (before ++ after))).mapError (Halt.renumber (behind before.length)) := by
  have hnewline : ∀ l ∈ before ++ after, '\n' ∉ l := by
    intro l hl
    refine Text.not_mem_lines cs l ?_
    rw [hlines]
    rcases List.mem_append.1 hl with hl | hl
    · exact List.mem_append_left _ hl
    · exact List.mem_append_right _ (List.mem_cons_of_mem mark hl)
  rw [document_joined hnewline, document, hlines, State.feedTexts_insert after h, mapError_map]

end Yaml

open Yaml (StartsDocument EndsDocument HasContent behind)

/-- **Documents that a start line separates are never merged, and an end line does not separate any.**  Behind content a
line that starts a document is an error, if there is none in front of it.  In front of any content it is passed over, and
a line that ends a document is passed over in any place: the text decodes as it does without the line, to the same value,
or to the same error on the line where it is now. -/
theorem decodeYaml_stream {text : String} {before after : List (List Char)} {mark : List Char}
    (h : Text.lines text.toList = before ++ mark :: after) :
    (StartsDocument mark → (∃ line ∈ before, HasContent line) → ∃ fault e, decodeYaml text = .error (.yaml fault e) ∧
      (e ≤ before.length ∨ fault = .severalDocuments ∧ e = before.length + 1)) ∧
    (StartsDocument mark ∧ (∀ line ∈ before, ¬HasContent line) ∨ EndsDocument mark →
      decodeYaml text = (decodeYaml (String.ofList (Text.joined (before ++ after)))).mapError
        (DecodeError.renumber (behind before.length))) := by
  refine ⟨fun hmark hbefore => ?_, fun hmark => ?_⟩
  · obtain ⟨halt, herror, hplace⟩ := Yaml.State.feedTexts_start hmark hbefore after
    rw [← h, ← Yaml.document_eq_error_iff] at herror
    refine ⟨halt.fault, halt.line, decodeYaml_eq_error_iff.2 herror, hplace.imp_right ?_⟩
    rintro rfl
    exact ⟨rfl, rfl⟩
  · have hpassed : ∀ next, Yaml.State.start.feedTexts 1 before = .ok next → next.feedText mark = .ok next := by
      intro next hnext
      rcases hmark with ⟨hmark, hbefore⟩ | hmark
      · exact Yaml.State.feedText_of_leading_start hmark hbefore hnext
      · exact Yaml.State.feedText_of_ends hmark next
    rw [decodeYaml, decodeYaml, Yaml.document_without h hpassed, String.toList_ofList]
    cases Yaml.document (Text.joined (before ++ after)) <;> rfl

/-- A start line with a comment behind it is refused inside an open block, and the line behind an end line is at
fault where it would be without it, one line further down. -/
theorem decodeYaml_stream_refused :
    (∃ fault e, decodeYaml "a:\n  - x\n--- # y\nb: 2" = .error (.yaml fault e) ∧
      (e ≤ 2 ∨ fault = .severalDocuments ∧ e = 3)) ∧
    decodeYaml "a: 1\n... \nb" = .error (.yaml .expectedEntry 3) := by
  have hstart : Text.lines "a:\n  - x\n--- # y\nb: 2".toList =
      ["a:".toList, "  - x".toList] ++ "--- # y".toList :: ["b: 2".toList] := by decide
  have hend : Text.lines "a: 1\n... \nb".toList = ["a: 1".toList] ++ "... ".toList :: ["b".toList] := by decide
  have hcontent : HasContent "a:".toList := by decide
  refine ⟨(decodeYaml_stream hstart).1 (by decide) ⟨_, by simp, hcontent⟩, ?_⟩
  rw [(decodeYaml_stream hend).2 (.inr (by decide))]
  rfl

/-- The entries on both sides of an end line are entries of one mapping. -/
theorem end_line_merged :
    Text.lines "a: 1\n...\nb: 2".toList = ["a: 1".toList] ++ "...".toList :: ["b: 2".toList] ∧
    HasContent "a: 1".toList ∧ EndsDocument "...".toList ∧ HasContent "b: 2".toList ∧
    decodeYaml "a: 1\n...\nb: 2" = .ok (.object [("a", .integer 1), ("b", .integer 2)]) := by
  refine ⟨by decide, by decide, by decide, by decide, by rfl⟩

end DocQuery
