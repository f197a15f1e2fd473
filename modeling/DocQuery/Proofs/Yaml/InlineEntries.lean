import DocQuery.Proofs.Value.Written
import DocQuery.Proofs.Yaml.BareKeys
import DocQuery.Proofs.Yaml.Layout
/-!
# Entries on lines of their own

A block of entries with their values behind their colons is read line by line: each line enters its key with what its
text is typed as (`document_entries`).  A line with a text alone is that scalar (`document_text`).
-/
namespace DocQuery.Yaml

/-- **How a key is written**: as it stands if it needs no quotes, or between quotes. -/
inductive KeyText (key : String) : List Char → Prop
  | bare (h : BareKey key.toList) : KeyText key key.toList
  | quoted {q : List Char} (hne : key ≠ "") (h : Quoted.Writes key.toList q) : KeyText key q

/-- **An entry on one line**: its key, how it is written, and the text of its value, without a comment. -/
structure InlineEntry where
  key : String
  keyText : List Char
  text : List Char
  keyWritten : KeyText key keyText
  textWritten : Written text
  plain : '#' ∉ text

def InlineEntry.line (e : InlineEntry) : List Char :=
  e.keyText ++ ':' :: ' ' :: e.text

def InlineEntry.pair (e : InlineEntry) : String × Value :=
  (e.key, .scalar (.ofText e.text))

variable {key : String} {q t : List Char} {es : Entries} {s : State}

namespace KeyText

theorem keyName_eq (h : KeyText key q) : keyName q = key.toList := by
  cases h with
  | bare h => rw [keyName, h.unquote?_eq_none, Option.getD_none]
  | quoted hne h => exact keyName_of_writes h

theorem toList_ne_nil (h : KeyText key q) : key.toList ≠ [] := by
  cases h with
  | bare h => exact h.ne_nil
  | quoted hne h => exact fun hnil => hne (String.toList_eq_nil_iff.1 hnil)

theorem marks_eq (h : KeyText key q) (ht : Text.Trimmed t) (column : Nat) :
    marks column (q ++ ':' :: ' ' :: t) = [(column, .entry q t)] := by
  cases h with
  | bare h => rw [marks_bareKey h (by simp), Text.trim_cons_blank rfl, ht.trim_eq]
  | quoted hne h => exact marks_key_value h ht 0 column

theorem written (h : KeyText key q) (ht : Written t) (hsign : '#' ∉ t) : Written (q ++ ':' :: ' ' :: t) := by
  cases h with
  | bare h =>
    refine written_bareKey h ?_ (by simpa using hsign) (by simpa using ht.not_mem)
    obtain ⟨c, hc, hblank⟩ := ht.trimmed.last
    intro d hd
    rw [List.getLast?_cons, hc] at hd
    cases hd
    exact hblank
  | quoted hne h => exact Written.key_value h ht 0

end KeyText

/-! ## Lines -/

def Holds (es : Entries) (s : State) : Prop :=
  s = .start ∧ es = [] ∨ s = .blocks (.mapping 0 es none) []

theorem Holds.finish_eq (h : Holds es s) : s.finish = .object es := by
  rcases h with ⟨rfl, rfl⟩ | rfl <;> rfl

theorem feedText_written (h : Written t) (s : State) : s.feedText t = s.feed (marks 0 t) := by
  have hread := h.ofText_replicate 0
  rw [List.replicate_zero, List.nil_append] at hread
  rw [State.feedText, hread]
  simp only [State.feedLine, h.isDocumentEnd_eq_false, h.isDocumentStart_eq_false]
  rfl

theorem InlineEntry.feedText_line (e : InlineEntry) (h : Holds es s) :
    ∃ next, s.feedText e.line = .ok next ∧ Holds (es.put e.key (.scalar (.ofText e.text))) next := by
  have hwritten := e.keyWritten.written e.textWritten e.plain
  have hvalue : e.text.isEmpty = false := List.isEmpty_eq_false_iff.2 e.textWritten.trimmed.ne_nil
  have henter : State.enter 0 es e.keyText e.text [] =
      .ok (.blocks (.mapping 0 (es.put e.key (.scalar (.ofText e.text))) none) []) := by
    have hname : (Quoted.unquote? e.keyText).getD e.keyText = e.key.toList := e.keyWritten.keyName_eq
    have hne : e.key.toList.isEmpty = false := List.isEmpty_eq_false_iff.2 e.keyWritten.toList_ne_nil
    unfold State.enter
    simp only [hname, hne, hvalue, String.ofList_toList]
    rfl
  refine ⟨_, ?_, .inr rfl⟩
  rw [line, feedText_written hwritten, e.keyWritten.marks_eq e.textWritten.trimmed]
  rcases h with ⟨rfl, rfl⟩ | rfl
  · simp [State.feed, State.step, State.openValue, henter]
  · simp [State.feed, State.step, State.dedent, Block.column, State.continueMapping, henter]

theorem feedTexts_lines : ∀ (entries : List InlineEntry) (number : Nat) {es : Entries} {s : State}, Holds es s →
    ∃ next, s.feedTexts number (entries.map InlineEntry.line) = .ok next ∧
      Holds ((entries.map InlineEntry.pair).foldl (fun es (k, v) => es.put k v) es) next
  | [], _, _, s, h => ⟨s, rfl, h⟩
  | e :: entries, number, es, s, h => by
    obtain ⟨next, hfeed, hnext⟩ := e.feedText_line h
    obtain ⟨last, hlast, hholds⟩ := feedTexts_lines entries (number + 1) hnext
    refine ⟨last, ?_, hholds⟩
    rw [List.map_cons, State.feedTexts, hfeed]
    exact hlast

/-- **Lines of entries** are read as the object of their keys and values. -/
theorem document_entries (entries : List InlineEntry) :
    document (entries.flatMap fun e => e.line ++ ['\n']) =
      .ok (.object (Entries.ofPairs (entries.map InlineEntry.pair))) := by
  have hlines : ∀ entries : List InlineEntry,
      Text.lines (entries.flatMap fun e => e.line ++ ['\n']) = entries.map InlineEntry.line := by
    intro entries
    induction entries with
    | nil => rfl
    | cons e entries ih =>
      have happend := (e.keyWritten.written e.textWritten e.plain).lines_append 0
        (entries.flatMap fun e => e.line ++ ['\n'])
      rw [List.replicate_zero, List.nil_append, ih] at happend
      rw [List.flatMap_cons, List.append_assoc, List.singleton_append, List.map_cons]
      exact happend
  obtain ⟨next, hfeed, hnext⟩ := feedTexts_lines entries 1 (.inl ⟨rfl, rfl⟩)
  rw [document, hlines, hfeed]
  exact congrArg Except.ok hnext.finish_eq

theorem document_line (e : InlineEntry) : document e.line = .ok (.object [e.pair]) := by
  have hwritten := e.keyWritten.written e.textWritten e.plain
  have hlines : Text.lines e.line = [e.line] := Text.lines_of_not_mem hwritten.not_mem hwritten.trimmed.ne_nil
  obtain ⟨next, hfeed, hnext⟩ := e.feedText_line (.inl ⟨rfl, rfl⟩)
  rw [document, hlines, State.feedTexts, hfeed]
  exact congrArg Except.ok hnext.finish_eq

theorem document_text (h : Written t) (hmarks : marks 0 t = [(0, .text t)]) : document t = .ok (.scalar (.ofText t)) := by
  have hlines : Text.lines t = [t] := Text.lines_of_not_mem h.not_mem h.trimmed.ne_nil
  rw [document, hlines, State.feedTexts, feedText_written h, hmarks]
  rfl

end DocQuery.Yaml
