import DocQuery.Decode
import DocQuery.Proofs.Text.Lines
import DocQuery.Proofs.Yaml.Comments
import DocQuery.Proofs.Yaml.Feeding
/-!
# What does not matter in a document

Lines without content, comments, blanks at the ends of lines and the kind of the ends themselves can be put into a text
or added to it (`Edit`).  Each such edit leaves the readings of the lines as they are, but that it may put a line among
them that is passed over, so the text decodes to the same value, or to the same error under the number that the line at
fault has now (`document_edits`).
-/
namespace DocQuery

open Text (EndsLine chomp)

namespace Yaml

/-! ## Edits -/

/-- **A line that is passed over**: blanks, and behind them a comment or nothing. -/
inductive Passed : List Char → Prop
  | blanks {blanks : List Char} (h : blanks.all Text.isBlank = true) : Passed blanks
  | comment {blanks : List Char} (h : blanks.all Text.isBlank = true) (text : List Char) : Passed (blanks ++ '#' :: text)

/-- **What stands behind a line**: its end and further lines, or nothing. -/
inductive AtEnd : List Char → Prop
  | text : AtEnd []
  | newline (rest : List Char) : AtEnd ('\n' :: rest)
  | carriageReturn (rest : List Char) : AtEnd ('\r' :: '\n' :: rest)

/-- **One edit**, from a text to a text, and what it does to the numbers of the lines.  A line may be inserted that is
passed over, a comment may be put behind a line that leaves no quote open, and blanks behind any line; the last line may
be ended, and the end of any line may become a carriage return and a newline. -/
inductive Edit : List Char → List Char → (Nat → Nat) → Prop
  | insert {before line ending after : List Char} (hbefore : EndsLine before) (hline : '\n' ∉ line) (h : Passed line)
    (hending : ending = ['\n'] ∨ ending = [] ∧ after = []) :
    Edit (before ++ after) (before ++ (line ++ (ending ++ after))) (behind (before.count '\n'))
  | comment {before line after text : List Char} (hbefore : EndsLine before) (hline : '\n' ∉ line) (hafter : AtEnd after)
    (h : (Scan.run (.outside true) line).isOutside = true) (htext : '\n' ∉ text) :
    Edit (before ++ (line ++ after)) (before ++ (line ++ ' ' :: '#' :: text ++ after)) id
  | blanks {before line after blanks : List Char} (hbefore : EndsLine before) (hline : '\n' ∉ line)
    (hafter : AtEnd after) (h : blanks.all Text.isBlank = true) (hblanks : '\n' ∉ blanks) :
    Edit (before ++ (line ++ after)) (before ++ (line ++ blanks ++ after)) id
  | finish (text : List Char) : Edit text (text ++ ['\n']) id
  | carriageReturn {before line after : List Char} (hbefore : EndsLine before) (hline : '\n' ∉ line) :
    Edit (before ++ (line ++ '\n' :: after)) (before ++ (line ++ '\r' :: '\n' :: after)) id

/-- **Edits one after the other**, and where they take the line of a number. -/
inductive Edits : List Char → List Char → (Nat → Nat) → Prop
  | none (text : List Char) : Edits text text id
  | more {text text' text'' : List Char} {f g : Nat → Nat} (h : Edits text text' f) (hedit : Edit text' text'' g) :
    Edits text text'' (g ∘ f)

/-! ## Lines of edited texts -/

variable {before line line' after text text' : List Char} {f : Nat → Nat}

theorem Passed.reading (h : Passed line) : LineReading.ofText line = .blank := by
  cases h with
  | blanks h => exact LineReading.ofText_blanks h
  | comment h text => exact LineReading.ofText_blanks_comment h text

theorem ofText_chomp (line : List Char) : LineReading.ofText (chomp line) = LineReading.ofText line := by
  unfold chomp
  split
  · rename_i h
    obtain ⟨front, rfl⟩ := List.getLast?_eq_some_iff.1 h
    rw [List.dropLast_concat, LineReading.ofText_append_blanks rfl]
  · rfl

theorem chomp_carriageReturn (line : List Char) : chomp (line ++ ['\r']) = line := by
  rw [chomp, List.getLast?_concat, if_pos rfl, List.dropLast_concat]

theorem feedTexts_unended (hline : '\n' ∉ line) (s : State) (number : Nat) :
    s.feedTexts number (Text.lines line) = s.feedTexts number [line] := by
  by_cases hnil : line = []
  · subst hnil
    rw [State.feedTexts_cons_blank (LineReading.ofText_blanks rfl)]
    rfl
  · rw [Text.lines_of_not_mem hline hnil]

theorem feedTexts_line (hafter : AtEnd after) : ∃ rest, ∀ line, '\n' ∉ line → ∀ (s : State) (number : Nat),
    s.feedTexts number (Text.lines (line ++ after)) = s.feedTexts number (line :: rest) := by
  cases hafter with
  | text =>
    refine ⟨[], fun line hline s number => ?_⟩
    rw [List.append_nil, feedTexts_unended hline]
  | newline rest =>
    refine ⟨Text.lines rest, fun line hline s number => ?_⟩
    rw [Text.lines_newline rest hline, State.feedTexts_cons_congr (ofText_chomp line)]
  | carriageReturn rest =>
    refine ⟨Text.lines rest, fun line hline s number => ?_⟩
    have hlines := @Text.lines_newline rest (line ++ ['\r']) (by simp [hline])
    rw [chomp_carriageReturn, List.append_assoc, List.singleton_append] at hlines
    rw [hlines]

theorem document_append_congr (hbefore : EndsLine before)
    (h : ∀ (s : State) (number : Nat), s.feedTexts number (Text.lines text) = s.feedTexts number (Text.lines text')) :
    document (before ++ text) = document (before ++ text') := by
  rw [document, document, Text.lines_append text hbefore, Text.lines_append text' hbefore, State.feedTexts_append,
    State.feedTexts_append]
  cases State.start.feedTexts 1 (Text.lines before) with
  | error halt => rfl
  | ok next =>
    dsimp only
    rw [h]

/-- **A line can be replaced by one that is read the same.** -/
theorem document_line_congr (hbefore : EndsLine before) (hline : '\n' ∉ line) (hline' : '\n' ∉ line')
    (hafter : AtEnd after) (h : LineReading.ofText line = LineReading.ofText line') :
    document (before ++ (line ++ after)) = document (before ++ (line' ++ after)) := by
  obtain ⟨rest, hrest⟩ := feedTexts_line hafter
  refine document_append_congr hbefore fun s number => ?_
  rw [hrest line hline, hrest line' hline', State.feedTexts_cons_congr h]

theorem mapError_map {α β ε ε' : Type} (f : ε → ε') (g : α → β) (read : Except ε α) :
    (read.mapError f).map g = (read.map g).mapError f := by
  cases read <;> rfl

theorem document_insert {ending : List Char} (hbefore : EndsLine before) (hline : '\n' ∉ line) (h : Passed line)
    (hending : ending = ['\n'] ∨ ending = [] ∧ after = []) :
    document (before ++ (line ++ (ending ++ after))) =
      (document (before ++ after)).mapError (Halt.renumber (behind (before.count '\n'))) := by
  have hfeed : ∀ (s : State) (number : Nat), s.feedTexts number (Text.lines (line ++ (ending ++ after))) =
      s.feedTexts number (line :: Text.lines after) := by
    intro s number
    -- without an end an empty line adds none, but to feed it changes nothing either
    rcases hending with rfl | ⟨rfl, rfl⟩
    · rw [List.singleton_append, Text.lines_newline after hline, State.feedTexts_cons_congr (ofText_chomp line)]
    · rw [List.nil_append, List.append_nil, feedTexts_unended hline]
      rfl
  have hinsert : State.start.feedTexts 1 (Text.lines (before ++ (line ++ (ending ++ after)))) =
      State.start.feedTexts 1 (Text.lines before ++ line :: Text.lines after) := by
    simp only [Text.lines_append _ hbefore, State.feedTexts_append, hfeed]
  rw [document, document, hinsert, State.feedTexts_insert_blank h.reading, Text.lines_append after hbefore,
    Text.length_lines hbefore, mapError_map]

theorem exists_last_line : ∀ text : List Char, ∃ before line, text = before ++ line ∧ EndsLine before ∧ '\n' ∉ line
  | [] => ⟨[], [], rfl, nofun, by simp⟩
  | c :: text => by
    obtain ⟨before, line, rfl, hbefore, hline⟩ := exists_last_line text
    cases before with
    | nil =>
      by_cases hc : c = '\n'
      · exact ⟨[c], line, rfl, by simpa [EndsLine] using hc, hline⟩
      · exact ⟨[], c :: line, rfl, nofun, by simp [hline, Ne.symm hc]⟩
    | cons d before =>
      refine ⟨c :: d :: before, line, rfl, ?_, hline⟩
      rwa [EndsLine, List.getLast?_cons_cons]

theorem document_finish (text : List Char) : document (text ++ ['\n']) = document text := by
  obtain ⟨before, line, rfl, hbefore, hline⟩ := exists_last_line text
  rw [List.append_assoc]
  refine document_append_congr hbefore fun s number => ?_
  rw [Text.lines_newline [] hline, State.feedTexts_cons_congr (ofText_chomp line), feedTexts_unended hline]
  rfl

theorem mapError_id (read : Except Halt Value) : read.mapError (Halt.renumber id) = read := by
  cases read <;> rfl

theorem document_edit (h : Edit text text' f) :
    document text' = (document text).mapError (Halt.renumber f) := by
  cases h with
  | insert hbefore hline h hending => exact document_insert hbefore hline h hending
  | comment hbefore hline hafter h htext =>
    rw [mapError_id]
    refine document_line_congr hbefore ?_ hline hafter (LineReading.ofText_append_comment h _)
    simp [hline, htext]
  | blanks hbefore hline hafter h hblanks =>
    rw [mapError_id]
    refine document_line_congr hbefore ?_ hline hafter (LineReading.ofText_append_blanks h _)
    simp [hline, hblanks]
  | finish => rw [mapError_id, document_finish]
  | carriageReturn hbefore hline =>
    rename_i before line after
    rw [mapError_id, ← List.singleton_append, ← List.append_assoc line]
    refine document_line_congr hbefore ?_ hline (.newline after) (LineReading.ofText_append_blanks rfl line)
    simp [hline]

/-- **Edits one after the other** do so as well. -/
theorem document_edits (h : Edits text text' f) : document text' = (document text).mapError (Halt.renumber f) := by
  induction h with
  | none => rw [mapError_id]
  | more h hedit ih =>
    rw [document_edit hedit, ih]
    cases document text <;> rfl

end Yaml

def DecodeError.renumber (f : Nat → Nat) : DecodeError → DecodeError
  | .json fault position => .json fault position
  | .yaml fault line => .yaml fault (f line)

/-- **Comments, lines without content, blanks at the ends of lines and the kind of the ends do not matter**: the edited
text has the same value, or the same error on the line where the line at fault is now. -/
theorem decodeYaml_edits {text text' : String} {f : Nat → Nat} (h : Yaml.Edits text.toList text'.toList f) :
    decodeYaml text' = (decodeYaml text).mapError (DecodeError.renumber f) := by
  rw [decodeYaml, decodeYaml, Yaml.document_edits h]
  cases Yaml.document text.toList <;> rfl

/-- Edits of each kind move the line at fault from the second place to the third. -/
theorem decodeYaml_edits_rejected :
    decodeYaml "a: 1\nb" = .error (.yaml .expectedEntry 2) ∧
    decodeYaml "\t# x\na: 1 # y\r\nb \n" = .error (.yaml .expectedEntry 3) := by
  have hrejected : decodeYaml "a: 1\nb" = .error (.yaml .expectedEntry 2) := by rfl
  have hinsert : Yaml.Edit "a: 1\nb".toList "\t# x\na: 1\nb".toList (Yaml.behind 0) :=
    @Yaml.Edit.insert [] ['\t', '#', ' ', 'x'] ['\n'] _ nofun (by decide) (@Yaml.Passed.comment ['\t'] rfl [' ', 'x'])
      (.inl rfl)
  have hcomment : Yaml.Edit "\t# x\na: 1\nb".toList "\t# x\na: 1 # y\nb".toList id :=
    @Yaml.Edit.comment "\t# x\n".toList "a: 1".toList "\nb".toList " y".toList (by simp [EndsLine]) (by simp)
      (.newline ['b']) rfl (by simp)
  have hreturn : Yaml.Edit "\t# x\na: 1 # y\nb".toList "\t# x\na: 1 # y\r\nb".toList id :=
    @Yaml.Edit.carriageReturn "\t# x\n".toList "a: 1 # y".toList ['b'] (by simp [EndsLine]) (by simp)
  have hblanks : Yaml.Edit "\t# x\na: 1 # y\r\nb".toList "\t# x\na: 1 # y\r\nb ".toList id :=
    @Yaml.Edit.blanks "\t# x\na: 1 # y\r\n".toList ['b'] [] [' '] (by simp [EndsLine]) (by simp) .text rfl (by simp)
  have hedits := ((((Yaml.Edits.none _).more hinsert).more hcomment).more hreturn).more hblanks
  refine ⟨hrejected, ?_⟩
  rw [decodeYaml_edits (hedits.more (.finish _)), hrejected]
  rfl

end DocQuery
