import DocQuery.Proofs.Yaml.FrameInvariant
import DocQuery.Proofs.Yaml.Noise
/-!
# The first fault

The lines of a document are read one after the other, and the first that does not fit decides: what stands in front of
it is a document of its own, and whatever stands behind it leaves the error as it is (`State.feedTexts_eq_error_iff`).
Lines with newlines between them are fed like the lines themselves (`feedTexts_joined`), so this holds for texts.
-/
namespace DocQuery

def Text.joined (ls : List (List Char)) : List Char :=
  ['\n'].intercalate ls

namespace Yaml

open Text (joined EndsLine)

/-! ## Lines that are read to their end, or up to a fault -/

namespace State

/-- **Reading stops at the first line that does not fit**: those in front of it are accepted. -/
theorem feedTexts_eq_error_iff {halt : Halt} : ∀ {texts : List (List Char)} {number : Nat} {s : State},
    s.feedTexts number texts = .error halt ↔ ∃ before raw after next, texts = before ++ raw :: after ∧
      s.feedTexts number before = .ok next ∧ next.feedText raw = .error halt.fault ∧
      halt.line = number + before.length
  | [], number, s => by
    refine iff_of_false (fun h => by cases h) ?_
    rintro ⟨before, raw, after, next, h, -⟩
    simp at h
  | raw :: texts, number, s => by
    constructor
    · intro h
      rw [feedTexts] at h
      cases hr : s.feedText raw with
      | error fault =>
        rw [hr] at h
        cases h
        exact ⟨[], raw, texts, s, rfl, rfl, hr, rfl⟩
      | ok next =>
        rw [hr] at h
        obtain ⟨before, bad, after, last, rfl, hb, hf, hl⟩ := feedTexts_eq_error_iff.1 h
        refine ⟨raw :: before, bad, after, last, rfl, ?_, hf, ?_⟩
        · rw [feedTexts, hr]
          exact hb
        · rw [hl, List.length_cons]
          omega
    · rintro ⟨before, bad, after, last, htexts, hb, hf, hl⟩
      rw [htexts, feedTexts_append, hb]
      dsimp only
      rw [feedTexts, hf, ← hl]

theorem feedTexts_append_of_error {texts : List (List Char)} {number : Nat} {s : State} {halt : Halt}
    (h : s.feedTexts number texts = .error halt) (more : List (List Char)) :
    s.feedTexts number (texts ++ more) = .error halt := by
  rw [feedTexts_append, h]

theorem exists_feedTexts_of_append {texts more : List (List Char)} {number : Nat} {s last : State}
    (h : s.feedTexts number (texts ++ more) = .ok last) : ∃ next, s.feedTexts number texts = .ok next := by
  cases hs : s.feedTexts number texts with
  | ok next => exact ⟨next, rfl⟩
  | error halt =>
    rw [feedTexts_append_of_error hs] at h
    cases h

end State

/-! ## Joined lines -/

theorem feedTexts_joined : ∀ {ls : List (List Char)}, (∀ l ∈ ls, '\n' ∉ l) → ∀ (s : State) (number : Nat),
    s.feedTexts number (Text.lines (joined ls)) = s.feedTexts number ls
  | [], _, _, _ => rfl
  | [l], h, s, number => by
    have hjoined : joined [l] = l := by simp [joined]
    rw [hjoined, feedTexts_unended (h l (by simp))]
  | l :: l' :: ls, h, s, number => by
    obtain ⟨hl, hls⟩ := List.forall_mem_cons.1 h
    have hjoined : joined (l :: l' :: ls) = l ++ '\n' :: joined (l' :: ls) := by simp [joined]
    rw [hjoined, Text.lines_newline _ hl, State.feedTexts_cons_congr (ofText_chomp l), State.feedTexts,
      State.feedTexts]
    cases s.feedText l with
    | error fault => rfl
    | ok next => exact feedTexts_joined hls next (number + 1)

/-! ## Texts -/

theorem document_eq_error_iff {cs : List Char} {halt : Halt} :
    document cs = .error halt ↔ State.start.feedTexts 1 (Text.lines cs) = .error halt := by
  unfold document
  cases State.start.feedTexts 1 (Text.lines cs) <;> simp [Except.map]

theorem document_append_of_error {cs : List Char} {halt : Halt} (h : document cs = .error halt) (hend : EndsLine cs)
    (more : List Char) : document (cs ++ more) = .error halt := by
  rw [document_eq_error_iff] at h ⊢
  rw [Text.lines_append more hend, State.feedTexts_append_of_error h]

theorem document_joined {ls : List (List Char)} (h : ∀ l ∈ ls, '\n' ∉ l) :
    document (joined ls) = (State.start.feedTexts 1 ls).map State.finish := by
  rw [document, feedTexts_joined h]

/-- **The lines of a document are all accepted, or one of them is the first that is not.**  In front of it every part of
the document that ends with a line is a document, and from it on every part has the same error. -/
theorem document_joined_cases (ls : List (List Char)) (h : ∀ l ∈ ls, '\n' ∉ l) :
    (∀ k, ∃ v, document (joined (ls.take k)) = .ok v) ∨
    ∃ fault before line after, ls = before ++ line :: after ∧ ¬Passed line ∧
      (∀ k < before.length + 1, ∃ v, document (joined (ls.take k)) = .ok v) ∧
      ∀ k, before.length + 1 ≤ k → document (joined (ls.take k)) = .error ⟨fault, before.length + 1⟩ := by
  have htake : ∀ k, document (joined (ls.take k)) = (State.start.feedTexts 1 (ls.take k)).map State.finish := fun k =>
    document_joined fun l hl => h l (List.mem_of_mem_take hl)
  have haccepted : ∀ {k next}, State.start.feedTexts 1 (ls.take k) = .ok next →
      ∃ v, document (joined (ls.take k)) = .ok v := by
    intro k next hn
    exact ⟨next.finish, by rw [htake, hn]; rfl⟩
  cases hs : State.start.feedTexts 1 ls with
  | ok last =>
    refine .inl fun k => ?_
    rw [← List.take_append_drop k ls] at hs
    obtain ⟨next, hn⟩ := State.exists_feedTexts_of_append hs
    exact haccepted hn
  | error halt =>
    obtain ⟨before, line, after, next, hls, hb, hf, hline⟩ := State.feedTexts_eq_error_iff.1 hs
    have hlength : halt.line = before.length + 1 := by omega
    refine .inr ⟨halt.fault, before, line, after, hls, ?_, fun k hk => ?_, fun k hk => ?_⟩
    · intro hpassed
      rw [State.feedText_blank hpassed.reading] at hf
      cases hf
    · have hfront : ls.take k = before.take k := by rw [hls, List.take_append_of_le_length (by omega)]
      rw [← List.take_append_drop k before] at hb
      obtain ⟨s, hn⟩ := State.exists_feedTexts_of_append hb
      exact haccepted (hfront ▸ hn)
    · -- the part still has the bad line at its place, whatever is left behind it
      have hfront : ls.take k = before ++ line :: after.take (k - (before.length + 1)) := by
        have hlength : (before ++ [line]).length ≤ k := by simpa using hk
        rw [hls, List.append_cons, List.take_append, List.take_of_length_le hlength]
        simp
      have herror := State.feedTexts_eq_error_iff.2
        ⟨before, line, after.take (k - (before.length + 1)), next, hfront, hb, hf, hline⟩
      rw [htake, herror, ← hlength]
      rfl

theorem Frames.exists_finish {texts : List (List Char)} {number : Nat} {d : Frames.Decoder}
    (h : Frames.Decoder.empty.feedTexts number texts = .ok d) : ∃ v, d.finish = .ok v := by
  have hempty : State.start.decoder = Frames.Decoder.empty := rfl
  have hd := Frames.Decoder.feedTexts_decoder texts number .start
  rw [hempty, h] at hd
  cases hs : State.start.feedTexts number texts with
  | error halt =>
    rw [hs] at hd
    cases hd
  | ok s =>
    rw [hs] at hd
    cases hd
    exact ⟨_, Frames.Decoder.finish_decoder s⟩

end Yaml

def firstLines (text : String) (k : Nat) : String :=
  String.ofList (Text.joined ((Text.lines text.toList).take k))

theorem decodeYaml_eq_ok_iff {text : String} {v : Value} :
    decodeYaml text = .ok v ↔ Yaml.document text.toList = .ok v := by
  unfold decodeYaml
  cases Yaml.document text.toList <;> simp

theorem decodeYaml_eq_error_iff {text : String} {fault : Yaml.Fault} {line : Nat} :
    decodeYaml text = .error (.yaml fault line) ↔ Yaml.document text.toList = .error ⟨fault, line⟩ := by
  unfold decodeYaml
  cases Yaml.document text.toList with
  | ok v => simp
  | error halt => cases halt; simp

/-- **The first bad line decides.**  A text decodes as its lines do.  Either every number of its first lines decodes, or
there is one line from which on they all have the same error, whatever follows, while those in front of it decode; that
line holds more than blanks and a comment.  Frames that have accepted lines can always be ended. -/
theorem decodeYaml_firstFault (text : String) :
    decodeYaml (firstLines text (Text.lines text.toList).length) = decodeYaml text ∧
    ((∀ k, ∃ v, decodeYaml (firstLines text k) = .ok v) ∨
      ∃ fault e line, 1 ≤ e ∧ e ≤ (Text.lines text.toList).length ∧
        (∀ k < e, ∃ v, decodeYaml (firstLines text k) = .ok v) ∧
        (∀ k, e ≤ k → decodeYaml (firstLines text k) = .error (.yaml fault e)) ∧
        (∀ more, decodeYaml (text ++ "\n" ++ more) = .error (.yaml fault e)) ∧
        (Text.EndsLine text.toList → ∀ more, decodeYaml (text ++ more) = .error (.yaml fault e)) ∧
        (Text.lines text.toList)[e - 1]? = some line ∧ ¬Yaml.Passed line) ∧
    ∀ texts d, Yaml.Frames.Decoder.empty.feedTexts 1 texts = .ok d → ∃ v, d.finish = .ok v := by
  have hlines := Text.not_mem_lines text.toList
  have hfirst : ∀ k, (firstLines text k).toList = Text.joined ((Text.lines text.toList).take k) := fun k =>
    String.toList_ofList
  have hwhole : decodeYaml (firstLines text (Text.lines text.toList).length) = decodeYaml text := by
    rw [decodeYaml, decodeYaml, hfirst, List.take_length, Yaml.document_joined hlines, Yaml.document]
  refine ⟨hwhole, ?_, fun texts d => Yaml.Frames.exists_finish⟩
  have hcases := Yaml.document_joined_cases (Text.lines text.toList) hlines
  simp only [← hfirst, ← decodeYaml_eq_ok_iff, ← decodeYaml_eq_error_iff] at hcases
  rcases hcases with hok | ⟨fault, before, line, after, hcut, hline, hok, herror⟩
  · exact .inl hok
  have hlength : before.length + 1 ≤ (Text.lines text.toList).length := by
    rw [hcut, List.length_append, List.length_cons]
    omega
  have htext := decodeYaml_eq_error_iff.1 (hwhole ▸ herror _ hlength)
  refine .inr ⟨fault, before.length + 1, line, by omega, hlength, hok, herror, fun more => ?_, fun hend more => ?_,
    ?_, hline⟩
  · have hended : Text.EndsLine (text.toList ++ ['\n']) := by simp [Text.EndsLine]
    rw [← Yaml.document_finish] at htext
    rw [decodeYaml_eq_error_iff, String.toList_append, String.toList_append]
    exact Yaml.document_append_of_error htext hended more.toList
  · rw [decodeYaml_eq_error_iff, String.toList_append]
    exact Yaml.document_append_of_error htext hend more.toList
  · rw [hcut, Nat.add_sub_cancel, List.getElem?_append_right (Nat.le_refl _), Nat.sub_self]
    rfl

end DocQuery
