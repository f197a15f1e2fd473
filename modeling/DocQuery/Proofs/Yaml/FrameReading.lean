import DocQuery.Proofs.Yaml.FrameInvariant
import DocQuery.Proofs.Yaml.Resumption
/-!
# Frames read what recursion reads

Two ways to read a text with open blocks meet here: frames are those of open blocks (`Frames.document_eq`), and what open
blocks read is what recursion reads (`document_eq_reading`).  So a stack of frames that takes each line dash by dash ends
with the value that recursion gives, or stops on the line where recursion stops (`decodeYaml_eq_reading`).
-/
namespace DocQuery

theorem Yaml.Frames.document_eq_reading (cs : List Char) :
    (Frames.document cs).mapError Prod.snd = Reading.document cs := by
  rw [Frames.document_eq, ← Yaml.document_eq_reading]
  cases Yaml.document cs with
  | ok v => rfl
  | error halt => rfl

/-- **A block document decodes to what recursion reads**, and where there is nothing to read the error is on the line that
reading stops at.  The stack of frames gives the same value or the same line, and the marks that recursion reads on a line
are split off it dash by dash, as frames take them. -/
theorem decodeYaml_eq_reading (text : String) :
    (decodeYaml text).mapError DecodeError.line = Yaml.Reading.document text.toList ∧
    (Yaml.Frames.document text.toList).mapError Prod.snd = Yaml.Reading.document text.toList ∧
    ∀ raw line, Yaml.LineReading.ofText raw = .content line →
      line.marks = Yaml.lineMarks line.column line.content := by
  refine ⟨?_, Yaml.Frames.document_eq_reading text.toList, fun raw line h => Yaml.LineReading.marks_eq_lineMarks h⟩
  rw [← Yaml.document_eq_reading, decodeYaml]
  cases Yaml.document text.toList with
  | ok v => rfl
  | error halt => rfl

/-- Two dashes and an entry on a line, which a dash on the next line follows at the column of the second. -/
theorem decodeYaml_eq_reading_nested :
    Yaml.Reading.document "- - k:\n  - v".toList =
      .ok (.array [.array [.object [("k", .null)], .scalar (.string "v")]]) ∧
    (Yaml.Frames.document "- - k:\n  - v".toList).mapError Prod.snd =
      .ok (.array [.array [.object [("k", .null)], .scalar (.string "v")]]) ∧
    Yaml.LineReading.ofText "- - k:".toList = .content ⟨0, "- - k:".toList⟩ ∧
    Yaml.lineMarks 0 "- - k:".toList = [(0, .item), (2, .item), (4, .entry ['k'] [])] := by
  obtain ⟨hdecode, hframes, hmarks⟩ := decodeYaml_eq_reading "- - k:\n  - v"
  have hread : Yaml.Reading.document "- - k:\n  - v".toList =
      .ok (.array [.array [.object [("k", .null)], .scalar (.string "v")]]) := hdecode.symm.trans rfl
  have hline : Yaml.LineReading.ofText "- - k:".toList = .content ⟨0, "- - k:".toList⟩ := rfl
  exact ⟨hread, hframes.trans hread, hline, (hmarks _ _ hline).symm⟩

end DocQuery
