import DocQuery.Proofs.Json.NumberTexts
import DocQuery.Proofs.Scalar.Typing
import DocQuery.Proofs.Yaml.InlineEntries
/-!
# Types of numbers in both formats

A number by the grammar of JSON is typed by two readers, that of JSON and that of bare text.  Both make an integer of the
text of an integer in range and a float of any other number, but for one text: the negative zero is a float in JSON and
an integer in a block document (`number_types`).
-/
namespace DocQuery

open Json (NumberText TypedAs)

variable {t : List Char}

/-! ## Texts of numbers -/

namespace Json.NumberText

theorem exists_decimalText (h : NumberText t) : ∃ negative d, Scalar.DecimalText negative d t := by
  obtain ⟨hsign, hwhole, hfraction, hpower⟩ := h
  rename_i sign whole fraction power e
  obtain ⟨d, hd⟩ : ∃ d, Scalar.UnsignedText d (whole ++ (fraction ++ power)) := by
    rcases hfraction with rfl | ⟨ds, hds, rfl⟩
    · exact ⟨_, .intro (.whole hwhole.isDigits) hpower⟩
    · have htext := Scalar.UnsignedText.intro (.point hwhole.isDigits hds.isDigit) hpower
      rw [List.append_assoc] at htext
      exact ⟨_, htext⟩
  rcases hsign with rfl | rfl
  · exact ⟨_, d, .intro .none hd⟩
  · exact ⟨_, d, .intro .minus hd⟩

theorem isNumeral (h : NumberText t) : ∀ c ∈ t, Scalar.isNumeral c = true := by
  obtain ⟨negative, d, hd⟩ := h.exists_decimalText
  exact hd.isNumeral

theorem not_mem (h : NumberText t) {c : Char} (hc : Scalar.isNumeral c = false) : c ∉ t := by
  intro hmem
  rw [h.isNumeral c hmem] at hc
  cases hc

theorem trimmed (h : NumberText t) : Text.Trimmed t := by
  obtain ⟨negative, d, hd⟩ := h.exists_decimalText
  exact hd.trimmed

theorem exists_ofText (h : NumberText t) : ∃ m, Scalar.ofText t = .number m ∧
    ∀ i : Int64, m = .integer i ↔ Scalar.IntegerText i.toInt t := by
  obtain ⟨negative, d, hd⟩ := h.exists_decimalText
  cases hm : Scalar.number? t with
  | none => exact absurd ⟨negative, d, hd⟩ (Scalar.number?_eq_none_iff.1 hm)
  | some m =>
    refine ⟨m, hd.ofText_eq_number_iff.2 hm, fun i => ?_⟩
    rw [← Scalar.number?_eq_integer_iff, hm, Option.some_inj]

/-! ## Lines with numbers -/

theorem marks_eq (h : NumberText t) : Yaml.marks 0 t = [(0, .text t)] := by
  have hentry : Yaml.entryParts? t = none := by
    have hd : '"' ∉ t := h.not_mem rfl
    have hs : '\'' ∉ t := h.not_mem rfl
    rw [Yaml.entryParts?, Yaml.splitEntry_of_not_mem (h.not_mem rfl)]
    · rfl
    · rintro r rfl
      exact hd List.mem_cons_self
    · rintro r rfl
      exact hs List.mem_cons_self
  have hcontent : Yaml.marks 0 t = [(0, .ofContent t)] := by
    have hspace : ' ' ∉ t := h.not_mem rfl
    obtain ⟨hsign, hwhole, -, -⟩ := h
    obtain ⟨c, ds, rfl, hc⟩ := hwhole.isDigits.exists_cons
    rcases hsign with rfl | rfl
    · have hc' : c ≠ ' ' := fun heq => hspace (by simp [heq])
      exact Yaml.marks_of_head hc' (Scalar.ne_sign_of_isDigit hc).1 0 _
    · have hc' : c ≠ ' ' := fun heq => hspace (by simp [heq])
      simp [Yaml.marks, hc']
  rw [hcontent, Yaml.Mark.ofContent, hentry]

theorem written (h : NumberText t) : Yaml.Written t := by
  refine ⟨Yaml.uncommented_of_not_mem (h.not_mem rfl) true, h.trimmed, h.not_mem rfl, ?_, ?_⟩
  · rintro rfl
    obtain ⟨negative, d, hd⟩ := h.exists_decimalText
    have hnone : Scalar.decimal? ['-', '-'] = none := by decide
    have hsome : Scalar.decimal? ['-', '-'] = some d := (Scalar.decimalText_iff.1 hd).2
    rw [hnone] at hsome
    cases hsome
  · rintro rfl
    obtain ⟨c, ds, hcons, hc⟩ := h.head
    obtain ⟨rfl, -⟩ := List.cons.inj hcons
    rcases hc with hc | hc <;> cases hc

end Json.NumberText

/-! ## Documents -/

theorem decodeYaml_of_document {text : String} {v : Value} (h : Yaml.document text.toList = .ok v) :
    decodeYaml text = .ok v := by
  rw [decodeYaml, h]

/-- **A member of an object of numbers**: its key, how a block document writes it, and the text of its number. -/
structure NumberMember where
  key : String
  keyText : List Char
  text : List Char
  keyWritten : Yaml.KeyText key keyText
  number : NumberText text

namespace NumberMember

def entry (m : NumberMember) : Yaml.InlineEntry where
  key := m.key
  keyText := m.keyText
  text := m.text
  keyWritten := m.keyWritten
  textWritten := m.number.written
  plain := m.number.not_mem rfl

def block (members : List NumberMember) : String :=
  String.ofList (members.flatMap fun m => m.entry.line ++ ['\n'])

def object (spacing : Json.Spacing) (members : List NumberMember) : String :=
  String.ofList (Json.objectText spacing (members.map fun m => (m.key, m.text)))

theorem decodeYaml_block (members : List NumberMember) : decodeYaml (block members) =
    .ok (.object (Entries.ofPairs ((members.map NumberMember.entry).map Yaml.InlineEntry.pair))) := by
  have hdocument := Yaml.document_entries (members.map NumberMember.entry)
  refine decodeYaml_of_document ?_
  rw [block, String.toList_ofList, ← hdocument, List.flatMap_map]

end NumberMember

namespace Json.NumberText

theorem decodeYaml_text {text : String} (h : NumberText text.toList) :
    decodeYaml text = .ok (.scalar (.ofText text.toList)) :=
  decodeYaml_of_document (Yaml.document_text h.written h.marks_eq)

theorem decodeYaml_entry (h : NumberText t) {key : String} {q : List Char} (hq : Yaml.KeyText key q) :
    decodeYaml (String.ofList (q ++ ':' :: ' ' :: t)) = .ok (.object [(key, .scalar (.ofText t))]) := by
  refine decodeYaml_of_document ?_
  rw [String.toList_ofList]
  exact Yaml.document_line (NumberMember.mk key q t hq h).entry

end Json.NumberText

/-- **The same key with two numbers**, both floats or the same integer. -/
def SameTypes (e f : String × Value) : Prop :=
  e.1 = f.1 ∧ ∃ n m : Number, e.2 = .scalar (.number n) ∧ f.2 = .scalar (.number m) ∧
    n.isInteger = m.isInteger ∧ ∀ i : Int64, n = .integer i ↔ m = .integer i

theorem isInteger_eq {n m : Number} (h : ∀ i : Int64, n = .integer i ↔ m = .integer i) : n.isInteger = m.isInteger := by
  cases n with
  | integer i => rw [(h i).1 rfl]
  | float x =>
    cases m with
    | integer j => cases (h j).2 rfl
    | float y => rfl

theorem forall₂_put {es fs : Entries} {e f : String × Value} (h : List.Forall₂ SameTypes es fs) (hef : SameTypes e f) :
    List.Forall₂ SameTypes (es.put e.1 e.2) (fs.put f.1 f.2) := by
  induction h with
  | nil => exact .cons hef .nil
  | @cons e' f' es fs he' hrest ih =>
    obtain ⟨key, u⟩ := e'
    obtain ⟨key', w⟩ := f'
    obtain rfl : key = key' := he'.1
    have hkey : e.1 = f.1 := hef.1
    rw [Entries.put, Entries.put, ← hkey]
    split
    · exact .cons ⟨rfl, hef.2⟩ hrest
    · rw [← hkey] at ih
      exact .cons he' ih

theorem forall₂_foldl_put {ps qs : List (String × Value)} (h : List.Forall₂ SameTypes ps qs) {es fs : Entries}
    (hes : List.Forall₂ SameTypes es fs) : List.Forall₂ SameTypes (ps.foldl (fun es (k, v) => Entries.put k v es) es)
      (qs.foldl (fun es (k, v) => Entries.put k v es) fs) := by
  induction h generalizing es fs with
  | nil => exact hes
  | cons hpq hrest ih => exact ih (forall₂_put hes hpq)

theorem Json.NumberText.decodeJson_eq_ok {text : String} {v : Value} (ht : NumberText text.toList)
    (h : decodeJson text = .ok v) : ∃ n, v = .scalar (.number n) ∧ TypedAs text.toList n := by
  have hdocument := Json.document_of_decodeJson h
  obtain ⟨⟨w, rest⟩, hvalue, hrest⟩ := Json.bind_eq_ok hdocument
  rw [← List.append_nil text.toList] at hvalue
  have hend : Json.Follows [] := by
    intro c hc
    cases hc
  obtain ⟨rfl, n, rfl, hn⟩ := ht.value_eq_ok hend hvalue
  cases hrest
  exact ⟨n, rfl, hn⟩

theorem forall₂_pairs : ∀ {members : List NumberMember} {pairs : List (String × Source)},
    (∀ m ∈ members, m.text ≠ ['-', '0']) →
    List.Forall₂ Json.Gives (members.map fun m => (m.key, m.text)) pairs →
    List.Forall₂ SameTypes (Source.valuePairs pairs) ((members.map NumberMember.entry).map Yaml.InlineEntry.pair)
  | [], [], _, _ => .nil
  | member :: members, (key, source) :: pairs, hzero, hgives => by
    obtain ⟨hne, hzero⟩ := List.forall_mem_cons.1 hzero
    obtain ⟨⟨hkey, n, hsource, hn⟩, hmore⟩ := List.forall₂_cons.1 hgives
    obtain ⟨m, hm, hinteger⟩ := member.number.exists_ofText
    obtain rfl : source = .scalar (.number n) := hsource
    have hkinds : ∀ i : Int64, n = .integer i ↔ m = .integer i := fun i => by
      rw [hn, hinteger, and_iff_left hne]
    exact .cons ⟨hkey, n, m, rfl, congrArg Value.scalar hm, isInteger_eq hkinds, hkinds⟩ (forall₂_pairs hzero hmore)

/-- **Numbers have the same type in both formats, but for the negative zero.**  A number by the grammar of JSON that JSON
accepts is a number there and in block documents, by itself and behind a key; unless it is the negative zero, both are
floats or both are the same integer, and the negative zero is a float in JSON and an integer in block documents.  A block
of such numbers has the keys of the JSON object of them, with numbers of the same types. -/
theorem number_types (text : String) (spacing : Json.Spacing) (members : List NumberMember) :
    (∀ v : Value, NumberText text.toList → decodeJson text = .ok v → ∃ n m : Number,
      v = .scalar (.number n) ∧ decodeYaml text = .ok (.scalar (.number m)) ∧
      (∀ (key : String) (q : List Char), Yaml.KeyText key q →
        decodeYaml (String.ofList (q ++ ':' :: ' ' :: text.toList)) = .ok (.object [(key, .scalar (.number m))])) ∧
      (text ≠ "-0" → n.isInteger = m.isInteger ∧ ∀ i : Int64, n = .integer i ↔ m = .integer i) ∧
      (text = "-0" → n = .float (.zero true) ∧ m = .integer 0)) ∧
    ∀ v : Value, spacing.Blank →
      (∀ m ∈ members, m.text ≠ ['-', '0']) → decodeJson (NumberMember.object spacing members) = .ok v →
      ∃ es fs : Entries, v = .object es ∧ decodeYaml (NumberMember.block members) = .ok (.object fs) ∧
        List.Forall₂ SameTypes es fs := by
  constructor
  · intro v ht hjson
    obtain ⟨n, rfl, hn⟩ := ht.decodeJson_eq_ok hjson
    obtain ⟨m, hm, hinteger⟩ := ht.exists_ofText
    refine ⟨n, m, rfl, ?_, fun key q hq => ?_, fun hne => ?_, ?_⟩
    · rw [ht.decodeYaml_text, hm]
    · rw [ht.decodeYaml_entry hq, hm]
    · have hkinds : ∀ i : Int64, n = .integer i ↔ m = .integer i := by
        intro i
        rw [hn, hinteger, and_iff_left]
        exact fun heq => hne (String.toList_inj.1 heq)
      exact ⟨isInteger_eq hkinds, hkinds⟩
    · rintro rfl
      have hzero : decodeJson "-0" = .ok (.scalar (.number (.float (.zero true)))) := by rfl
      have hminus : Scalar.ofText "-0".toList = .number (.integer 0) := by rfl
      rw [hzero] at hjson
      rw [hminus] at hm
      cases hjson
      cases hm
      exact ⟨rfl, rfl⟩
  · intro v hspacing hzero hjson
    have hdocument := Json.document_of_decodeJson hjson
    rw [NumberMember.object, String.toList_ofList] at hdocument
    have hnumbers : ∀ m ∈ members.map fun m => (m.key, m.text), NumberText m.2 := by
      intro m hm
      obtain ⟨member, -, rfl⟩ := List.mem_map.1 hm
      exact member.number
    obtain ⟨pairs, rfl, hgives⟩ := Json.document_objectText hspacing hnumbers hdocument
    exact ⟨_, _, rfl, NumberMember.decodeYaml_block members, forall₂_foldl_put (forall₂_pairs hzero hgives) .nil⟩

/-- An integer and a float: the one by itself and behind a key, and both in a block and in an object. -/
theorem number_types_integer_and_float :
    (∃ n m : Number, decodeJson "12" = .ok (.scalar (.number n)) ∧ decodeYaml "12" = .ok (.scalar (.number m)) ∧
      decodeYaml "k: 12" = .ok (.object [("k", .scalar (.number m))]) ∧ n.isInteger = m.isInteger) ∧
    ∃ es fs : Entries, decodeJson "\x7b\"n\":12,\"x\":1.5\x7d" = .ok (.object es) ∧
      decodeYaml "n: 12\nx: 1.5\n" = .ok (.object fs) ∧ List.Forall₂ SameTypes es fs := by
  have hinteger : NumberText ([] ++ (['1', '2'] ++ ([] ++ []))) :=
    .intro (.inl rfl) (.digits rfl (by decide) (by simp)) (.inl rfl) .none
  have hfloat : NumberText ([] ++ (['1'] ++ (['.', '5'] ++ []))) :=
    .intro (.inl rfl) (.digits rfl (by decide) nofun) (.inr ⟨['5'], ⟨by decide, by simp⟩, rfl⟩) .none
  have hn : Yaml.KeyText "n" "n".toList := .bare ⟨by simp, by simp [Text.isBlank]⟩
  have hx : Yaml.KeyText "x" "x".toList := .bare ⟨by simp, by simp [Text.isBlank]⟩
  let members : List NumberMember :=
    [⟨"n", "n".toList, ['1', '2'], hn, hinteger⟩, ⟨"x", "x".toList, ['1', '.', '5'], hx, hfloat⟩]
  have htext : String.ofList (Json.objectText .compact [("n", ['1', '2']), ("x", ['1', '.', '5'])]) =
      "\x7b\"n\":12,\"x\":1.5\x7d" := by decide
  have hobject : NumberMember.object .compact members = _ := htext
  have hlines : NumberMember.block members = "n: 12\nx: 1.5\n" := by rfl
  have hentry : String.ofList ("k".toList ++ ':' :: ' ' :: "12".toList) = "k: 12" := by decide
  obtain ⟨hsingle, hmembers⟩ := number_types "12" .compact members
  rw [hobject, hlines] at hmembers
  constructor
  · obtain ⟨v, hv⟩ : ∃ v, decodeJson "12" = .ok v := ⟨_, rfl⟩
    obtain ⟨n, m, rfl, hyaml, hkey, htypes, -⟩ := hsingle v hinteger hv
    have hk : Yaml.KeyText "k" "k".toList := .bare ⟨by simp, by simp [Text.isBlank]⟩
    exact ⟨n, m, hv, hyaml, hentry ▸ hkey "k" _ hk, (htypes (by decide)).1⟩
  · have hok : (decodeJson "\x7b\"n\":12,\"x\":1.5\x7d").isOk = true := by decide +kernel
    cases hv : decodeJson "\x7b\"n\":12,\"x\":1.5\x7d" with
    | error e =>
      rw [hv] at hok
      cases hok
    | ok v =>
      obtain ⟨es, fs, rfl, hblock, htypes⟩ := hmembers v Json.Spacing.blank_compact (by simp [members]) hv
      exact ⟨es, fs, rfl, hblock, htypes⟩

/-- The negative zero has two types. -/
theorem negative_zero_types : NumberText "-0".toList ∧ ∃ n m : Number,
    decodeJson "-0" = .ok (.scalar (.number n)) ∧ decodeYaml "-0" = .ok (.scalar (.number m)) ∧
    decodeYaml "k: -0" = .ok (.object [("k", .scalar (.number m))]) ∧ n.isInteger = false ∧ m.isInteger = true := by
  have htext : NumberText (['-'] ++ (['0'] ++ ([] ++ []))) := .intro (.inr rfl) .zero (.inl rfl) .none
  exact ⟨htext, .float (.zero true), .integer 0, by rfl, by rfl, by rfl, rfl, rfl⟩

end DocQuery
