import DocQuery.Decode
import DocQuery.Filter.Selection
import DocQuery.Proofs.Json.Sources
import DocQuery.Proofs.Yaml.Resumption
import DocQuery.Proofs.Yaml.Sources
/-!
# Keys stand once

A document has no object in which a key stands twice, however often it was written (`decode_uniqueKeys`), and neither
does a value that paths, filters and selections make of it: what they select are parts of the document, and what they
build are arrays.
-/
namespace DocQuery

open Value (UniqueKeys)

/-- **What a document leads to**: its values, and those that are selected, filtered and made of selections. -/
inductive Obtained (root : Value) : Selection → Prop
  | root : Obtained root (.single root)
  | element {selection : Selection} {v : Value} (h : Obtained root selection) (hv : v ∈ selection.values) :
    Obtained root (.single v)
  | toValue {selection : Selection} (h : Obtained root selection) : Obtained root (.single selection.toValue)
  | select {path : Path} {v : Value} {selection : Selection} (h : Obtained root (.single v))
    (hselect : path.select v = .ok selection) : Obtained root selection
  | filter {p : Predicate} {selection kept : Selection} (h : Obtained root selection)
    (hfilter : selection.filter? p = some kept) : Obtained root kept

def Selection.KeysOnce (selection : Selection) : Prop :=
  ∀ v ∈ selection.values, v.Everywhere UniqueKeys

variable {selection kept next : Selection} {v : Value}

theorem keysOnce_single : (Selection.single v).KeysOnce ↔ v.Everywhere UniqueKeys := by
  simp [Selection.KeysOnce, Selection.values]

theorem Selection.KeysOnce.toValue (h : selection.KeysOnce) : selection.toValue.Everywhere UniqueKeys := by
  cases selection with
  | single v => exact keysOnce_single.1 h
  | many vs => exact Value.everywhere_array.2 ⟨trivial, h⟩

theorem Selection.KeysOnce.step {s : Segment} (hv : v.Everywhere UniqueKeys) (h : s.step? v = some next) :
    next.KeysOnce := by
  cases s with
  | key name =>
    obtain ⟨u, hu, rfl⟩ := Option.map_eq_some_iff.1 h
    cases v with
    | object entries => exact keysOnce_single.2 ((Value.everywhere_object.1 hv).2 _ (Entries.mem_of_lookup hu))
    | array items => cases hu
    | scalar x => cases hu
  | index i =>
    obtain ⟨u, hu, rfl⟩ := Option.map_eq_some_iff.1 h
    cases v with
    | object entries => cases hu
    | array items => exact keysOnce_single.2 ((Value.everywhere_array.1 hv).2 _ (List.mem_of_getElem? hu))
    | scalar x => cases hu
  | wildcard =>
    cases v with
    | object entries => cases h
    | array items =>
      cases h
      exact (Value.everywhere_array.1 hv).2
    | scalar x => cases h

theorem Selection.KeysOnce.follow : ∀ {path reached : Path} {selection next : Selection}, selection.KeysOnce →
    Path.follow reached path selection = .ok next → next.KeysOnce
  | [], _, selection, _, hs, h => by
    cases selection <;> (cases h; exact hs)
  | s :: path, reached, .single v, next, hs, h => by
    rw [Path.follow] at h
    split at h
    · rename_i step hstep
      exact follow (Selection.KeysOnce.step (keysOnce_single.1 hs) hstep) h
    · cases h
  | s :: path, reached, .many vs, next, hs, h => by
    rw [Path.follow] at h
    refine follow (fun u hu => ?_) h
    obtain ⟨v, hv, hu⟩ := List.mem_flatMap.1 hu
    cases hstep : s.step? v with
    | none =>
      rw [hstep] at hu
      cases hu
    | some step =>
      rw [hstep] at hu
      exact Selection.KeysOnce.step (hs v hv) hstep u hu

theorem Selection.KeysOnce.filter {p : Predicate} (hs : selection.KeysOnce) (h : selection.filter? p = some kept) :
    kept.KeysOnce := by
  have hkeep : ∀ vs : List Value, (∀ v ∈ vs, v.Everywhere UniqueKeys) → (Selection.many (p.keep vs)).KeysOnce :=
    fun vs hvs v hv => hvs v (List.mem_filter.1 hv).1
  unfold Selection.filter? at h
  split at h
  · rename_i vs
    cases h
    exact hkeep vs hs
  · rename_i items
    cases h
    exact hkeep items (Value.everywhere_array.1 (keysOnce_single.1 hs)).2
  · split at h
    · cases h
      exact hs
    · cases h
  · cases h

/-- **Whatever a document leads to keeps its keys unique**, if the document does. -/
theorem Obtained.keysOnce {root : Value} (hroot : root.Everywhere UniqueKeys) (h : Obtained root selection) :
    selection.KeysOnce := by
  induction h with
  | root => exact keysOnce_single.2 hroot
  | element h hv ih => exact keysOnce_single.2 (ih _ hv)
  | toValue h ih => exact keysOnce_single.2 ih.toValue
  | select h hselect ih => exact ih.follow hselect
  | filter h hfilter ih => exact ih.filter hfilter

/-! ## Documents -/

/-- What a text writes.  A text without content writes the object without pairs. -/
def Format.Writes (text : String) (source : Source) : Format → Prop
  | .json => ∃ rest, Json.Spells (.value source) text.toList rest ∧ Json.skipSpace rest = []
  | .yaml => ∃ ms, Yaml.Reading.content 1 false (Text.lines text.toList) = (ms, none) ∧
    if ms = [] then source = .object [] else Yaml.Spells (.value (fun _ => true) source) ms []

theorem json_writes {text : String} (h : decodeJson text = .ok v) :
    (∃ source, Format.json.Writes text source) ∧ ∀ source, Format.json.Writes text source → source.value = v := by
  have hdocument : Json.document text.toList = .ok v := by
    unfold decodeJson at h
    split at h
    · rename_i w hw
      cases h
      exact hw
    · cases h
  obtain ⟨⟨w, rest⟩, hvalue, hrest⟩ := Json.bind_eq_ok hdocument
  obtain ⟨source, hsource, rfl⟩ := Json.exists_spells hvalue
  dsimp only at hrest
  split at hrest
  · rename_i hskip
    cases hrest
    refine ⟨⟨source, rest, hsource, hskip⟩, ?_⟩
    rintro source' ⟨rest', hsource', -⟩
    rw [(hsource.alone _ _ hsource').1]
  · cases hrest

theorem yaml_writes {text : String} (h : decodeYaml text = .ok v) :
    (∃ source, Format.yaml.Writes text source) ∧ ∀ source, Format.yaml.Writes text source → source.value = v := by
  have hdocument := decodeYaml_eq_ok.1 h
  unfold Yaml.Reading.document at hdocument
  obtain ⟨hread, hhalt⟩ := Yaml.Reading.verdict_eq_ok hdocument
  generalize hcontent : Yaml.Reading.content 1 false (Text.lines text.toList) = content at hread hhalt
  obtain ⟨ms, halt⟩ := content
  obtain rfl : halt = none := hhalt
  by_cases hms : ms = []
  · subst hms
    cases hread
    refine ⟨⟨.object [], [], hcontent, rfl⟩, ?_⟩
    rintro source ⟨ms, hms, hsource⟩
    cases hcontent.symm.trans hms
    rw [if_pos rfl] at hsource
    rw [hsource]
    rfl
  · have hroot : Yaml.Reading.root ms = Yaml.Reading.value (fun _ => true) ms := by
      rw [Yaml.Reading.root, List.isEmpty_eq_false_iff.2 hms]
      rfl
    rw [hroot] at hread
    obtain ⟨source, hvalue, hsource⟩ := Yaml.exists_spells_value (fun _ => true) ms
    rw [hread] at hsource
    refine ⟨⟨source, ms, hcontent, by rwa [if_neg hms]⟩, ?_⟩
    rintro source' ⟨ms', hms', hsource'⟩
    cases hcontent.symm.trans hms'
    rw [if_neg hms] at hsource'
    have hfound : Yaml.Reading.value (fun _ => true) ms = (source'.value, []) := hsource'.found
    rw [hread] at hfound
    exact (Prod.mk.inj hfound).1.symm

/-- **A document keeps its keys unique**, and so does all that it leads to.  It is what its text writes, with each key
where it was written first and with the value written for it last. -/
theorem decode_uniqueKeys {format : Format} {text : String} (h : decode format text = .ok v) :
    v.Everywhere UniqueKeys ∧ (∃ source, format.Writes text source) ∧
    (∀ source, format.Writes text source → Gives source v) ∧
    ∀ selection, Obtained v selection → selection.KeysOnce ∧ selection.toValue.Everywhere UniqueKeys := by
  have hwrites : (∃ source, format.Writes text source) ∧ ∀ source, format.Writes text source → source.value = v := by
    cases format with
    | json => exact json_writes h
    | yaml => exact yaml_writes h
  obtain ⟨⟨source, hsource⟩, hvalue⟩ := hwrites
  have hgives : ∀ source, format.Writes text source → Gives source v := by
    intro source hsource
    rw [← hvalue source hsource]
    exact source.gives_value
  have hkeys := (hgives source hsource).everywhere_uniqueKeys
  refine ⟨hkeys, ⟨source, hsource⟩, hgives, fun selection hs => ?_⟩
  have honce := hs.keysOnce hkeys
  exact ⟨honce, honce.toValue⟩

/-- Keys that stand twice, with a text and a block, and with a text and nothing. -/
theorem decode_uniqueKeys_twice : ∃ v, decode .yaml "a: 1\nb: x\na:\n  c: 2\nb:\n" = .ok v ∧ v.Everywhere UniqueKeys ∧
    Gives (.object [("a", .scalar (.number (.integer 1))), ("b", .scalar (.string "x")),
      ("a", .object [("c", .scalar (.number (.integer 2)))]), ("b", .scalar .null)]) v := by
  have hdecode : decode .yaml "a: 1\nb: x\na:\n  c: 2\nb:\n" =
      .ok (.object [("a", .object [("c", .integer 2)]), ("b", .null)]) := rfl
  obtain ⟨hkeys, -, hgives, -⟩ := decode_uniqueKeys hdecode
  have hinner : Yaml.Spells (.value (Yaml.Reading.underKey 0) (.object [("c", .scalar (.number (.integer 2)))]))
      [⟨4, 2, .entry ['c'] ['2']⟩, ⟨5, 0, .entry ['b'] []⟩] [⟨5, 0, .entry ['b'] []⟩] :=
    .mapping rfl (@Yaml.Spells.inline 2 ['c'] ['2'] [] _ _ 4 (by decide) (by decide) (.noEntry (by simp)))
  have hlast : Yaml.Spells (.entries 0 [("b", .scalar .null)]) [⟨5, 0, .entry ['b'] []⟩] [] :=
    @Yaml.Spells.following 0 ['b'] (.scalar .null) [] [] [] [] 5 (by decide) (.nothing nofun) (.noEntry nofun)
  refine ⟨_, hdecode, hkeys, hgives _ ⟨[⟨1, 0, .entry ['a'] ['1']⟩, ⟨2, 0, .entry ['b'] ['x']⟩, ⟨3, 0, .entry ['a'] []⟩,
    ⟨4, 2, .entry ['c'] ['2']⟩, ⟨5, 0, .entry ['b'] []⟩], rfl, ?_⟩⟩
  rw [if_neg (by simp)]
  exact .mapping rfl (@Yaml.Spells.inline 0 ['a'] ['1'] _ _ _ 1 (by decide) (by decide)
    (@Yaml.Spells.inline 0 ['b'] ['x'] _ _ _ 2 (by decide) (by decide)
      (@Yaml.Spells.following 0 ['a'] _ _ _ _ _ 3 (by decide) hinner hlast)))

end DocQuery
