import DocQuery.Command.Report
import DocQuery.Proofs.Load.Routes
import Mathlib.Logic.ExistsUnique
/-!
# How a command ends

A run goes through its stages one after the other, and each can be the last: there is a failure for each stage, a notice
for each stage that can leave nothing, and a text at the end.  What ends a run is said by the documents, paths and
predicates themselves (`Ends`), and a run ends so and not otherwise (`run_eq_iff`).  The report then shows which of the
three ways it was, and nothing of the others.
-/
namespace DocQuery

/-! ## What the stages leave -/

/-- The values that a filter tests. -/
def Selection.tested : Selection → List Value
  | .many vs => vs
  | .single (.array items) => items
  | .single v => [v]

theorem Selection.values_filter? (p : Predicate) (selection : Selection) :
    ((selection.filter? p).map Selection.values).getD [] = selection.tested.filter p.holds := by
  cases selection with
  | many vs => rfl
  | single v =>
    cases v with
    | array items => rfl
    | object entries =>
      unfold filter? tested
      by_cases h : p.holds (.object entries) = true <;> simp [h, values]
    | scalar x =>
      have hfails : p.holds (.scalar x) = false := rfl
      simp [filter?, tested, hfails]

theorem Selection.ne_nil_of_filter? {p : Predicate} {selection kept : Selection} (h : selection.filter? p = some kept) :
    kept.values ≠ [] ↔ ∃ v ∈ selection.tested, p.holds v = true := by
  have hvalues := selection.values_filter? p
  rw [h] at hvalues
  have hkept : kept.values = selection.tested.filter p.holds := hvalues
  rw [hkept, ne_eq, List.filter_eq_nil_iff]
  simp

theorem Selection.exists_filter? {p : Predicate} {selection : Selection}
    (h : ∃ v ∈ selection.tested, p.holds v = true) : ∃ kept, selection.filter? p = some kept := by
  obtain ⟨v, hv, hholds⟩ := h
  have hvalues := selection.values_filter? p
  cases hk : selection.filter? p with
  | some kept => exact ⟨kept, rfl⟩
  | none =>
    rw [hk] at hvalues
    exact absurd hholds (List.filter_eq_nil_iff.1 hvalues.symm v hv)

theorem Path.wildcard_mem_of_values_eq_nil : ∀ {path reached : Path} {root : Value} {selection : Selection},
    follow reached path (.single root) = .ok selection → selection.values = [] → Segment.wildcard ∈ path
  | [], _, _, _, h, hnil => by
    cases h
    cases hnil
  | s :: path, reached, root, selection, h, hnil => by
    rw [follow] at h
    cases hs : s.step? root with
    | none =>
      rw [hs] at h
      cases h
    | some next =>
      rw [hs] at h
      -- a key and an index lead from one value to one value
      cases s with
      | wildcard => exact List.mem_cons_self
      | key name =>
        obtain ⟨v, -, rfl⟩ := Option.map_eq_some_iff.1 hs
        exact List.mem_cons_of_mem _ (wildcard_mem_of_values_eq_nil h hnil)
      | index i =>
        obtain ⟨v, -, rfl⟩ := Option.map_eq_some_iff.1 hs
        exact List.mem_cons_of_mem _ (wildcard_mem_of_values_eq_nil h hnil)

namespace Command

variable {options : Options} {config : Config} {sources : Sources} {selection kept : Selection} {failure : Failure}
  {outcome : Outcome}

/-- **What the query of a run selects**, once there are a document and a path. -/
def Selects [Gzip.Decoder] (options : Options) (sources : Sources) (selection : Selection) : Prop :=
  ∃ document path, load sources options.file options.yaml = .ok document ∧ Path.parse options.query = .ok path ∧
    path.select document = .ok selection

/-- **What a filter leaves to be worked on**: the selection, if no filter is given, and else its values that pass, if
there are any. -/
def Leaves [Pattern.Engine] [Gzip.Decoder] (options : Options) (sources : Sources) (kept : Selection) : Prop :=
  ∃ selection, Selects options sources selection ∧ selection.values ≠ [] ∧
    (options.filter = none ∧ kept = selection ∨ ∃ text p, options.filter = some text ∧ Filter.parse text = .ok p ∧
      selection.filter? p = some kept ∧ ∃ v ∈ selection.tested, p.holds v = true)

/-- **What makes a run fail**: a document that cannot be loaded or decoded, a path that is none or does not lead on, a
filter that is reached and is none, and a pattern that is reached and is none. -/
inductive Fails [Pattern.Engine] [Gzip.Decoder] (options : Options) (config : Config) (sources : Sources) :
    Failure → Prop
  | load {error : LoadError} (h : load sources options.file options.yaml = .error error) :
    Fails options config sources (.load error)
  | path {document : Value} {error : Path.Malformed}
    (hload : DocQuery.load sources options.file options.yaml = .ok document)
    (h : Path.parse options.query = .error error) : Fails options config sources (.query (.malformed error))
  | lookup {document : Value} {path : Path} {error : Path.NotFound}
    (hload : DocQuery.load sources options.file options.yaml = .ok document)
    (hpath : Path.parse options.query = .ok path) (h : path.select document = .error error) :
    Fails options config sources (.query (.notFound error))
  | filter {selection : Selection} {text : String} {error : Filter.Error} (hs : Selects options sources selection)
    (hne : selection.values ≠ []) (hf : options.filter = some text) (h : Filter.parse text = .error error) :
    Fails options config sources (.filter error)
  | search {kept : Selection} {pattern : String} (hk : Leaves options sources kept) (hs : options.search = some pattern)
    (h : Pattern.compile? (!(options.caseSensitive || config.caseSensitiveSearch)) pattern = none) :
    Fails options config sources (.search ⟨pattern⟩)

/-- **How a run ends.**  An empty selection ends it before the filter is looked at, and a selection of which the filter
leaves nothing ends it before the search is. -/
inductive Ends [Pattern.Engine] [Gzip.Decoder] (options : Options) (config : Config) (sources : Sources) :
    Outcome → Prop
  | failed {failure : Failure} (h : Fails options config sources failure) :
    Ends options config sources (.failed failure)
  | noResults {selection : Selection} (hs : Selects options sources selection) (hnil : selection.values = []) :
    Ends options config sources (.nothing .noResults)
  | noneKept {selection : Selection} {text : String} {p : Predicate} (hs : Selects options sources selection)
    (hne : selection.values ≠ []) (hf : options.filter = some text) (hp : Filter.parse text = .ok p)
    (h : ∀ v ∈ selection.tested, p.holds v = false) : Ends options config sources (.nothing .noneKept)
  | noHits {kept : Selection} {pattern : String} {p : Pattern} (hk : Leaves options sources kept)
    (hs : options.search = some pattern)
    (hp : Pattern.compile? (!(options.caseSensitive || config.caseSensitiveSearch)) pattern = some p)
    (h : kept.toValue.hits p = []) : Ends options config sources (.nothing .noHits)
  | shown {kept : Selection} {text : String} (hk : Leaves options sources kept)
    (h : finish options config kept.toValue = .shown text) : Ends options config sources (.shown text)

/-! ## Runs -/

theorem Selects.query [Gzip.Decoder] (h : Selects options sources selection) : ∃ document,
    load sources options.file options.yaml = .ok document ∧ DocQuery.query options.query document = .ok selection := by
  obtain ⟨document, path, hload, hpath, hselect⟩ := h
  refine ⟨document, hload, ?_⟩
  rw [DocQuery.query, hpath]
  dsimp only
  rw [hselect]
  rfl

theorem isEmpty_eq_false (h : selection.values ≠ []) : selection.isEmpty = false := by
  simpa [Selection.isEmpty] using h

theorem finish_of_hits [Pattern.Engine] {pattern : String} {p : Pattern} {v : Value} (hs : options.search = some pattern)
    (hp : Pattern.compile? (!(options.caseSensitive || config.caseSensitiveSearch)) pattern = some p)
    (hne : v.hits p ≠ []) : finish options config v = .shown (hitLines (v.hits p)) := by
  obtain ⟨hit, hits, hhits⟩ := List.exists_cons_of_ne_nil hne
  rw [finish, hs]
  dsimp only
  rw [search, hp]
  dsimp only
  rw [hhits]

section Runs

variable [Pattern.Engine] [Gzip.Decoder]

theorem run_of_values_eq_nil (hs : Selects options sources selection) (hnil : selection.values = []) :
    run options config sources = .nothing .noResults := by
  obtain ⟨document, hload, hquery⟩ := hs.query
  have hempty : selection.isEmpty = true := List.isEmpty_iff.2 hnil
  simp only [run, hload, hquery, hempty, if_true]

theorem run_of_narrow_error (hs : Selects options sources selection) (hne : selection.values ≠ [])
    (h : narrow options.filter selection = .error outcome) : run options config sources = outcome := by
  obtain ⟨document, hload, hquery⟩ := hs.query
  simp only [run, hload, hquery, isEmpty_eq_false hne, h, Bool.false_eq_true, if_false]

theorem run_of_narrow_ok (hs : Selects options sources selection) (hne : selection.values ≠ [])
    (h : narrow options.filter selection = .ok kept) :
    run options config sources = finish options config kept.toValue := by
  obtain ⟨document, hload, hquery⟩ := hs.query
  simp only [run, hload, hquery, isEmpty_eq_false hne, h, Bool.false_eq_true, if_false]

theorem narrow_of_leaves (h : Leaves options sources kept) : ∃ selection, Selects options sources selection ∧
    selection.values ≠ [] ∧ narrow options.filter selection = .ok kept := by
  obtain ⟨selection, hs, hne, ⟨hf, rfl⟩ | ⟨text, p, hf, hp, hk, hholds⟩⟩ := h
  · exact ⟨kept, hs, hne, by rw [hf]; rfl⟩
  · have hkept := isEmpty_eq_false ((Selection.ne_nil_of_filter? hk).2 hholds)
    refine ⟨selection, hs, hne, ?_⟩
    rw [hf, narrow, hp]
    dsimp only
    rw [hk]
    simp [hkept]

theorem run_of_leaves (h : Leaves options sources kept) :
    run options config sources = finish options config kept.toValue := by
  obtain ⟨selection, hs, hne, hn⟩ := narrow_of_leaves h
  exact run_of_narrow_ok hs hne hn

theorem run_of_ends (h : Ends options config sources outcome) : run options config sources = outcome := by
  cases h with
  | failed h =>
    cases h with
    | load h => rw [run, h]
    | path hload h => rw [run, hload]; dsimp only; rw [query, h]
    | lookup hload hpath h =>
      rw [run, hload]
      dsimp only
      rw [query, hpath]
      dsimp only
      rw [h]
      rfl
    | filter hs hne hf h => exact run_of_narrow_error hs hne (by rw [hf, narrow, h])
    | search hk hs h =>
      rw [run_of_leaves hk, finish, hs]
      dsimp only
      rw [search, h]
  | noResults hs hnil => exact run_of_values_eq_nil hs hnil
  | @noneKept selection text p hs hne hf hp h =>
    refine run_of_narrow_error hs hne ?_
    rw [hf, narrow, hp]
    dsimp only
    cases hk : selection.filter? p with
    | none => rfl
    | some kept =>
      -- a list of values is kept even if nothing is left in it
      have hempty : kept.isEmpty = true := by
        by_cases hkept : kept.values = []
        · exact List.isEmpty_iff.2 hkept
        · obtain ⟨v, hv, hholds⟩ := (Selection.ne_nil_of_filter? hk).1 hkept
          rw [h v hv] at hholds
          cases hholds
      simp [hempty]
  | noHits hk hs hp h =>
    rw [run_of_leaves hk, finish, hs]
    dsimp only
    rw [search, hp]
    dsimp only
    rw [h]
  | shown hk h => rw [run_of_leaves hk, h]

theorem exists_ends_of_leaves (config : Config) (h : Leaves options sources kept) :
    ∃ outcome, Ends options config sources outcome := by
  cases hs : options.search with
  | none =>
    have hshown : ∃ text, finish options config kept.toValue = .shown text := by
      rw [finish, hs]
      dsimp only
      split <;> exact ⟨_, rfl⟩
    obtain ⟨text, ht⟩ := hshown
    exact ⟨_, .shown h ht⟩
  | some pattern =>
    cases hp : Pattern.compile? (!(options.caseSensitive || config.caseSensitiveSearch)) pattern with
    | none => exact ⟨_, .failed (.search h hs hp)⟩
    | some p =>
      by_cases hnil : kept.toValue.hits p = []
      · exact ⟨_, .noHits h hs hp hnil⟩
      · exact ⟨_, .shown h (finish_of_hits hs hp hnil)⟩

theorem exists_ends_of_selects (config : Config) (hs : Selects options sources selection) :
    ∃ outcome, Ends options config sources outcome := by
  by_cases hnil : selection.values = []
  · exact ⟨_, .noResults hs hnil⟩
  cases hf : options.filter with
  | none => exact exists_ends_of_leaves config ⟨selection, hs, hnil, .inl ⟨hf, rfl⟩⟩
  | some text =>
    cases hp : Filter.parse text with
    | error error => exact ⟨_, .failed (.filter hs hnil hf hp)⟩
    | ok p =>
      by_cases hholds : ∃ v ∈ selection.tested, p.holds v = true
      · obtain ⟨kept, hk⟩ := Selection.exists_filter? hholds
        exact exists_ends_of_leaves config ⟨selection, hs, hnil, .inr ⟨text, p, hf, hp, hk, hholds⟩⟩
      · refine ⟨_, .noneKept hs hnil hf hp fun v hv => ?_⟩
        rw [← Bool.not_eq_true]
        exact fun hv' => hholds ⟨v, hv, hv'⟩

theorem exists_ends (options : Options) (config : Config) (sources : Sources) :
    ∃ outcome, Ends options config sources outcome := by
  cases hload : load sources options.file options.yaml with
  | error error => exact ⟨_, .failed (.load hload)⟩
  | ok document =>
    cases hpath : Path.parse options.query with
    | error error => exact ⟨_, .failed (.path hload hpath)⟩
    | ok path =>
      cases hselect : path.select document with
      | error error => exact ⟨_, .failed (.lookup hload hpath hselect)⟩
      | ok selection => exact exists_ends_of_selects config ⟨document, path, hload, hpath, hselect⟩

/-- **A run ends in the one way that what it works on calls for.** -/
theorem run_eq_iff : run options config sources = outcome ↔ Ends options config sources outcome := by
  refine ⟨fun h => ?_, run_of_ends⟩
  obtain ⟨end', hends⟩ := exists_ends options config sources
  rw [← h, run_of_ends hends]
  exact hends

end Runs

theorem ne_empty_of_append_newline (text : String) : text ++ "\n" ≠ "" := by
  intro h
  have := congrArg String.toList h
  simp at this

theorem hitLines_ne_empty {hits : List Hit} (h : hits ≠ []) : hitLines hits ≠ "" := by
  obtain ⟨hit, hits, rfl⟩ := List.exists_cons_of_ne_nil h
  intro hjoin
  have := congrArg String.toList hjoin
  simp [hitLines, String.toList_join] at this

theorem ne_empty_of_finish [Pattern.Engine] {v : Value} {text : String} 
    (h : finish options config v = .shown text) : text ≠ "" := by
  unfold finish at h
  dsimp only at h
  split at h
  · split at h
    · cases h
    · cases h
    · rename_i hits hne hsearch
      cases h
      exact hitLines_ne_empty hne
  · split at h <;> cases h <;> exact ne_empty_of_append_newline _

/-! ## Reports -/

inductive Ending where
  | failed
  | shown
  | nothing
  deriving DecidableEq

/-- What a command leaves that ends in a way: one error and no output, output and no message, or one notice and no
output. -/
def Report.EndsAs (r : Report) : Ending → Prop
  | .failed => r.exitCode = 1 ∧ r.output = "" ∧ ∃ failure : Failure, r.errors = s!"Error: {failure.message}\n"
  | .shown => r.exitCode = 0 ∧ r.output ≠ "" ∧ r.errors = ""
  | .nothing => r.exitCode = 0 ∧ r.output = "" ∧ ∃! notice : Notice, r.errors = notice.message ++ "\n"

def Report.ending (r : Report) : Ending :=
  if r.exitCode = 1 then .failed else if r.output = "" then .nothing else .shown

theorem Report.EndsAs.eq_ending {r : Report} {ending : Ending} (h : r.EndsAs ending) : ending = r.ending := by
  unfold Report.ending
  cases ending with
  | failed => rw [if_pos h.1]
  | shown => rw [h.1, if_neg (by decide), if_neg h.2.1]
  | nothing => rw [h.1, if_neg (by decide), if_pos h.2.1]

theorem Notice.message_injective {n n' : Notice} (h : n.message ++ "\n" = n'.message ++ "\n") : n = n' := by
  cases n <;> cases n' <;> simp_all [Notice.message]

theorem errors_failed_ne (failure : Failure) (notice : Notice) :
    (Outcome.failed failure).report.errors ≠ notice.message ++ "\n" := by
  intro h
  have hletter := congrArg (fun errors => errors.toList.head?) h
  cases notice <;> simp [Outcome.report, Notice.message, toString, String.toList_append] at hletter

theorem errors_eq_notice_iff {notice : Notice} :
    outcome.report.errors = notice.message ++ "\n" ↔ outcome = .nothing notice := by
  cases outcome with
  | shown text =>
    have hempty : (Outcome.shown text).report.errors = "" := rfl
    rw [hempty]
    exact iff_of_false (by cases notice <;> decide) nofun
  | nothing n => exact ⟨fun h => by rw [Notice.message_injective h], fun h => by cases h; rfl⟩
  | failed failure => exact iff_of_false (errors_failed_ne failure notice) nofun

theorem exitCode_eq_one_iff : outcome.report.exitCode = 1 ↔ ∃ failure, outcome = .failed failure := by
  cases outcome <;> simp [Outcome.report]

/-- **A run ends in one of the three ways.** -/
theorem existsUnique_ending [Pattern.Engine] [Gzip.Decoder] (options : Options) (config : Config) (sources : Sources) :
    ∃! ending, (run options config sources).report.EndsAs ending := by
  have hends : ∃ ending, (run options config sources).report.EndsAs ending := by
    obtain ⟨outcome, ho⟩ := exists_ends options config sources
    rw [run_of_ends ho]
    cases ho with
    | @failed failure h => exact ⟨.failed, rfl, rfl, failure, rfl⟩
    | shown hk h => exact ⟨.shown, rfl, ne_empty_of_finish h, rfl⟩
    | _ => exact ⟨.nothing, rfl, rfl, _, rfl, fun n hn => (Notice.message_injective hn).symm⟩
  obtain ⟨ending, h⟩ := hends
  exact ⟨ending, h, fun other ho => ho.eq_ending.trans h.eq_ending.symm⟩

/-- **A command that is run ends in one way.**  It fails exactly where a stage that is reached does, and then says so and
shows nothing.  It says that nothing was found exactly where the path has a wildcard and selects nothing, whatever else
is asked for; that nothing is kept, where no tested value of a selection passes; and that nothing was hit, where no string
of what is kept matches. -/
theorem report_ends [Pattern.Engine] [Gzip.Decoder] {arguments : List String} {options : Options}
    (h : Options.ofArguments arguments = .ok options) (settings : Option ByteArray) (sources : Sources) :
    (∃! ending, (report arguments settings sources).EndsAs ending) ∧
    ((report arguments settings sources).exitCode = 1 ↔
      ∃ failure, Fails options (Config.ofFile settings) sources failure) ∧
    (∀ failure, Fails options (Config.ofFile settings) sources failure →
      report arguments settings sources = ⟨1, "", s!"Error: {failure.message}\n"⟩) ∧
    ((report arguments settings sources).errors = "No results found\n" ↔ ∃ document path selection,
      load sources options.file options.yaml = .ok document ∧ Path.parse options.query = .ok path ∧
      Segment.wildcard ∈ path ∧ path.select document = .ok selection ∧ selection.values = []) ∧
    ((report arguments settings sources).errors = "No results match filter\n" ↔ ∃ selection text p,
      Selects options sources selection ∧ selection.values ≠ [] ∧ options.filter = some text ∧
      Filter.parse text = .ok p ∧ ∀ v ∈ selection.tested, p.holds v = false) ∧
    ((report arguments settings sources).errors = "No matches found\n" ↔ ∃ kept pattern p,
      Leaves options sources kept ∧ options.search = some pattern ∧
      Pattern.compile? (!(options.caseSensitive || (Config.ofFile settings).caseSensitiveSearch)) pattern = some p ∧
      kept.toValue.hits p = []) := by
  have hreport : report arguments settings sources = (run options (Config.ofFile settings) sources).report := by
    rw [report, h]
  have hnotice : ∀ notice : Notice, (report arguments settings sources).errors = notice.message ++ "\n" ↔
      Ends options (Config.ofFile settings) sources (.nothing notice) := fun notice => by
    rw [hreport, errors_eq_notice_iff, run_eq_iff]
  refine ⟨hreport ▸ existsUnique_ending _ _ _, ?_, fun failure hf => ?_, (hnotice .noResults).trans ?_,
    (hnotice .noneKept).trans ?_, (hnotice .noHits).trans ?_⟩
  · rw [hreport, exitCode_eq_one_iff]
    simp only [run_eq_iff]
    constructor
    · rintro ⟨failure, ⟨hf⟩⟩
      exact ⟨failure, hf⟩
    · rintro ⟨failure, hf⟩
      exact ⟨failure, .failed hf⟩
  · rw [hreport, run_of_ends (.failed hf)]
    rfl
  · constructor
    · intro hends
      cases hends with
      | noResults hs hnil =>
        obtain ⟨document, path, hload, hpath, hselect⟩ := hs
        exact ⟨document, path, _, hload, hpath, Path.wildcard_mem_of_values_eq_nil hselect hnil, hselect, hnil⟩
    · rintro ⟨document, path, selection, hload, hpath, -, hselect, hnil⟩
      exact .noResults ⟨document, path, hload, hpath, hselect⟩ hnil
  · constructor
    · intro hends
      cases hends with
      | noneKept hs hne hf hp hnone => exact ⟨_, _, _, hs, hne, hf, hp, hnone⟩
    · rintro ⟨selection, text, p, hs, hne, hf, hp, hnone⟩
      exact .noneKept hs hne hf hp hnone
  · constructor
    · intro hends
      cases hends with
      | noHits hk hs hp hnil => exact ⟨_, _, _, hk, hs, hp, hnil⟩
    · rintro ⟨kept, pattern, p, hk, hs, hp, hnil⟩
      exact .noHits hk hs hp hnil

/-- A filter that is none does not matter where nothing was selected. -/
theorem report_ends_before_filter :
    Options.ofArguments ["-", "[*]", "--filter", "("] =
      .ok ⟨"-", "[*]", some "(", none, false, false, none, false, false⟩ ∧
    (∃ error, Filter.parse "(" = .error error) ∧
    (report ["-", "[*]", "--filter", "("] none ⟨fun _ => .error .missing, "[]".toUTF8⟩).errors =
      "No results found\n" := by
  have hread : Options.ofArguments ["-", "[*]", "--filter", "("] =
      .ok ⟨"-", "[*]", some "(", none, false, false, none, false, false⟩ := rfl
  have hload : load ⟨fun _ => .error .missing, "[]".toUTF8⟩ "-" false = .ok (.array []) := by
    rw [load, if_pos (by decide), loadInput_toUTF8]
    rfl
  have hpath : Path.parse "[*]" = .ok [.wildcard] := rfl
  refine ⟨hread, ⟨_, rfl⟩, (report_ends hread none _).2.2.2.1.2 ⟨_, _, .many [], hload, hpath, ?_, rfl, rfl⟩⟩
  exact List.mem_cons_self

end Command
end DocQuery
