import DocQuery.Proofs.Command.Outcomes
import DocQuery.Proofs.Path.Addresses
/-!
# Paths one behind the other

A walk along two paths is the walk along the first and then, from the selection where it ends, the walk along the second
(`follow_append_eq_bind`), and what it met before it set out stands in its error and nowhere else (`follow_behind`).  So a
query can be taken in two steps: from the one value that a path without wildcards leads to, or from the array of the
values that a path with wildcards leads to, with a wildcard in front of the rest (`select_in_steps`).
-/
namespace DocQuery

namespace Path

variable {p q : Path} {root v : Value} {s : Selection}

/-- The error of a walk with a path in front of it. -/
def NotFound.behind (before : Path) (e : NotFound) : NotFound :=
  { e with reached := before ++ e.reached }

/-! ## Walks along two paths -/

theorem follow_append_eq_bind : ∀ (p q reached : Path) (s : Selection),
    follow reached (p ++ q) s = (follow reached p s).bind (follow (reached ++ p) q)
  | [], q, reached, s => by
    rw [List.append_nil, List.nil_append]
    rfl
  | t :: p, q, reached, .single v => by
    rw [List.cons_append, follow, follow]
    cases t.step? v with
    | none => rfl
    | some next =>
      dsimp only
      rw [follow_append_eq_bind p q, List.append_assoc, List.singleton_append]
  | t :: p, q, reached, .many vs => by
    rw [List.cons_append, follow, follow, follow_append_eq_bind p q, List.append_assoc, List.singleton_append]

/-- **What a walk met before it set out** stands in its error only. -/
theorem follow_behind : ∀ (q before reached : Path) (s : Selection),
    follow (before ++ reached) q s = (follow reached q s).mapError (NotFound.behind before)
  | [], before, reached, s => rfl
  | t :: q, before, reached, .single v => by
    rw [follow, follow]
    cases t.step? v with
    | none => rfl
    | some next =>
      dsimp only
      rw [List.append_assoc, follow_behind q]
  | t :: q, before, reached, .many vs => by
    rw [follow, follow, List.append_assoc, follow_behind q]

theorem select_append (p q : Path) (root : Value) : select (p ++ q) root = (select p root).bind (follow p q) :=
  follow_append_eq_bind p q [] (.single root)

theorem follow_single (p q : Path) (v : Value) : follow p q (.single v) = (select q v).mapError (NotFound.behind p) := by
  rw [select, ← follow_behind, List.append_nil]

theorem select_wildcard_array (q : Path) (vs : List Value) :
    select (.wildcard :: q) (.array vs) = .ok (.many (vs.flatMap q.found)) :=
  follow_many q [.wildcard] vs

theorem exists_many_of_hasWildcard (hw : p.hasWildcard = true) (h : p.select root = .ok s) : ∃ vs, s = .many vs := by
  rcases walk_cases p root with ⟨v, hv⟩ | ⟨before, after, items, rfl, hr⟩ | ⟨before, t, after, v, rfl, hr, ht⟩
  · -- a path that leads to one value has no wildcard
    rw [hv.1] at hw
    cases hw
  · rw [select_wildcard after hr] at h
    exact ⟨_, (Except.ok.inj h).symm⟩
  · rw [select_of_not_applies after hr ht] at h
    cases h

end Path

/-! ## An array and its elements -/

theorem Selection.filter?_elements (items : List Value) (predicate : Predicate) :
    (many items).filter? predicate = (single (.array items)).filter? predicate := rfl

namespace Command

theorem narrow_elements [Pattern.Engine] (expression : Option String) (items : List Value) :
    (narrow expression (.many items)).map Selection.toValue =
      (narrow expression (.single (.array items))).map Selection.toValue := by
  cases expression with
  | none => rfl
  | some text =>
    unfold narrow
    dsimp only
    cases Filter.parse text with
    | error e => rfl
    | ok predicate =>
      dsimp only
      rw [Selection.filter?_elements]

theorem run_of_narrow [Pattern.Engine] [Gzip.Decoder] {options : Options} {sources : Sources} {selection : Selection}
    (config : Config) (hs : Selects options sources selection) (hne : selection.values ≠ []) :
    run options config sources =
      match (narrow options.filter selection).map Selection.toValue with
      | .error outcome => outcome
      | .ok v => finish options config v := by
  cases hn : narrow options.filter selection with
  | error outcome => exact run_of_narrow_error hs hne hn
  | ok kept => exact run_of_narrow_ok hs hne hn

/-- **A run with a wildcard behind a path to an array** ends like the run without it, except that an empty array is shown
where no elements are nothing to go on with. -/
theorem run_elements [Pattern.Engine] [Gzip.Decoder] {options : Options} {sources : Sources} {query : String} {p : Path}
    {document : Value} {items : List Value} (config : Config)
    (hload : load sources options.file options.yaml = .ok document)
    (hp : Path.parse options.query = .ok p) (hquery : Path.parse query = .ok (p ++ [.wildcard]))
    (hs : p.select document = .ok (.single (.array items))) :
    run { options with query } config sources =
      if items.isEmpty then .nothing .noResults else run options config sources := by
  have helements : Selects { options with query } sources (.many items) := by
    refine ⟨document, p ++ [.wildcard], hload, hquery, ?_⟩
    rw [Path.select_append, hs]
    rfl
  cases items with
  | nil =>
    -- an empty array is a value, but its elements are none
    exact run_of_values_eq_nil helements rfl
  | cons v vs =>
    have harray : Selects options sources (.single (.array (v :: vs))) := ⟨document, p, hload, hp, hs⟩
    rw [run_of_narrow config helements (List.cons_ne_nil v vs), narrow_elements,
      run_of_narrow config harray (List.cons_ne_nil _ []), List.isEmpty_cons, if_neg Bool.false_ne_true]
    rfl

end Command

namespace Path

/-- **A query taken in two steps selects what it selects in one.**  From the value that a path without wildcards leads to,
the rest of the path selects the same, or fails at the same segment with the path in front of those it has behind it.
From the array of what a path with wildcards selects, a wildcard and the rest of the path select the same.  Where the
first step fails, so does the whole, with the same error.  And an array and its elements are the same value, of which a
filter leaves the same; a run of the command ends the same with either, but that there are no elements of an empty array,
which ends a run that would have gone on with the array. -/
theorem select_in_steps [Pattern.Engine] [Gzip.Decoder] (root : Value) (p q : Path) :
    (∀ v, p.hasWildcard = false → p.select root = .ok (.single v) →
      select (p ++ q) root = (q.select v).mapError (NotFound.behind p)) ∧
    (∀ s, p.hasWildcard = true → p.select root = .ok s → ∃ values,
      select (p ++ q) root = .ok (.many values) ∧ select (.wildcard :: q) s.toValue = .ok (.many values)) ∧
    (∀ e, p.select root = .error e → select (p ++ q) root = .error e) ∧
    ∀ items, p.hasWildcard = false → p.select root = .ok (.single (.array items)) → ∃ elements,
      select (p ++ [.wildcard]) root = .ok elements ∧ elements.toValue = .array items ∧
      (∀ predicate, elements.filter? predicate = (Selection.single (.array items)).filter? predicate) ∧
      (∀ expression, (Command.narrow expression elements).map Selection.toValue =
        (Command.narrow expression (.single (.array items))).map Selection.toValue) ∧
      ∀ (options : Command.Options) (config : Config) (sources : Sources) (query : String),
        load sources options.file options.yaml = .ok root → Path.parse options.query = .ok p →
        Path.parse query = .ok (p ++ [.wildcard]) →
        Command.run { options with query } config sources =
          if items.isEmpty then .nothing .noResults else Command.run options config sources := by
  refine ⟨fun v _ h => ?_, fun s hw h => ?_, fun e h => ?_, fun items _ h => ⟨.many items, ?_, rfl,
    Selection.filter?_elements items, fun expression => Command.narrow_elements expression items,
    fun options config sources query hload hp hquery => Command.run_elements config hload hp hquery h⟩⟩
  · rw [select_append, h]
    exact follow_single p q v
  · obtain ⟨vs, rfl⟩ := exists_many_of_hasWildcard hw h
    refine ⟨vs.flatMap q.found, ?_, select_wildcard_array q vs⟩
    rw [select_append, h]
    exact follow_many q p vs
  · rw [select_append, h]
    rfl
  · rw [select_append, h]
    rfl

/-- Two steps each: to a missing element, from all rows to their ids, to the rows themselves, and to the elements of
an empty array, where a run ends. -/
theorem select_in_steps_rows :
    let rows : List Value := [.object [("id", .integer 1)], .null, .object [("id", .integer 2)]]
    let root : Value := .object [("rows", .array rows)]
    let options : Command.Options := ⟨"-", "a", none, none, false, false, none, true, false⟩
    let sources : Sources := ⟨fun _ => .error .missing, "\x7b\"a\":[]\x7d".toUTF8⟩
    select [.key "rows", .index 3, .key "id"] root = .error ⟨[.key "rows"], .index 3⟩ ∧
    (∃ values, select [.key "rows", .wildcard, .key "id"] root = .ok (.many values) ∧
      select [.wildcard, .key "id"] (.array rows) = .ok (.many values) ∧ values = [.integer 1, .integer 2]) ∧
    (∃ elements, select [.key "rows", .wildcard] root = .ok elements ∧ elements.toValue = .array rows) ∧
    Command.run { options with query := "a[*]" } .default sources = .nothing .noResults := by
  intro rows root options sources
  have hrows : select [.key "rows"] root = .ok (.single (.array rows)) := rfl
  refine ⟨?_, ?_, ?_, ?_⟩
  · exact (select_in_steps root [.key "rows"] [.index 3, .key "id"]).1 _ rfl hrows
  · have hmany : select [.key "rows", .wildcard] root = .ok (.many rows) := rfl
    obtain ⟨values, hone, htwo⟩ := (select_in_steps root [.key "rows", .wildcard] [.key "id"]).2.1 _ rfl hmany
    refine ⟨values, hone, htwo, ?_⟩
    have hvalues : select [.key "rows", .wildcard, .key "id"] root = .ok (.many [.integer 1, .integer 2]) := rfl
    exact Selection.many.inj (Except.ok.inj (hone.symm.trans hvalues))
  · obtain ⟨elements, h, hvalue, -⟩ := (select_in_steps root [.key "rows"] []).2.2.2 _ rfl hrows
    exact ⟨elements, h, hvalue⟩
  · have hload : load sources "-" false = .ok (.object [("a", .array [])]) := by
      rw [load, if_pos (by decide), loadInput_toUTF8]
      rfl
    have harray : Path.parse "a" = .ok [.key "a"] := rfl
    have helements : Path.parse "a[*]" = .ok [.key "a", .wildcard] := rfl
    obtain ⟨elements, -, -, -, -, hrun⟩ :=
      (select_in_steps (.object [("a", .array [])]) [.key "a"] []).2.2.2 [] rfl rfl
    exact hrun options .default sources "a[*]" hload harray helements

end Path
end DocQuery
