import DocQuery.Path.Selection
import Mathlib.Data.List.Basic
/-!
# Addresses

A place in a value has an address: the keys and positions that lead there.  A path without wildcards has one address,
and a path with wildcards has as many as there are positions to put in their place.  `Path.addresses` lists those that
exist in a value in document order, and the values there are what a walk that keeps many values at once collects
(`Path.follow_many`).
-/
namespace DocQuery

/-- **A step to a part of a value**: under a key, or to a position. -/
inductive Step where
  | key (name : String)
  | index (position : Nat)
  deriving DecidableEq, Repr

/-- The steps from a value to one of its parts. -/
abbrev Address := List Step

def Value.part? (v : Value) : Step → Option Value
  | .key name => v.get? name
  | .index i => v.item? i

def Value.at? (v : Value) : Address → Option Value
  | [] => some v
  | step :: rest => (v.part? step).bind (·.at? rest)

/-- Whether a segment stands for a step: a key and an index for themselves, a wildcard for every index. -/
def Segment.Allows : Segment → Step → Prop
  | .key name, .key name' => name = name'
  | .index i, .index j => i = j
  | .wildcard, .index _ => True
  | _, _ => False

def Segment.Applies : Segment → Value → Prop
  | .key name, v => ∃ entries, v = .object entries ∧ name ∈ entries.map Prod.fst
  | .index i, v => ∃ items, v = .array items ∧ i < items.length
  | .wildcard, v => ∃ items, v = .array items

namespace Path

/-- Whether an address matches a path, segment by segment. -/
def Matches : Path → Address → Prop
  | [], [] => True
  | s :: path, step :: rest => s.Allows step ∧ Matches path rest
  | _, _ => False

/-- The positions that an address has where a path has wildcards. -/
def wildcardPositions : Path → Address → List Nat
  | .wildcard :: path, .index i :: rest => i :: wildcardPositions path rest
  | _ :: path, _ :: rest => wildcardPositions path rest
  | _, _ => []

def parts (s : Segment) (v : Value) : List (Step × Value) :=
  match s with
  | .key name => ((v.get? name).map fun u => (.key name, u)).toList
  | .index i => ((v.item? i).map fun u => (.index i, u)).toList
  | .wildcard =>
    match v with
    | .array items => items.zipIdx.map fun (u, i) => (.index i, u)
    | _ => []

def addresses : Path → Value → List Address
  | [], _ => [[]]
  | s :: path, v => (parts s v).flatMap fun (step, u) => (addresses path u).map (step :: ·)

def found (path : Path) (v : Value) : List Value :=
  (addresses path v).filterMap v.at?

/-- **Whether a path without wildcards leads from a value to another.** -/
def Reaches (path : Path) (root v : Value) : Prop :=
  path.hasWildcard = false ∧ ∃ a, path.Matches a ∧ root.at? a = some v

/-- **Whether a walk fails at a position of a path**: the segments before it lead to a value, and its own does not apply
there. -/
def FailsAt (path : Path) (root : Value) (i : Nat) : Prop :=
  ∃ s v, path[i]? = some s ∧ Reaches (path.take i) root v ∧ ¬s.Applies v

/-! ## The addresses that match -/

theorem mem_parts {s : Segment} {v u : Value} {step : Step} :
    (step, u) ∈ parts s v ↔ s.Allows step ∧ v.part? step = some u := by
  cases s with
  | key name =>
    cases step <;> simp [parts, Segment.Allows, Value.part?]
    grind
  | index i =>
    cases step <;> simp [parts, Segment.Allows, Value.part?]
    grind
  | wildcard =>
    cases v with
    | array items =>
      cases step with
      | key name => simp [parts, Segment.Allows]
      | index i =>
        simp only [parts, Segment.Allows, Value.part?, Value.item?, List.mem_map, true_and]
        constructor
        · rintro ⟨p, hp, h⟩
          cases h
          exact List.mem_zipIdx_iff_getElem?.1 hp
        · exact fun h => ⟨(u, i), List.mem_zipIdx_iff_getElem?.2 h, rfl⟩
    | scalar x => cases step <;> simp [parts, Segment.Allows, Value.part?, Value.item?]
    | object es => cases step <;> simp [parts, Segment.Allows, Value.part?, Value.item?]

/-- **The addresses listed are those that match and exist.** -/
theorem mem_addresses : ∀ {path : Path} {v : Value} {a : Address},
    a ∈ addresses path v ↔ path.Matches a ∧ (v.at? a).isSome
  | [], v, a => by cases a <;> simp [addresses, Matches, Value.at?]
  | s :: path, v, [] => by simp [addresses, Matches]
  | s :: path, v, step :: rest => by
    simp only [addresses, List.mem_flatMap, Prod.exists, mem_parts, List.mem_map, Matches, Value.at?]
    constructor
    · rintro ⟨step', u, ⟨hs, hu⟩, a, ha, hcons⟩
      obtain ⟨rfl, rfl⟩ : step' = step ∧ a = rest := by simpa using hcons
      rw [mem_addresses] at ha
      exact ⟨⟨hs, ha.1⟩, by rw [hu]; exact ha.2⟩
    · rintro ⟨⟨hs, hm⟩, hv⟩
      obtain ⟨w, hw⟩ := Option.isSome_iff_exists.1 hv
      obtain ⟨u, hu, hw⟩ := Option.bind_eq_some_iff.1 hw
      exact ⟨step, u, ⟨hs, hu⟩, rest, mem_addresses.2 ⟨hm, by rw [hw]; rfl⟩, rfl⟩

theorem pairwise_parts (s : Segment) (v : Value) :
    (parts s v).Pairwise fun p q => s = .wildcard ∧ ∃ i j, p.1 = .index i ∧ q.1 = .index j ∧ i < j := by
  cases s with
  | key name => cases h : v.get? name <;> simp [parts, h]
  | index i => cases h : v.item? i <;> simp [parts, h]
  | wildcard =>
    cases v with
    | array items =>
      simp only [parts, List.pairwise_map, true_and]
      have hi : (items.zipIdx.map Prod.snd).Pairwise (· < ·) := by
        rw [List.zipIdx_map_snd]
        exact List.pairwise_lt_range'
      rw [List.pairwise_map] at hi
      exact hi.imp fun {p q} h => ⟨p.2, q.2, rfl, rfl, h⟩
    | scalar x => simp [parts]
    | object es => simp [parts]

theorem wildcardPositions_cons {s : Segment} {step : Step} (hs : s.Allows step) (path : Path) {a b : Address}
    (h : path.wildcardPositions a < path.wildcardPositions b) :
    wildcardPositions (s :: path) (step :: a) < wildcardPositions (s :: path) (step :: b) := by
  cases s with
  | key name => exact h
  | index i => exact h
  | wildcard =>
    cases step with
    | key name => exact hs.elim
    | index i => exact List.cons_lt_cons_iff.2 (.inr ⟨rfl, h⟩)

/-- **The addresses are listed in the order of their positions**, and so each of them once. -/
theorem pairwise_addresses : ∀ (path : Path) (v : Value),
    (addresses path v).Pairwise fun a b => path.wildcardPositions a < path.wildcardPositions b
  | [], v => by simp [addresses]
  | s :: path, v => by
    rw [addresses, List.pairwise_flatMap]
    refine ⟨fun p hp => ?_, (pairwise_parts s v).imp fun {p q} h a ha b hb => ?_⟩
    · rw [List.pairwise_map]
      exact (pairwise_addresses path p.2).imp (wildcardPositions_cons (mem_parts.1 hp).1 path)
    · obtain ⟨rfl, i, j, hp, hq, hij⟩ := h
      obtain ⟨a', -, rfl⟩ := List.mem_map.1 ha
      obtain ⟨b', -, rfl⟩ := List.mem_map.1 hb
      rw [hp, hq]
      exact List.cons_lt_cons_iff.2 (.inl hij)

theorem map_found (path : Path) (v : Value) : (found path v).map some = (addresses path v).map v.at? := by
  have h : ∀ l : List Address, (∀ a ∈ l, (v.at? a).isSome) → (l.filterMap v.at?).map some = l.map v.at? := by
    intro l
    induction l with
    | nil => simp
    | cons a l ih =>
      intro hl
      obtain ⟨u, hu⟩ := Option.isSome_iff_exists.1 (hl a List.mem_cons_self)
      simp [hu, ih fun b hb => hl b (List.mem_cons_of_mem a hb)]
  exact h _ fun a ha => (mem_addresses.1 ha).2

/-! ## Walks -/

theorem found_nil (v : Value) : found [] v = [v] := rfl

theorem found_cons (s : Segment) (path : Path) (v : Value) :
    found (s :: path) v = (parts s v).flatMap fun p => found path p.2 := by
  rw [found, addresses, List.filterMap_flatMap, List.flatMap_def, List.flatMap_def]
  refine congrArg List.flatten (List.map_congr_left fun p hp => ?_)
  rw [List.filterMap_map, found]
  refine List.filterMap_congr fun a _ => ?_
  simp [Value.at?, (mem_parts.1 hp).2]

theorem values_step? (s : Segment) (v : Value) :
    ((s.step? v).map Selection.values).getD [] = (parts s v).map Prod.snd := by
  cases s with
  | key name => cases h : v.get? name <;> simp [Segment.step?, parts, h, Selection.values]
  | index i => cases h : v.item? i <;> simp [Segment.step?, parts, h, Selection.values]
  | wildcard =>
    cases v with
    | array items =>
      rw [parts, List.map_map]
      exact (List.zipIdx_map_fst 0 items).symm
    | scalar x => rfl
    | object es => rfl

/-- **A walk that keeps many values** ends with what the path finds in each of them, in their order. -/
theorem follow_many : ∀ (path reached : Path) (vs : List Value),
    follow reached path (.many vs) = .ok (.many (vs.flatMap path.found))
  | [], reached, vs => by rw [follow, funext found_nil, List.flatMap_singleton']
  | s :: path, reached, vs => by
    rw [follow, follow_many path, funext (found_cons s path)]
    simp only [values_step?, List.flatMap_assoc, List.flatMap_map]

/-! ## Where a walk leads -/

theorem applies_iff {s : Segment} {v : Value} : s.Applies v ↔ (s.step? v).isSome := by
  cases s with
  | key name =>
    cases v with
    | object es => simp [Segment.Applies, Segment.step?, Value.get?, List.lookup_isSome_iff]
    | scalar x => simp [Segment.Applies, Segment.step?, Value.get?]
    | array xs => simp [Segment.Applies, Segment.step?, Value.get?]
  | index i => cases v <;> simp [Segment.Applies, Segment.step?, Value.item?]
  | wildcard => cases v <;> simp [Segment.Applies, Segment.step?]

theorem step?_eq_single {s : Segment} {v u : Value} :
    s.step? v = some (.single u) ↔ s ≠ .wildcard ∧ ∃ step, s.Allows step ∧ v.part? step = some u := by
  cases s with
  | key name =>
    simp only [Segment.step?, Option.map_eq_some_iff, Selection.single.injEq, exists_eq_right, ne_eq, reduceCtorEq,
      not_false_eq_true, true_and]
    exact ⟨fun h => ⟨.key name, rfl, h⟩, fun ⟨step, hs, h⟩ => by cases step <;> cases hs; exact h⟩
  | index i =>
    simp only [Segment.step?, Option.map_eq_some_iff, Selection.single.injEq, exists_eq_right, ne_eq, reduceCtorEq,
      not_false_eq_true, true_and]
    exact ⟨fun h => ⟨.index i, rfl, h⟩, fun ⟨step, hs, h⟩ => by cases step <;> cases hs; exact h⟩
  | wildcard => cases v <;> simp [Segment.step?]

@[simp] theorem reaches_nil {root v : Value} : Reaches [] root v ↔ root = v := by
  constructor
  · rintro ⟨-, a, ha, hv⟩
    cases a with
    | nil => exact Option.some.inj hv
    | cons step rest => exact ha.elim
  · rintro rfl
    exact ⟨rfl, [], trivial, rfl⟩

theorem reaches_cons {s : Segment} {path : Path} {root v : Value} :
    Reaches (s :: path) root v ↔ ∃ u, s.step? root = some (.single u) ∧ path.Reaches u v := by
  constructor
  · rintro ⟨hw, a, ha, hv⟩
    simp only [hasWildcard, List.contains_cons, Bool.or_eq_false_iff, beq_eq_false_iff_ne] at hw
    cases a with
    | nil => exact ha.elim
    | cons step rest =>
      obtain ⟨u, hu, hv⟩ := Option.bind_eq_some_iff.1 hv
      exact ⟨u, step?_eq_single.2 ⟨hw.1.symm, step, ha.1, hu⟩, hw.2, rest, ha.2, hv⟩
  · rintro ⟨u, hu, hw, rest, hm, hv⟩
    obtain ⟨hs, step, ha, hu⟩ := step?_eq_single.1 hu
    refine ⟨?_, step :: rest, ⟨ha, hm⟩, Option.bind_eq_some_iff.2 ⟨u, hu, hv⟩⟩
    simp only [hasWildcard, List.contains_cons, Bool.or_eq_false_iff, beq_eq_false_iff_ne]
    exact ⟨hs.symm, hw⟩

theorem reaches_append : ∀ {before after : Path} {root v : Value},
    Reaches (before ++ after) root v ↔ ∃ u, before.Reaches root u ∧ after.Reaches u v
  | [], after, root, v => by simp
  | s :: before, after, root, v => by
    simp only [List.cons_append, reaches_cons, reaches_append]
    constructor
    · rintro ⟨w, hw, u, hu, hv⟩
      exact ⟨u, ⟨w, hw, hu⟩, hv⟩
    · rintro ⟨u, ⟨w, hw, hu⟩, hv⟩
      exact ⟨w, hw, u, hu, hv⟩

theorem reaches_unique : ∀ {path : Path} {root v w : Value}, path.Reaches root v → path.Reaches root w → v = w
  | [], root, v, w, hv, hw => (reaches_nil.1 hv).symm.trans (reaches_nil.1 hw)
  | s :: path, root, v, w, hv, hw => by
    obtain ⟨u, hu, hv⟩ := reaches_cons.1 hv
    obtain ⟨u', hu', hw⟩ := reaches_cons.1 hw
    cases hu.symm.trans hu'
    exact reaches_unique hv hw

theorem follow_append : ∀ {before : Path} {root v : Value} (reached rest : Path), before.Reaches root v →
    follow reached (before ++ rest) (.single root) = follow (reached ++ before) rest (.single v)
  | [], root, v, reached, rest, h => by
    rw [reaches_nil.1 h, List.append_nil, List.nil_append]
  | s :: before, root, v, reached, rest, h => by
    obtain ⟨u, hu, hv⟩ := reaches_cons.1 h
    rw [List.cons_append, follow, hu]
    simp only [follow_append (reached ++ [s]) rest hv, List.append_assoc, List.singleton_append]

theorem found_append : ∀ {before : Path} {root v : Value} (rest : Path), before.Reaches root v →
    found (before ++ rest) root = found rest v
  | [], root, v, rest, h => by rw [reaches_nil.1 h, List.nil_append]
  | s :: before, root, v, rest, h => by
    obtain ⟨u, hu, hv⟩ := reaches_cons.1 h
    have hp : (parts s root).map Prod.snd = [u] := by rw [← values_step?, hu]; rfl
    rw [List.cons_append, found_cons, ← found_append rest hv, ← List.flatMap_map, hp]
    exact List.append_nil _

/-- **Where a walk ends**: at the value that the path leads to, at an array with a wildcard to be taken, or at a segment
that does not apply. -/
theorem walk_cases : ∀ (path : Path) (root : Value),
    (∃ v, path.Reaches root v) ∨
    (∃ (before after : Path) (items : List Value),
      path = before ++ .wildcard :: after ∧ before.Reaches root (.array items)) ∨
    ∃ (before : Path) (s : Segment) (after : Path) (v : Value),
      path = before ++ s :: after ∧ before.Reaches root v ∧ ¬s.Applies v
  | [], root => .inl ⟨root, reaches_nil.2 rfl⟩
  | s :: path, root => by
    cases hs : s.step? root with
    | none =>
      refine .inr (.inr ⟨[], s, path, root, rfl, reaches_nil.2 rfl, fun h => ?_⟩)
      rw [applies_iff, hs] at h
      cases h
    | some next =>
      cases next with
      | single u =>
        rcases walk_cases path u with ⟨v, hv⟩ | ⟨before, after, items, rfl, hb⟩ | ⟨before, t, after, v, rfl, hb, ht⟩
        · exact .inl ⟨v, reaches_cons.2 ⟨u, hs, hv⟩⟩
        · exact .inr (.inl ⟨s :: before, after, items, rfl, reaches_cons.2 ⟨u, hs, hb⟩⟩)
        · exact .inr (.inr ⟨s :: before, t, after, v, rfl, reaches_cons.2 ⟨u, hs, hb⟩, ht⟩)
      | many vs =>
        cases s with
        | key name => simp [Segment.step?] at hs
        | index i => simp [Segment.step?] at hs
        | wildcard =>
          cases root with
          | array items => exact .inr (.inl ⟨[], path, items, rfl, reaches_nil.2 rfl⟩)
          | scalar x => simp [Segment.step?] at hs
          | object es => simp [Segment.step?] at hs

/-! ## What is selected -/

theorem select_of_reaches {path : Path} {root v : Value} (h : path.Reaches root v) :
    path.select root = .ok (.single v) := by
  have := follow_append [] [] h
  rwa [List.append_nil] at this

theorem select_wildcard {before : Path} {root : Value} {items : List Value} (after : Path)
    (h : before.Reaches root (.array items)) :
    select (before ++ .wildcard :: after) root = .ok (.many (found (before ++ .wildcard :: after) root)) := by
  have hs : (parts .wildcard (.array items)).map Prod.snd = items := (values_step? .wildcard (.array items)).symm
  rw [select, follow_append [] _ h, found_append _ h, found_cons, ← List.flatMap_map, hs]
  exact follow_many after _ items

theorem select_of_not_applies {before : Path} {s : Segment} {root v : Value} (after : Path) (h : before.Reaches root v)
    (hs : ¬s.Applies v) : select (before ++ s :: after) root = .error ⟨before, s⟩ := by
  rw [applies_iff, Bool.not_eq_true, Option.isSome_eq_false_iff, Option.isNone_iff_eq_none] at hs
  rw [select, follow_append [] _ h, follow, hs, List.nil_append]

theorem exists_matches_iff : ∀ {path : Path}, path.hasWildcard = false → ∃ a, ∀ b, path.Matches b ↔ b = a
  | [], _ => ⟨[], fun b => by cases b <;> simp [Matches]⟩
  | s :: path, h => by
    simp only [hasWildcard, List.contains_cons, Bool.or_eq_false_iff, beq_eq_false_iff_ne] at h
    obtain ⟨a, ha⟩ := exists_matches_iff h.2
    obtain ⟨step, hstep⟩ : ∃ step, ∀ step', s.Allows step' ↔ step' = step := by
      cases s with
      | key name => exact ⟨.key name, fun step' => by cases step' <;> simp [Segment.Allows, eq_comm]⟩
      | index i => exact ⟨.index i, fun step' => by cases step' <;> simp [Segment.Allows, eq_comm]⟩
      | wildcard => exact absurd rfl h.1
    refine ⟨step :: a, fun b => ?_⟩
    cases b with
    | nil => simp [Matches]
    | cons step' b => rw [Matches, hstep, ha, List.cons.injEq]

theorem not_failsAt_of_lt {path : Path} {root : Value} {i j : Nat} {v : Value} (h : Reaches (path.take i) root v)
    (hj : j < i) : ¬path.FailsAt root j := by
  rintro ⟨s, u, hs, hu, hn⟩
  have ht : (path.take i)[j]? = some s := by rw [List.getElem?_take_of_lt hj, hs]
  have hsplit : path.take i = path.take j ++ s :: (path.take i).drop (j + 1) := by
    have hd := List.drop_eq_getElem?_toList_append (l := path.take i) (i := j)
    rw [ht, Option.toList_some, List.singleton_append] at hd
    calc
      path.take i = (path.take i).take j ++ (path.take i).drop j := (List.take_append_drop j _).symm
      _ = path.take j ++ s :: (path.take i).drop (j + 1) := by
        rw [hd, List.take_take, Nat.min_eq_left (Nat.le_of_lt hj)]
  rw [hsplit, reaches_append] at h
  obtain ⟨u', hu', hv⟩ := h
  cases reaches_unique hu hu'
  obtain ⟨w, hw, -⟩ := reaches_cons.1 hv
  exact hn (applies_iff.2 (by rw [hw]; rfl))

/-- The message names the segment and the path in front of it by their texts. -/
theorem NotFound.message_eq (e : NotFound) : e.message =
    "Path not found: '" ++ String.ofList e.segment.text ++ (if text e.reached = "" then
      "' does not exist at the document root" else "' does not exist under '" ++ text e.reached ++ "'") := by
  unfold message
  dsimp only
  by_cases hroot : text e.reached = ""
  · rw [if_pos (String.isEmpty_iff.2 hroot), if_pos hroot]
    rfl
  · rw [if_neg (mt String.isEmpty_iff.1 hroot), if_neg hroot]
    simp only [toString, String.append_assoc]

/-- **A path selects what it denotes.**  Without wildcards that is the value at its only address.  With wildcards, and an
array where the first of them is taken, it is the values at all addresses that match the path and exist, each once, in
the order of their positions at the wildcards.  In every other case there is a first segment that does not apply where
the ones before it lead, and the error names it and them, and its message shows the texts of both. -/
theorem select_denotes (path : Path) (root : Value) :
    (path.hasWildcard = false → ∃ a, (∀ b, path.Matches b ↔ b = a) ∧
      ∀ v, path.select root = .ok (.single v) ↔ root.at? a = some v) ∧
    (∀ before after items, path = before ++ .wildcard :: after → Reaches before root (.array items) →
      ∃ (addresses : List Address) (values : List Value), path.select root = .ok (.many values) ∧
        (∀ a, a ∈ addresses ↔ path.Matches a ∧ ∃ v, root.at? a = some v) ∧
        addresses.Pairwise (fun a b => path.wildcardPositions a < path.wildcardPositions b) ∧
        values.map some = addresses.map root.at?) ∧
    ((∀ v, ¬path.Reaches root v) →
      (∀ before after items, path = before ++ .wildcard :: after → ¬Reaches before root (.array items)) →
      ∃ i s, path[i]? = some s ∧ path.select root = .error ⟨path.take i, s⟩ ∧
        NotFound.message ⟨path.take i, s⟩ =
          "Path not found: '" ++ String.ofList s.text ++ (if text (path.take i) = "" then
            "' does not exist at the document root" else "' does not exist under '" ++ text (path.take i) ++ "'") ∧
        path.FailsAt root i ∧ (∀ j, j < i → ¬path.FailsAt root j) ∧ hasWildcard (path.take i) = false) := by
  refine ⟨fun hw => ?_, ?_, fun hr hb => ?_⟩
  · obtain ⟨a, ha⟩ := exists_matches_iff hw
    refine ⟨a, ha, fun v => ⟨fun h => ?_, fun h => select_of_reaches ⟨hw, a, (ha a).2 rfl, h⟩⟩⟩
    rcases walk_cases path root with ⟨u, hu⟩ | ⟨before, after, items, rfl, hr⟩ | ⟨before, s, after, u, rfl, hr, hs⟩
    · rw [select_of_reaches hu] at h
      cases h
      obtain ⟨-, b, hb, hv⟩ := hu
      rwa [(ha b).1 hb] at hv
    · rw [select_wildcard after hr] at h
      cases h
    · rw [select_of_not_applies after hr hs] at h
      cases h
  · rintro before after items rfl hr
    refine ⟨_, _, select_wildcard after hr, fun a => ?_, pairwise_addresses _ root, map_found _ root⟩
    rw [mem_addresses, Option.isSome_iff_exists]
  · rcases walk_cases path root with ⟨u, hu⟩ | ⟨before, after, items, h, hr'⟩ | ⟨before, s, after, u, rfl, hr', hs⟩
    · exact absurd hu (hr u)
    · exact absurd hr' (hb before after items h)
    · have htake : (before ++ s :: after).take before.length = before := List.take_left
      have hget : (before ++ s :: after)[before.length]? = some s := by simp
      refine ⟨before.length, s, hget, ?_, NotFound.message_eq _, ⟨s, u, hget, by rwa [htake], hs⟩, fun j hj => ?_,
        by rw [htake]; exact hr'.1⟩
      · rw [htake, select_of_not_applies after hr' hs]
      · exact not_failsAt_of_lt (i := before.length) (by rwa [htake]) hj

/-- A case of each kind: a key that is there, a wildcard over an element with the key behind it and one without, and
a key that is missing. -/
theorem select_denotes_cases :
    (∃ a, (∀ b, Matches [.key "a"] b ↔ b = a) ∧ ∀ v, select [.key "a"] (.object [("a", .null)]) = .ok (.single v) ↔
      (Value.object [("a", .null)]).at? a = some v) ∧
    (∃ (addresses : List Address) (values : List Value),
      select [.key "a", .wildcard, .key "b"] (.object [("a", .array [.object [("b", .null)], .null])]) =
        .ok (.many values) ∧ values.length = addresses.length) ∧
    ∃ i s, [Segment.key "c"][i]? = some s ∧
      select [.key "c"] (.object [("a", .null)]) = .error ⟨[Segment.key "c"].take i, s⟩ := by
  refine ⟨(select_denotes _ _).1 rfl, ?_, ?_⟩
  · obtain ⟨addresses, values, h, -, -, hv⟩ := (select_denotes
      [.key "a", .wildcard, .key "b"] (.object [("a", .array [.object [("b", .null)], .null])])).2.1
      [.key "a"] [.key "b"] [.object [("b", .null)], .null] rfl ⟨rfl, [.key "a"], ⟨rfl, trivial⟩, rfl⟩
    exact ⟨addresses, values, h, by simpa using congrArg List.length hv⟩
  · obtain ⟨i, s, hs, h, -⟩ := (select_denotes [.key "c"] (.object [("a", .null)])).2.2
      (fun v hv => by
        obtain ⟨u, hu, -⟩ := reaches_cons.1 hv
        cases hu)
      (fun before after items h => by
        cases before with
        | nil => cases h
        | cons s before => cases before <;> cases h)
    exact ⟨i, s, hs, h⟩

end Path
end DocQuery
