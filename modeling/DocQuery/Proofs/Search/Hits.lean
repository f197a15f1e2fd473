import DocQuery.Pattern.Parser
import DocQuery.Proofs.Path.Rendering
import DocQuery.Proofs.Value.Sites
import DocQuery.Search
/-!
# Hits and the places of strings

A search walks a value depth first and builds the text of a path on the way down.  What it passes are the strings of the
value, each once and in the order of their trails (`strings_eq_leaves`, `mem_leaves`, `pairwise_leaves`).  The text built
for a string is that of the path with the steps of its address but for empty keys in front (`foldl_extend_eq_shown`).  As
long as keys look like names there are none, so reading the text gives the path (`text_path`), and the path leads back to
the string.
-/
namespace DocQuery

/-- **A string inside a value**: where it stands and what it is. -/
structure Leaf where
  trail : Trail
  address : Address
  text : String

namespace Leaf

def under (i : Nat) (step : Step) (l : Leaf) : Leaf :=
  ⟨i :: l.trail, step :: l.address, l.text⟩

end Leaf

/-- The strings of a value in document order: itself if it is one, or those of its parts. -/
def Value.leaves (v : Value) : List Leaf :=
  (v.text?.map (Leaf.mk [] [])).toList ++
    v.children.zipIdx.attach.flatMap fun ⟨p, _⟩ => p.1.2.leaves.map (.under p.2 p.1.1)
termination_by v
decreasing_by exact Value.sizeOf_lt_of_mem_children (List.fst_mem_of_mem_zipIdx ‹_›)

namespace Value

def innerLeaves (v : Value) : List Leaf :=
  v.children.zipIdx.flatMap fun p => p.1.2.leaves.map (.under p.2 p.1.1)

theorem leaves_eq (v : Value) : v.leaves = (v.text?.map (Leaf.mk [] [])).toList ++ v.innerLeaves := by
  rw [leaves, innerLeaves]
  congr 1
  rw [List.flatMap_subtype (g := fun p => p.1.2.leaves.map (.under p.2 p.1.1)) fun _ _ => rfl, List.unattach_attach]

theorem text?_eq_some {v : Value} {s : String} : v.text? = some s ↔ v = .string s := by
  cases v with
  | scalar x => cases x <;> simp [text?, string]
  | array items => simp [text?, string]
  | object entries => simp [text?, string]

theorem leaves_eq_sites (v : Value) : v.leaves = (v.sites text?).map fun s => ⟨s.trail, s.address, s.content⟩ := by
  induction v using childInduction with
  | h v ih =>
    rw [leaves_eq, sites_eq, List.map_append, innerLeaves, innerSites, List.map_flatMap, List.flatMap_def,
      List.flatMap_def]
    congr 1
    · cases v.text? <;> rfl
    · refine congrArg List.flatten (List.map_congr_left fun p hp => ?_)
      rw [ih _ (List.fst_mem_of_mem_zipIdx hp), List.map_map, List.map_map]
      rfl

/-- **The leaves are the strings that trails lead to.** -/
theorem mem_leaves (v : Value) (l : Leaf) : l ∈ v.leaves ↔ v.locate? l.trail = some (l.address, .string l.text) := by
  rw [leaves_eq_sites, List.mem_map]
  simp only [mem_sites, text?_eq_some]
  constructor
  · rintro ⟨s, ⟨w, hw, rfl⟩, rfl⟩
    exact hw
  · intro h
    exact ⟨⟨l.trail, l.address, l.text⟩, ⟨_, h, rfl⟩, rfl⟩

theorem pairwise_leaves (v : Value) : v.leaves.Pairwise fun l m => l.trail < m.trail := by
  rw [leaves_eq_sites, List.pairwise_map]
  exact v.pairwise_sites text?

end Value

/-! ## The walk -/

namespace Hit

def extend (path : String) : Step → String
  | .key name => keyPath path name
  | .index i => itemPath path i

theorem itemStrings_eq (path : String) : ∀ (i : Nat) (vs : List Value),
    itemStrings path i vs = (vs.zipIdx i).flatMap fun p => strings (extend path (.index p.2)) p.1
  | i, [] => by simp [itemStrings]
  | i, v :: vs => by rw [itemStrings, itemStrings_eq path (i + 1) vs, List.zipIdx_cons, List.flatMap_cons, extend]

theorem entryStrings_eq (path : String) : ∀ es : List (String × Value),
    entryStrings path es = es.flatMap fun e => strings (extend path (.key e.1)) e.2
  | [] => by simp [entryStrings]
  | (k, v) :: es => by rw [entryStrings, entryStrings_eq path es, List.flatMap_cons, extend]

theorem strings_eq (path : String) (v : Value) : strings path v = (v.text?.map (Hit.mk path)).toList ++
    v.children.flatMap fun p => strings (extend path p.1) p.2 := by
  cases v with
  | scalar x => cases x <;> simp [strings, Value.text?, Value.children]
  | array items => simp [strings, itemStrings_eq, Value.text?, Value.children, List.flatMap_map]
  | object entries => simp [strings, entryStrings_eq, Value.text?, Value.children, List.flatMap_map]

end Hit

/-- What a walk reports for a leaf, from a value with the given path. -/
def Leaf.hit (path : String) (l : Leaf) : Hit :=
  ⟨l.address.foldl Hit.extend path, l.text⟩

theorem strings_eq_leaves (v : Value) : ∀ path : String, Hit.strings path v = v.leaves.map (Leaf.hit path) := by
  induction v using Value.childInduction with
  | h v ih =>
    intro path
    have hparts : (v.children.flatMap fun p => Hit.strings (Hit.extend path p.1) p.2) =
        v.innerLeaves.map (Leaf.hit path) := by
      -- leaves number the parts and the walk does not
      conv => lhs; rw [← List.zipIdx_map_fst 0 v.children, List.flatMap_map]
      rw [Value.innerLeaves, List.map_flatMap, List.flatMap_def, List.flatMap_def]
      refine congrArg List.flatten (List.map_congr_left fun p hp => ?_)
      rw [ih _ (List.fst_mem_of_mem_zipIdx hp), List.map_map]
      rfl
    rw [Hit.strings_eq, Value.leaves_eq, List.map_append, hparts]
    congr 1
    cases v.text? <;> rfl

/-! ## Addresses as paths -/

def Step.segment : Step → Segment
  | .key name => .key name
  | .index i => .index i

def Address.path (address : Address) : Path :=
  address.map Step.segment

theorem matches_path : ∀ address : Address, address.path.Matches address
  | [] => trivial
  | .key _ :: address => ⟨rfl, matches_path address⟩
  | .index _ :: address => ⟨rfl, matches_path address⟩

theorem path_injective : ∀ {a b : Address}, a.path = b.path → a = b
  | [], [], _ => rfl
  | step :: a, step' :: b, h => by
    obtain ⟨hs, h⟩ := List.cons.inj h
    rw [path_injective h]
    cases step <;> cases step' <;> cases hs <;> rfl

theorem reaches_path {v w : Value} {address : Address} (h : v.at? address = some w) : address.path.Reaches v w := by
  refine ⟨?_, address, matches_path address, h⟩
  rw [Path.hasWildcard, List.contains_eq_mem, decide_eq_false_iff_not, Address.path, List.mem_map]
  rintro ⟨step, -, hs⟩
  cases step <;> cases hs

/-- The steps that a search shows: all from the first one on that is not an empty key. -/
def Address.shown (address : Address) : Address :=
  address.dropWhile (· == .key "")

theorem Address.shown_cons {step : Step} {address : Address} (h : step ≠ .key "") :
    shown (step :: address) = step :: address :=
  List.dropWhile_cons_of_neg (by simpa using h)

theorem path_cons (step : Step) (address : Address) :
    Address.path (step :: address) = step.segment :: Address.path address :=
  rfl

theorem text_segment_ne_nil {step : Step} (h : step ≠ .key "") : step.segment.text ≠ [] := by
  cases step with
  | key name =>
    intro hnil
    exact h (congrArg Step.key (String.toList_eq_nil_iff.1 hnil))
  | index i => exact List.cons_ne_nil _ _

theorem extend_of_ne {path : String} (hpath : path ≠ "") (step : Step) :
    Hit.extend path step = path ++ String.ofList (Path.renderRest [step.segment]) := by
  have hempty : ¬path.isEmpty = true := fun h => hpath (String.isEmpty_iff.1 h)
  rw [← String.toList_inj]
  cases step with
  | key name => simp [Hit.extend, Hit.keyPath, hempty, Path.renderRest, Step.segment]
  | index i => simp [Hit.extend, Hit.itemPath, Path.renderRest, Step.segment, Segment.text]

theorem extend_empty (step : Step) : Hit.extend "" step = String.ofList step.segment.text := by
  rw [← String.toList_inj]
  cases step with
  | key name => simp [Hit.extend, Hit.keyPath, Step.segment, Segment.text]
  | index i => simp [Hit.extend, Hit.itemPath, Step.segment, Segment.text]

theorem foldl_extend_of_ne (address : Address) : ∀ {path : String}, path ≠ "" →
    address.foldl Hit.extend path = path ++ String.ofList (Path.renderRest address.path) := by
  induction address with
  | nil =>
    intro path _
    simp [Address.path, Path.renderRest]
  | cons step address ih =>
    intro path hpath
    have hne : path ++ String.ofList (Path.renderRest [step.segment]) ≠ "" := by
      intro h
      have hlist := congrArg String.toList h
      rw [String.toList_append] at hlist
      exact hpath (String.toList_eq_nil_iff.1 (List.append_eq_nil_iff.1 hlist).1)
    have hrest : Path.renderRest (Address.path (step :: address)) =
        Path.renderRest [step.segment] ++ Path.renderRest (Address.path address) :=
      Path.renderRest_append [step.segment] (Address.path address)
    rw [List.foldl_cons, extend_of_ne hpath, ih hne, hrest, String.ofList_append, String.append_assoc]

/-- **The path built for an address** is the text of the steps that are shown. -/
theorem foldl_extend_eq_shown (address : Address) : address.foldl Hit.extend "" = address.shown.path.text := by
  induction address with
  | nil => rfl
  | cons step address ih =>
    by_cases h : step = .key ""
    · subst h
      exact ih
    · have hne : String.ofList step.segment.text ≠ "" := by
        rw [Ne, String.ofList_eq_empty_iff]
        exact text_segment_ne_nil h
      rw [Address.shown_cons h, List.foldl_cons, extend_empty, foldl_extend_of_ne address hne, Path.text, path_cons,
        Path.render, String.ofList_append]

theorem shown_of_writable {address : Address} (h : ∀ s ∈ address.path, s.Writable) : address.shown = address := by
  cases address with
  | nil => rfl
  | cons step address =>
    have hstep : step ≠ .key "" := by
      rintro rfl
      exact (h _ List.mem_cons_self).1 rfl
    exact Address.shown_cons hstep

theorem text_path {address : Address} (h : ∀ s ∈ address.path, s.Writable) :
    address.foldl Hit.extend "" = address.path.text := by
  rw [foldl_extend_eq_shown, shown_of_writable h]

/-! ## Values whose strings have paths -/

namespace Value

/-- An object whose keys are names that do not begin or end with a blank. -/
def NamedKeys : Value → Prop
  | .object entries => ∀ key ∈ Entries.keys entries, Path.IsName key.toList ∧ Text.Trimmed key.toList
  | _ => True

/-- An array whose positions have sixty-four bits.  No other fits into memory. -/
def Indexable : Value → Prop
  | .array items => items.length ≤ 2 ^ 64
  | _ => True

theorem writable_of_mem_children {v u : Value} {step : Step} (hn : v.NamedKeys) (hi : v.Indexable)
    (h : (step, u) ∈ v.children) : step.segment.Writable ∧ Text.Trimmed step.segment.text := by
  cases v with
  | scalar x => simp [children] at h
  | array items =>
    obtain ⟨⟨w, i⟩, hw, he⟩ := List.mem_map.1 h
    cases he
    have hlt : i < items.length := (List.getElem?_eq_some_iff.1 (List.mem_zipIdx_iff_getElem?.1 hw)).1
    exact ⟨Nat.lt_of_lt_of_le hlt hi, .enclose rfl rfl _⟩
  | object entries =>
    obtain ⟨⟨key, w⟩, hw, he⟩ := List.mem_map.1 h
    cases he
    exact hn key (List.mem_map.2 ⟨_, hw, rfl⟩)

theorem writable_of_locate? {trail : Trail} {v w : Value} {address : Address} (hn : v.Everywhere NamedKeys)
    (hi : v.Everywhere Indexable) (h : v.locate? trail = some (address, w)) :
    ∀ s ∈ address.path, s.Writable ∧ Text.Trimmed s.text :=
  List.forall_mem_map.2 ((hn.and hi).forall_step_of_locate?
    (fun _ hv _ hp => writable_of_mem_children hv.1 hv.2 hp) h)

end Value

/-! ## Hits -/

section Hits

variable {v : Value} {l m : Leaf} (hu : v.Everywhere Value.UniqueKeys) (hn : v.Everywhere Value.NamedKeys)
  (hi : v.Everywhere Value.Indexable)

include hu in
theorem address_ne (hl : l ∈ v.leaves) (hm : m ∈ v.leaves) (hlm : l.trail < m.trail) : l.address ≠ m.address := by
  intro h
  have hlocate := (v.mem_leaves l).1 hl
  rw [h] at hlocate
  rw [Value.trail_unique hu hlocate ((v.mem_leaves m).1 hm)] at hlm
  exact List.lt_irrefl _ hlm

include hn hi in
theorem wellFormed_path (hl : l ∈ v.leaves) : l.address.path.WellFormed :=
  Path.wellFormed_of_trimmed (Value.writable_of_locate? hn hi ((v.mem_leaves l).1 hl))

include hn hi in
theorem path_hit (hl : l ∈ v.leaves) : (l.hit "").path = l.address.path.text :=
  text_path (wellFormed_path hn hi hl).segments

include hu hn hi in
/-- **The path reported for a string leads to it.** -/
theorem select_hit (hl : l ∈ v.leaves) : ∃ path, Path.parse (l.hit "").path = .ok path ∧
    path.select v = .ok (.single (.string l.text)) := by
  have hat : v.at? l.address = some (.string l.text) := Value.at?_of_locate? hu ((v.mem_leaves l).1 hl)
  refine ⟨l.address.path, ?_, Path.select_of_reaches (reaches_path hat)⟩
  rw [path_hit hn hi hl]
  exact Path.parse_text (wellFormed_path hn hi hl)

include hu hn hi in
theorem path_hit_ne (hl : l ∈ v.leaves) (hm : m ∈ v.leaves) (hlm : l.trail < m.trail) :
    (l.hit "").path ≠ (m.hit "").path := by
  intro h
  rw [path_hit hn hi hl, path_hit hn hi hm] at h
  have hpath : l.address.path = m.address.path := by
    have hread := Path.parse_text (wellFormed_path hn hi hl)
    rw [h, Path.parse_text (wellFormed_path hn hi hm)] at hread
    exact (Except.ok.inj hread).symm
  exact address_ne hu hl hm hlm (path_injective hpath)

end Hits

theorem hits_eq (pattern : Pattern) (v : Value) :
    v.hits pattern = (v.leaves.filter fun l => pattern.isMatch l.text).map (Leaf.hit "") := by
  rw [Value.hits, strings_eq_leaves, List.filter_map]
  rfl

/-- **A search reports the strings in which its pattern matches**, each once and in document order, and where keys are
names without blanks around them each hit has a path of its own, which can be read and leads to the string. -/
theorem search_hits [Pattern.Engine] {text : String} {caseSensitive : Bool} {pattern : Pattern}
    (hp : Pattern.compile? (!caseSensitive) text = some pattern) (v : Value) :
    ∃ hits, search text caseSensitive v = .ok hits ∧
      (∃ trails : List Trail,
        (∀ t, t ∈ trails ↔ ∃ address s, v.locate? t = some (address, .string s) ∧ pattern.isMatch s = true) ∧
        trails.Pairwise (· < ·) ∧
        hits.map (fun hit => some (Value.string hit.text)) = trails.map fun t => (v.locate? t).map Prod.snd) ∧
      (v.Everywhere Value.UniqueKeys → v.Everywhere Value.NamedKeys → v.Everywhere Value.Indexable →
        (∀ hit ∈ hits, ∃ path, Path.parse hit.path = .ok path ∧
          path.select v = .ok (.single (.string hit.text))) ∧
        (hits.map Hit.path).Nodup) := by
  refine ⟨v.hits pattern, by rw [search, hp], ?_, fun hu hn hi => ?_⟩
  · refine ⟨(v.leaves.filter fun l => pattern.isMatch l.text).map Leaf.trail, fun t => ?_, ?_, ?_⟩
    · simp only [List.mem_map, List.mem_filter, v.mem_leaves]
      constructor
      · rintro ⟨l, ⟨hl, hm⟩, rfl⟩
        exact ⟨l.address, l.text, hl, hm⟩
      · rintro ⟨address, s, hs, hm⟩
        exact ⟨⟨t, address, s⟩, ⟨hs, hm⟩, rfl⟩
    · rw [List.pairwise_map]
      exact v.pairwise_leaves.filter _
    · rw [hits_eq, List.map_map, List.map_map]
      refine List.map_congr_left fun l hl => ?_
      have hlocate := (v.mem_leaves l).1 (List.mem_filter.1 hl).1
      simp [Leaf.hit, hlocate]
  · rw [hits_eq, List.map_map]
    constructor
    · intro hit hh
      obtain ⟨l, hl, rfl⟩ := List.mem_map.1 hh
      exact select_hit hu hn hi (List.mem_filter.1 hl).1
    · refine List.pairwise_map.2 ((v.pairwise_leaves.filter _).imp_of_mem fun {l m} hl hm hlt => ?_)
      exact path_hit_ne hu hn hi (List.mem_filter.1 hl).1 (List.mem_filter.1 hm).1 hlt

/-- A document in which keys look like a wildcard and like a number, at its root and below. -/
theorem search_hits_nested : ∃ v hits,
    v = Value.array [.object [("*", .array [.null, .string "a"]), ("12", .object [("first name", .string "ab")])],
      .string "ba"] ∧
    hits = [⟨"[0].*[1]", "a"⟩, ⟨"[0].12.first name", "ab"⟩, ⟨"[1]", "ba"⟩] ∧ search "a" true v = .ok hits ∧
    (∀ hit ∈ hits, ∃ path, Path.parse hit.path = .ok path ∧ path.select v = .ok (.single (.string hit.text))) ∧
    (hits.map Hit.path).Nodup := by
  have hcompile : (Pattern.compile? (!true) "a").isSome = true := by decide
  obtain ⟨pattern, hp⟩ := Option.isSome_iff_exists.1 hcompile
  have hstar : Text.Trimmed ['*'] := .singleton rfl
  have hnumber : Text.Trimmed ['1', '2'] := .enclose rfl rfl []
  have hname : Text.Trimmed ['f', 'i', 'r', 's', 't', ' ', 'n', 'a', 'm', 'e'] :=
    ⟨⟨'f', rfl, rfl⟩, 'e', rfl, rfl⟩
  obtain ⟨hits, hsearch, -, h⟩ := search_hits hp (.array [.object [("*", .array [.null, .string "a"]),
    ("12", .object [("first name", .string "ab")])], .string "ba"])
  have hrun : search "a" true (.array [.object [("*", .array [.null, .string "a"]),
      ("12", .object [("first name", .string "ab")])], .string "ba"]) =
      .ok [⟨"[0].*[1]", "a"⟩, ⟨"[0].12.first name", "ab"⟩, ⟨"[1]", "ba"⟩] := by rfl
  cases hsearch.symm.trans hrun
  exact ⟨_, _, rfl, rfl, hrun, h (by simp [Value.UniqueKeys, Entries.keys, Value.null, Value.string])
    (by simp [Value.NamedKeys, Entries.keys, Value.null, Value.string, Path.IsName, hstar, hnumber, hname])
    (by simp [Value.Indexable, Value.null, Value.string])⟩

end DocQuery
