import DocQuery.Proofs.Search.Hits
/-!
# Hits under one path

A search takes an empty path for that of the whole document, so the text that it builds leaves out the empty keys with
which an address begins, and shows all other steps (`foldl_extend_eq_shown`).  Of keys without dots and brackets the
steps that are shown can be read off the text (`shown_of_text_eq`).  Hence two hits have one path exactly when they
differ only in the empty keys in front, and none do in a document that has no empty key at its root (`search_paths`).
-/
namespace DocQuery

/-- A key without the signs that divide a path. -/
def Step.Plain : Step → Prop
  | .key name => ∀ c ∈ name.toList, c ∉ ['.', '[', ']']
  | .index _ => True

/-! ## Reading an address off its text -/

theorem renderRest_key (name : String) (address : Address) :
    Path.renderRest (Address.path (.key name :: address)) = '.' :: (name.toList ++ Path.renderRest address.path) :=
  rfl

theorem renderRest_index (i : Nat) (address : Address) :
    Path.renderRest (Address.path (.index i :: address)) =
      '[' :: (Nat.toDigits 10 i ++ ']' :: Path.renderRest address.path) := by
  simp [Address.path, Step.segment, Path.renderRest, Segment.text]

theorem head?_renderRest {c : Char} (path : Path) (h : c ∈ (Path.renderRest path).head?) : c = '.' ∨ c = '[' := by
  cases path with
  | nil => cases h
  | cons s path =>
    cases s with
    | key name => exact .inl (Option.some.inj h).symm
    | index i => exact .inr (Option.some.inj h).symm
    | wildcard => exact .inr (Option.some.inj h).symm

theorem key_of_text_eq {name name' : String} {path path' : Path} (hname : (Step.key name).Plain)
    (hname' : (Step.key name').Plain)
    (h : name.toList ++ Path.renderRest path = name'.toList ++ Path.renderRest path') :
    name = name' ∧ Path.renderRest path = Path.renderRest path' := by
  have hinside : ∀ {n : String}, (Step.key n).Plain → ∀ c ∈ n.toList, (decide (c ∉ ['.', '[', ']'])) = true :=
    fun hn c hc => decide_eq_true (hn c hc)
  have hboundary : ∀ p : Path, ∀ c ∈ (Path.renderRest p).head?, (decide (c ∉ ['.', '[', ']'])) = false := by
    intro p c hc
    rcases head?_renderRest p hc with rfl | rfl <;> rfl
  obtain ⟨htext, hrest⟩ := Text.scan_unique h (hinside hname) (hboundary path) (hinside hname') (hboundary path')
  exact ⟨String.toList_inj.1 htext, hrest⟩

theorem index_of_text_eq {i j : Nat} {t t' : List Char}
    (h : Nat.toDigits 10 i ++ ']' :: t = Nat.toDigits 10 j ++ ']' :: t') : i = j ∧ t = t' := by
  have hinside : ∀ n : Nat, ∀ c ∈ Nat.toDigits 10 n, c.isDigit = true := fun n c hc => Scalar.isDigit_of_mem_toDigits hc
  have hboundary : ∀ t : List Char, ∀ c ∈ (']' :: t).head?, c.isDigit = false := by
    rintro t c hc
    cases hc
    rfl
  obtain ⟨hdigits, hrest⟩ := Text.scan_unique h (hinside i) (hboundary t) (hinside j) (hboundary t')
  refine ⟨?_, (List.cons.inj hrest).2⟩
  calc
    i = Nat.ofDigitChars 10 (Nat.toDigits 10 i) 0 := Nat.ofDigitChars_ten_toDigits.symm
    _ = Nat.ofDigitChars 10 (Nat.toDigits 10 j) 0 := by rw [hdigits]
    _ = j := Nat.ofDigitChars_ten_toDigits

theorem address_of_renderRest_eq : ∀ {a b : Address}, (∀ s ∈ a, s.Plain) → (∀ s ∈ b, s.Plain) →
    Path.renderRest a.path = Path.renderRest b.path → a = b
  | [], [], _, _, _ => rfl
  | [], .key _ :: _, _, _, h => by cases h
  | [], .index _ :: _, _, _, h => by cases h
  | .key _ :: _, [], _, _, h => by cases h
  | .index _ :: _, [], _, _, h => by cases h
  | .key name :: a, .key name' :: b, ha, hb, h => by
    obtain ⟨hname, hrestA⟩ := List.forall_mem_cons.1 ha
    obtain ⟨hname', hrestB⟩ := List.forall_mem_cons.1 hb
    rw [renderRest_key, renderRest_key] at h
    obtain ⟨rfl, hrest⟩ := key_of_text_eq hname hname' (List.cons.inj h).2
    rw [address_of_renderRest_eq hrestA hrestB hrest]
  | .key _ :: _, .index _ :: _, _, _, h => absurd (List.cons.inj h).1 (by decide)
  | .index _ :: _, .key _ :: _, _, _, h => absurd (List.cons.inj h).1 (by decide)
  | .index i :: a, .index j :: b, ha, hb, h => by
    rw [renderRest_index, renderRest_index] at h
    obtain ⟨rfl, hrest⟩ := index_of_text_eq (List.cons.inj h).2
    rw [address_of_renderRest_eq (List.forall_mem_cons.1 ha).2 (List.forall_mem_cons.1 hb).2 hrest]

theorem key_text_ne {name : String} {t t' : List Char} (hname : (Step.key name).Plain) (hne : name ≠ "") :
    name.toList ++ t ≠ '[' :: t' := by
  intro h
  cases hlist : name.toList with
  | nil => exact hne (String.toList_eq_nil_iff.1 hlist)
  | cons c cs =>
    rw [hlist] at h
    have hc := hname c (by rw [hlist]; exact List.mem_cons_self)
    exact hc (by rw [(List.cons.inj h).1]; simp)

/-- **The text tells all plain steps** if the first is not an empty key. -/
theorem address_of_text_eq {a b : Address} (ha : ∀ s ∈ a, s.Plain) (hb : ∀ s ∈ b, s.Plain)
    (hheadA : ∀ s ∈ a.head?, s ≠ .key "") (hheadB : ∀ s ∈ b.head?, s ≠ .key "")
    (h : a.path.text = b.path.text) : a = b := by
  have hrender : Path.render a.path = Path.render b.path := String.ofList_injective h
  have hnil : ∀ (step : Step) (c : Address), step ≠ .key "" → Path.render (Address.path (step :: c)) ≠ [] :=
    fun step c hstep => List.append_ne_nil_of_left_ne_nil (text_segment_ne_nil hstep) _
  cases a with
  | nil =>
    cases b with
    | nil => rfl
    | cons step b => exact absurd hrender.symm (hnil step b (hheadB step rfl))
  | cons step a =>
    cases b with
    | nil => exact absurd hrender (hnil step a (hheadA step rfl))
    | cons step' b =>
      -- a key begins with a character of its name, and a position with a bracket, which no plain key has
      cases step with
      | key name =>
        have hname : name ≠ "" := fun hn => hheadA _ rfl (congrArg Step.key hn)
        cases step' with
        | key name' => exact address_of_renderRest_eq ha hb (congrArg (List.cons '.') hrender)
        | index j => exact absurd hrender (key_text_ne (ha _ List.mem_cons_self) hname)
      | index i =>
        cases step' with
        | key name' =>
          have hname' : name' ≠ "" := fun hn => hheadB _ rfl (congrArg Step.key hn)
          exact absurd hrender.symm (key_text_ne (hb _ List.mem_cons_self) hname')
        | index j => exact address_of_renderRest_eq ha hb hrender

theorem shown_of_text_eq {a b : Address} (ha : ∀ s ∈ a, s.Plain) (hb : ∀ s ∈ b, s.Plain)
    (h : a.shown.path.text = b.shown.path.text) : a.shown = b.shown := by
  have hplain : ∀ {c : Address}, (∀ s ∈ c, s.Plain) → ∀ s ∈ c.shown, s.Plain :=
    fun hc s hs => hc s ((List.dropWhile_sublist _).mem hs)
  have hhead : ∀ (c : Address), ∀ s ∈ c.shown.head?, s ≠ .key "" := by
    intro c s hs
    have hnot := List.head?_dropWhile_not (· == Step.key "") c
    have hsome : (c.dropWhile (· == Step.key "")).head? = some s := hs
    rw [hsome] at hnot
    simpa using hnot
  exact address_of_text_eq (hplain ha) (hplain hb) (hhead a) (hhead b) h

/-! ## Values without signs of paths in their keys -/

namespace Value

def PlainKeys : Value → Prop
  | .object entries => ∀ key ∈ Entries.keys entries, Step.Plain (.key key)
  | _ => True

/-- A value that is not an object with an empty key.  There may be some inside. -/
def NoEmptyKey : Value → Prop
  | .object entries => "" ∉ Entries.keys entries
  | _ => True

theorem plain_of_mem_children {v : Value} (hk : v.PlainKeys) {p : Step × Value} (hp : p ∈ v.children) : p.1.Plain := by
  cases v with
  | scalar x => simp [children] at hp
  | array items =>
    obtain ⟨q, -, rfl⟩ := List.mem_map.1 hp
    trivial
  | object entries =>
    obtain ⟨e, he, rfl⟩ := List.mem_map.1 hp
    exact hk e.1 (List.mem_map_of_mem he)

theorem ne_empty_of_mem_children {v : Value} (hk : v.NoEmptyKey) {p : Step × Value} (hp : p ∈ v.children) :
    p.1 ≠ .key "" := by
  cases v with
  | scalar x => simp [children] at hp
  | array items =>
    obtain ⟨q, -, rfl⟩ := List.mem_map.1 hp
    exact Step.noConfusion
  | object entries =>
    obtain ⟨e, he, rfl⟩ := List.mem_map.1 hp
    intro h
    have hmem : e.1 ∈ Entries.keys entries := List.mem_map_of_mem he
    rw [Step.key.inj h] at hmem
    exact hk hmem

theorem shown_of_locate? {v w : Value} {trail : Trail} {address : Address} (hk : v.NoEmptyKey)
    (h : v.locate? trail = some (address, w)) : address.shown = address := by
  cases trail with
  | nil =>
    cases h
    rfl
  | cons i trail =>
    obtain ⟨step, u, rest, hu, -, rfl⟩ := locate?_cons.1 h
    exact Address.shown_cons (ne_empty_of_mem_children hk (List.mem_of_getElem? hu))

end Value

/-! ## Hits -/

section Hits

variable {v : Value} {l m : Leaf}

theorem plain_of_mem_leaves (hk : v.Everywhere Value.PlainKeys) (hl : l ∈ v.leaves) : ∀ s ∈ l.address, s.Plain :=
  hk.forall_step_of_locate? (fun _ hu _ hp => Value.plain_of_mem_children hu hp) ((v.mem_leaves l).1 hl)

theorem path_hit_eq_iff (hk : v.Everywhere Value.PlainKeys) (hl : l ∈ v.leaves) (hm : m ∈ v.leaves) :
    (l.hit "").path = (m.hit "").path ↔ l.address.shown = m.address.shown := by
  have hpath : ∀ k : Leaf, (k.hit "").path = k.address.shown.path.text := fun k => foldl_extend_eq_shown k.address
  rw [hpath, hpath]
  constructor
  · exact shown_of_text_eq (plain_of_mem_leaves hk hl) (plain_of_mem_leaves hk hm)
  · intro h
    rw [h]

theorem path_hit_ne_of_noEmptyKey (hu : v.Everywhere Value.UniqueKeys) (hk : v.Everywhere Value.PlainKeys)
    (he : v.NoEmptyKey) (hl : l ∈ v.leaves) (hm : m ∈ v.leaves) (hlm : l.trail < m.trail) :
    (l.hit "").path ≠ (m.hit "").path := by
  intro h
  have hshown := (path_hit_eq_iff hk hl hm).1 h
  rw [Value.shown_of_locate? he ((v.mem_leaves l).1 hl), Value.shown_of_locate? he ((v.mem_leaves m).1 hm)] at hshown
  exact address_ne hu hl hm hlm hshown

end Hits

/-- **The paths of hits** are the texts of what is shown of their addresses.  As long as keys are plain, hits have one
path exactly if the same is shown of them, so if they differ in empty keys in front and nowhere else; unless the
document is an object with an empty key, each hit has a path of its own, whatever empty keys there are inside. -/
theorem search_paths [Pattern.Engine] {text : String} {caseSensitive : Bool} {pattern : Pattern}
    (hp : Pattern.compile? (!caseSensitive) text = some pattern) (v : Value) :
    ∃ leaves : List Leaf, search text caseSensitive v = .ok (leaves.map (Leaf.hit "")) ∧
      (∀ l, l ∈ leaves ↔ v.locate? l.trail = some (l.address, .string l.text) ∧ pattern.isMatch l.text = true) ∧
      leaves.Pairwise (fun l m => l.trail < m.trail) ∧
      (∀ l ∈ leaves, (l.hit "").path = l.address.shown.path.text) ∧
      (v.Everywhere Value.PlainKeys → ∀ l ∈ leaves, ∀ m ∈ leaves,
        (l.hit "").path = (m.hit "").path ↔ l.address.shown = m.address.shown) ∧
      (v.Everywhere Value.UniqueKeys → v.Everywhere Value.PlainKeys → v.NoEmptyKey →
        ((leaves.map (Leaf.hit "")).map Hit.path).Nodup) := by
  have hmem : ∀ l ∈ v.leaves.filter (fun l => pattern.isMatch l.text), l ∈ v.leaves :=
    fun l hl => (List.mem_filter.1 hl).1
  have horder := v.pairwise_leaves.filter fun l => pattern.isMatch l.text
  refine ⟨v.leaves.filter fun l => pattern.isMatch l.text, ?_, fun l => ?_, horder,
    fun l _ => foldl_extend_eq_shown l.address, fun hk l hl m hm => path_hit_eq_iff hk (hmem l hl) (hmem m hm),
    fun hu hk he => ?_⟩
  · rw [search, hp, ← hits_eq]
  · rw [List.mem_filter, v.mem_leaves]
  · rw [List.map_map]
    refine List.pairwise_map.2 (horder.imp_of_mem fun {l m} hl hm hlt => ?_)
    exact path_hit_ne_of_noEmptyKey hu hk he (hmem l hl) (hmem m hm) hlt

/-- Empty keys inside a document do not make paths equal, neither at the end nor between other steps. -/
theorem search_paths_inside :
    let v : Value := .object [("a", .object [("", .object [("", .string "x"), ("b", .string "y")]),
      ("b", .array [.string "z"])]), ("b", .string "w")]
    ∃ hits, search "." false v = .ok hits ∧ hits.map Hit.path = ["a..", "a..b", "a.b[0]", "b"] ∧
      (hits.map Hit.path).Nodup := by
  intro v
  have hcompile : (Pattern.compile? (!false) ".").isSome = true := by decide
  obtain ⟨pattern, hp⟩ := Option.isSome_iff_exists.1 hcompile
  obtain ⟨leaves, hsearch, -, -, -, -, hnodup⟩ := search_paths hp v
  have hrun : search "." false v = .ok [⟨"a..", "x"⟩, ⟨"a..b", "y"⟩, ⟨"a.b[0]", "z"⟩, ⟨"b", "w"⟩] := by rfl
  have hhits := Except.ok.inj (hsearch.symm.trans hrun)
  rw [hhits] at hnodup
  refine ⟨_, hrun, rfl, hnodup ?_ ?_ ?_⟩
  · simp [v, Value.UniqueKeys, Entries.keys, Value.string]
  · simp [v, Value.PlainKeys, Step.Plain, Entries.keys, Value.string]
  · simp [v, Value.NoEmptyKey, Entries.keys]

/-- An empty key at the root is not shown: two strings in different places have one path. -/
theorem search_paths_collide :
    let v : Value := .object [("", .object [("a", .string "x")]), ("a", .string "y")]
    v.Everywhere Value.UniqueKeys ∧ v.Everywhere Value.PlainKeys ∧
    v.locate? [0, 0] = some ([.key "", .key "a"], .string "x") ∧ v.locate? [1] = some ([.key "a"], .string "y") ∧
    search "." false v = .ok [⟨"a", "x"⟩, ⟨"a", "y"⟩] := by
  intro v
  refine ⟨?_, ?_, rfl, rfl, by rfl⟩
  · simp [v, Value.UniqueKeys, Entries.keys, Value.string]
  · simp [v, Value.PlainKeys, Step.Plain, Entries.keys, Value.string]

end DocQuery
