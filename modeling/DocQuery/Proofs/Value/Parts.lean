import DocQuery.Proofs.Path.Addresses
/-!
# Parts of values

The elements of an array and the values of an object's entries are its parts, in document order, and a value is reached
from another by a trail: the number of a part, the number of a part of that part, and so on.  A trail says where a value
stands, also among entries with the same key, and trails in lexicographic order are in document order.
-/
namespace DocQuery

/-- The numbers of the parts that lead to a value, from the outermost on. -/
abbrev Trail := List Nat

namespace Value

def children : Value → List (Step × Value)
  | .scalar _ => []
  | .array items => items.zipIdx.map fun (v, i) => (.index i, v)
  | .object entries => entries.map fun (key, v) => (.key key, v)

theorem exists_mem_children_array {items : List Value} {v : Value} (h : v ∈ items) :
    ∃ step, (step, v) ∈ children (.array items) := by
  obtain ⟨i, hi⟩ := List.getElem?_of_mem h
  exact ⟨.index i, List.mem_map.2 ⟨(v, i), List.mem_zipIdx_iff_getElem?.2 hi, rfl⟩⟩

theorem mem_children_object {entries : List (String × Value)} {e : String × Value} (h : e ∈ entries) :
    (.key e.1, e.2) ∈ children (.object entries) :=
  List.mem_map.2 ⟨e, h, rfl⟩

theorem forall_children_array {P : Value → Prop} {items : List Value} :
    (∀ p ∈ children (.array items), P p.2) ↔ ∀ v ∈ items, P v := by
  constructor
  · intro h v hv
    obtain ⟨step, hstep⟩ := exists_mem_children_array hv
    exact h _ hstep
  · intro h p hp
    obtain ⟨⟨v, i⟩, hv, rfl⟩ := List.mem_map.1 hp
    exact h v (List.fst_mem_of_mem_zipIdx hv)

theorem forall_children_object {P : Value → Prop} {entries : List (String × Value)} :
    (∀ p ∈ children (.object entries), P p.2) ↔ ∀ e ∈ entries, P e.2 :=
  List.forall_mem_map

theorem sizeOf_lt_of_mem_children {v : Value} {p : Step × Value} (h : p ∈ v.children) : sizeOf p.2 < sizeOf v := by
  revert p
  cases v with
  | scalar x => simp [children]
  | array items =>
    rw [forall_children_array (P := fun u => sizeOf u < sizeOf (Value.array items))]
    intro u hu
    have := List.sizeOf_lt_of_mem hu
    rw [Value.array.sizeOf_spec]
    omega
  | object entries =>
    rw [forall_children_object (P := fun u => sizeOf u < sizeOf (Value.object entries))]
    rintro ⟨key, u⟩ he
    have := List.sizeOf_lt_of_mem he
    rw [Prod.mk.sizeOf_spec] at this
    rw [Value.object.sizeOf_spec]
    dsimp only
    omega

/-- **What holds of a value when it holds of its parts** holds of every value. -/
@[elab_as_elim]
theorem childInduction {P : Value → Prop} (h : ∀ v, (∀ p ∈ v.children, P p.2) → P v) (v : Value) : P v :=
  h v fun p _ => childInduction h p.2
termination_by v
decreasing_by exact sizeOf_lt_of_mem_children ‹_›

/-- **What holds of a value and of all that is inside it.** -/
inductive Everywhere (P : Value → Prop) : Value → Prop
  | intro {v : Value} (here : P v) (inside : ∀ p ∈ v.children, Everywhere P p.2) : Everywhere P v

section Everywhere

variable {P : Value → Prop}

theorem everywhere_iff {v : Value} : v.Everywhere P ↔ P v ∧ ∀ p ∈ v.children, p.2.Everywhere P :=
  ⟨fun h => by cases h with | intro here inside => exact ⟨here, inside⟩, fun h => .intro h.1 h.2⟩

@[simp] theorem everywhere_scalar {x : Scalar} : (scalar x).Everywhere P ↔ P (scalar x) := by
  simp [everywhere_iff (v := scalar x), children]

@[simp] theorem everywhere_array {items : List Value} :
    (array items).Everywhere P ↔ P (array items) ∧ ∀ v ∈ items, v.Everywhere P := by
  rw [everywhere_iff, forall_children_array]

@[simp] theorem everywhere_object {entries : List (String × Value)} :
    (object entries).Everywhere P ↔ P (object entries) ∧ ∀ e ∈ entries, e.2.Everywhere P := by
  rw [everywhere_iff, forall_children_object]

theorem Everywhere.imp {Q : Value → Prop} {v : Value} (hPQ : ∀ u, P u → Q u) (h : v.Everywhere P) :
    v.Everywhere Q := by
  induction h with
  | intro here inside ih => exact .intro (hPQ _ here) ih

theorem Everywhere.and {Q : Value → Prop} {v : Value} (hp : v.Everywhere P) (hq : v.Everywhere Q) :
    v.Everywhere fun u => P u ∧ Q u := by
  induction hp with
  | intro here inside ih =>
    obtain ⟨here', inside'⟩ := everywhere_iff.1 hq
    exact .intro ⟨here, here'⟩ fun p hp => ih p hp (inside' p hp)

end Everywhere

/-- The value at the end of a trail, and its address. -/
def locate? (v : Value) : Trail → Option (Address × Value)
  | [] => some ([], v)
  | i :: trail => do
    let (step, u) ← v.children[i]?
    let (address, w) ← u.locate? trail
    return (step :: address, w)

theorem locate?_cons {v w : Value} {i : Nat} {trail : Trail} {address : Address} :
    v.locate? (i :: trail) = some (address, w) ↔ ∃ step u rest, v.children[i]? = some (step, u) ∧
      u.locate? trail = some (rest, w) ∧ address = step :: rest := by
  simp only [locate?, bind, Option.bind_eq_some_iff, Prod.exists, pure, Option.some.injEq, Prod.mk.injEq]
  constructor
  · rintro ⟨step, u, hu, rest, w', hw, rfl, rfl⟩
    exact ⟨step, u, rest, hu, hw, rfl⟩
  · rintro ⟨step, u, rest, hu, hw, rfl⟩
    exact ⟨step, u, hu, rest, w, hw, rfl, rfl⟩

theorem Everywhere.of_locate? {P : Value → Prop} {w : Value} : ∀ {trail : Trail} {v : Value} {address : Address},
    v.Everywhere P → v.locate? trail = some (address, w) → P w
  | [], v, address, hv, h => by
    cases h
    exact (everywhere_iff.1 hv).1
  | i :: trail, v, address, hv, h => by
    obtain ⟨step, u, rest, hu, hw, -⟩ := locate?_cons.1 h
    exact of_locate? ((everywhere_iff.1 hv).2 _ (List.mem_of_getElem? hu)) hw

theorem Everywhere.forall_step_of_locate? {P : Value → Prop} {Q : Step → Prop}
    (hstep : ∀ v : Value, P v → ∀ p ∈ v.children, Q p.1) :
    ∀ {trail : Trail} {v w : Value} {address : Address}, v.Everywhere P → v.locate? trail = some (address, w) →
      ∀ step ∈ address, Q step
  | [], v, w, address, _, h => by
    cases h
    exact List.forall_mem_nil _
  | i :: trail, v, w, address, hv, h => by
    obtain ⟨step, u, rest, hu, hw, rfl⟩ := locate?_cons.1 h
    obtain ⟨here, inside⟩ := everywhere_iff.1 hv
    have hmem := List.mem_of_getElem? hu
    exact List.forall_mem_cons.2 ⟨hstep v here _ hmem, forall_step_of_locate? hstep (inside _ hmem) hw⟩

/-- **A value that is no float.**  It may have floats inside. -/
def NotFloat : Value → Prop
  | .scalar (.number (.float _)) => False
  | _ => True

/-- **A value that is no not-a-number.**  It may have some inside. -/
def NotNaN (v : Value) : Prop :=
  v ≠ .number (.float .nan)

/-! ## Depth -/

mutual

/-- How many containers stand inside each other, the outermost among them. -/
def depth : Value → Nat
  | .scalar _ => 0
  | .array items => itemsDepth items + 1
  | .object entries => entriesDepth entries + 1

def itemsDepth : List Value → Nat
  | [] => 0
  | v :: vs => max v.depth (itemsDepth vs)

def entriesDepth : List (String × Value) → Nat
  | [] => 0
  | (_, v) :: es => max v.depth (entriesDepth es)

end

theorem itemsDepth_le {n : Nat} : ∀ {items : List Value}, itemsDepth items ≤ n ↔ ∀ v ∈ items, v.depth ≤ n
  | [] => by simp [itemsDepth]
  | v :: vs => by rw [itemsDepth, Nat.max_le, itemsDepth_le, List.forall_mem_cons]

theorem entriesDepth_le {n : Nat} : ∀ {entries : List (String × Value)},
    entriesDepth entries ≤ n ↔ ∀ e ∈ entries, e.2.depth ≤ n
  | [] => by simp [entriesDepth]
  | (_, v) :: es => by rw [entriesDepth, Nat.max_le, entriesDepth_le, List.forall_mem_cons]

/-! ## Addresses of trails -/

/-- An object whose keys stand once.  Documents have no others. -/
def UniqueKeys : Value → Prop
  | .object entries => (Entries.keys entries).Nodup
  | _ => True

theorem lookup_of_mem : ∀ {entries : Entries} {key : String} {v : Value}, (Entries.keys entries).Nodup →
    (key, v) ∈ entries → entries.lookup key = some v
  | (k, u) :: entries, key, v, hkeys, h => by
    rw [Entries.keys, List.map_cons, List.nodup_cons] at hkeys
    rcases List.mem_cons.1 h with he | hrest
    · cases he
      simp
    · have hne : key ≠ k := by
        rintro rfl
        exact hkeys.1 (List.mem_map.2 ⟨_, hrest, rfl⟩)
      rw [List.lookup_cons, beq_eq_false_iff_ne.2 hne]
      exact lookup_of_mem hkeys.2 hrest

theorem part?_of_mem_children {v u : Value} {step : Step} (hv : v.UniqueKeys) (h : (step, u) ∈ v.children) :
    v.part? step = some u := by
  cases v with
  | scalar x => simp [children] at h
  | array items =>
    obtain ⟨⟨w, i⟩, hw, he⟩ := List.mem_map.1 h
    cases he
    exact List.mem_zipIdx_iff_getElem?.1 hw
  | object entries =>
    obtain ⟨⟨key, w⟩, hw, he⟩ := List.mem_map.1 h
    cases he
    exact lookup_of_mem hv hw

theorem nodup_steps {v : Value} (hv : v.UniqueKeys) : (v.children.map Prod.fst).Nodup := by
  cases v with
  | scalar x => simp [children]
  | array items =>
    have hi : (items.zipIdx.map Prod.snd).Nodup := by
      rw [List.zipIdx_map_snd]
      exact List.nodup_range'
    have := List.Pairwise.map (S := (· ≠ ·)) Step.index (fun i j hne h => hne (Step.index.inj h)) hi
    rw [List.map_map] at this
    rw [children, List.map_map]
    exact this
  | object entries =>
    have := List.Pairwise.map (S := (· ≠ ·)) Step.key (fun k l hne h => hne (Step.key.inj h)) hv
    rw [Entries.keys, List.map_map] at this
    rw [children, List.map_map]
    exact this

theorem at?_of_locate? : ∀ {trail : Trail} {v w : Value} {address : Address}, v.Everywhere UniqueKeys →
    v.locate? trail = some (address, w) → v.at? address = some w
  | [], v, w, address, _, h => by
    cases h
    rfl
  | i :: trail, v, w, address, hv, h => by
    obtain ⟨step, u, rest, hu, hw, rfl⟩ := locate?_cons.1 h
    obtain ⟨here, inside⟩ := everywhere_iff.1 hv
    have hmem := List.mem_of_getElem? hu
    rw [at?, part?_of_mem_children here hmem]
    exact at?_of_locate? (inside _ hmem) hw

/-- **An address belongs to one trail.** -/
theorem trail_unique : ∀ {trail trail' : Trail} {v w w' : Value} {address : Address}, v.Everywhere UniqueKeys →
    v.locate? trail = some (address, w) → v.locate? trail' = some (address, w') → trail = trail'
  | [], [], _, _, _, _, _, _, _ => rfl
  | [], i :: trail', v, w, w', address, _, h, h' => by
    cases h
    obtain ⟨step, u, rest, -, -, he⟩ := locate?_cons.1 h'
    cases he
  | i :: trail, [], v, w, w', address, _, h, h' => by
    cases h'
    obtain ⟨step, u, rest, -, -, he⟩ := locate?_cons.1 h
    cases he
  | i :: trail, j :: trail', v, w, w', address, hv, h, h' => by
    -- both trails take the same step, and a step belongs to one part only
    obtain ⟨step, u, rest, hu, hw, rfl⟩ := locate?_cons.1 h
    obtain ⟨step', u', rest', hu', hw', he⟩ := locate?_cons.1 h'
    cases he
    obtain ⟨here, inside⟩ := everywhere_iff.1 hv
    have hij : i = j := by
      have hi : (v.children.map Prod.fst)[i]? = some step := by rw [List.getElem?_map, hu]; rfl
      have hj : (v.children.map Prod.fst)[j]? = some step := by rw [List.getElem?_map, hu']; rfl
      obtain ⟨hlt, -⟩ := List.getElem?_eq_some_iff.1 hi
      exact (List.getElem?_inj hlt (nodup_steps here)).1 (hi.trans hj.symm)
    subst hij
    cases hu.symm.trans hu'
    rw [trail_unique (inside _ (List.mem_of_getElem? hu)) hw hw']

end Value
end DocQuery
