import DocQuery.Proofs.Number.Places
import DocQuery.Proofs.Value.Written
import DocQuery.Value.Equality
import Mathlib.Data.List.Forall2
import Mathlib.Data.List.Nodup
import Mathlib.Data.List.Perm.Subperm
import Mathlib.Logic.Relation
/-!
# Equality up to the order of entries

Equality looks the parts of one value up in the other.  The steps to the parts of a value are all different, so as many
parts on both sides makes this the same in both directions (`eqv_comm`), and without floats, which are compared after
rounding, equality is transitive.  What it then leaves open is the order of entries and nothing else: equal values are
those that one gets from each other by reordering the entries of objects, at any depths (`eqv_up_to_order`).
-/
namespace DocQuery

theorem Scalar.eqv_comm (a b : Scalar) : a.eqv b = b.eqv a := by
  cases a <;> cases b <;> simp [eqv, Number.eqv_comm, Bool.beq_comm]

theorem Scalar.eq_of_eqv {a b : Scalar} (ha : Value.NotFloat (.scalar a)) (hb : Value.NotFloat (.scalar b))
    (h : a.eqv b = true) : a = b := by
  obtain rfl | ⟨m, n, rfl, rfl, hmn⟩ := eqv_cases h
  · rfl
  cases m with
  | float x => exact absurd ha id
  | integer i =>
    cases n with
    | float y => exact absurd hb id
    | integer j => rw [eq_of_beq (a := i) (b := j) hmn]

namespace Value

/-- **One object of a value, itself or one inside it, gets its entries in another order.** -/
inductive Reorders : Value → Value → Prop
  | here {es fs : Entries} (h : es.Perm fs) : Reorders (.object es) (.object fs)
  | item {front back : List Value} {v w : Value} (h : Reorders v w) :
    Reorders (.array (front ++ v :: back)) (.array (front ++ w :: back))
  | entry {front back : Entries} {key : String} {v w : Value} (h : Reorders v w) :
    Reorders (.object (front ++ (key, v) :: back)) (.object (front ++ (key, w) :: back))

/-- **Values of one kind with equal parts behind the same steps.** -/
structure Agree (v w : Value) : Prop where
  array : v.isArray = w.isArray
  object : v.isObject = w.isObject
  scalar : ∀ a b, v = .scalar a → w = .scalar b → a.eqv b = true
  length : v.children.length = w.children.length
  parts : ∀ p ∈ v.children, ∃ u, w.part? p.1 = some u ∧ p.2.eqv u = true

theorem mem_children_of_part? {v u : Value} {step : Step} (h : v.part? step = some u) : (step, u) ∈ v.children := by
  cases step with
  | key name =>
    cases v with
    | object entries => exact mem_children_object (Entries.mem_of_lookup h)
    | array items => cases h
    | scalar x => cases h
  | index i =>
    cases v with
    | array items => exact List.mem_map.2 ⟨(u, i), List.mem_zipIdx_iff_getElem?.2 h, rfl⟩
    | object entries => cases h
    | scalar x => cases h

/-! ## Equality read as agreement -/

theorem eqvItems_iff : ∀ {xs ys : List Value},
    eqvItems xs ys = true ↔ List.Forall₂ (fun v w => v.eqv w = true) xs ys
  | [], [] => by simp [eqvItems]
  | [], _ :: _ => by simp [eqvItems]
  | _ :: _, [] => by simp [eqvItems]
  | x :: xs, y :: ys => by rw [eqvItems, Bool.and_eq_true, eqvItems_iff, List.forall₂_cons]

theorem eqvEntries_iff : ∀ {es fs : List (String × Value)},
    eqvEntries es fs = true ↔ ∀ e ∈ es, ∃ w, fs.lookup e.1 = some w ∧ e.2.eqv w = true
  | [], fs => by simp [eqvEntries]
  | (key, v) :: es, fs => by
    rw [eqvEntries, Bool.and_eq_true, eqvEntries_iff, List.forall_mem_cons]
    cases fs.lookup key <;> simp

theorem agree_array_iff {xs ys : List Value} : (array xs).Agree (array ys) ↔
    List.Forall₂ (fun v w => v.eqv w = true) xs ys := by
  rw [List.forall₂_iff_get]
  constructor
  · intro h
    have hlength : xs.length = ys.length := by simpa [children] using h.length
    refine ⟨hlength, fun i hi hj => ?_⟩
    have hmem : (Step.index i, xs[i]) ∈ (array xs).children :=
      mem_children_of_part? (List.getElem?_eq_getElem hi)
    obtain ⟨u, hu, heqv⟩ := h.parts _ hmem
    rw [part?, item?, List.getElem?_eq_getElem hj] at hu
    cases hu
    exact heqv
  · rintro ⟨hlength, h⟩
    refine ⟨rfl, rfl, fun _ _ h => Value.noConfusion h, by simpa [children] using hlength, fun p hp => ?_⟩
    obtain ⟨⟨v, i⟩, hv, rfl⟩ := List.mem_map.1 hp
    have hget : xs[i]? = some v := List.mem_zipIdx_iff_getElem?.1 hv
    obtain ⟨hi, rfl⟩ := List.getElem?_eq_some_iff.1 hget
    have hj : i < ys.length := hlength ▸ hi
    exact ⟨ys[i], List.getElem?_eq_getElem hj, h i hi hj⟩

theorem agree_object_iff {es fs : Entries} : (object es).Agree (object fs) ↔
    es.length = fs.length ∧ ∀ e ∈ es, ∃ w, fs.lookup e.1 = some w ∧ e.2.eqv w = true := by
  constructor
  · intro h
    exact ⟨by simpa [children] using h.length, fun e he => h.parts _ (mem_children_object he)⟩
  · rintro ⟨hlength, h⟩
    refine ⟨rfl, rfl, fun _ _ h => Value.noConfusion h, by simpa [children] using hlength, fun p hp => ?_⟩
    obtain ⟨e, he, rfl⟩ := List.mem_map.1 hp
    exact h e he

/-- **Equal values are those that agree.** -/
theorem eqv_iff_agree {v w : Value} : v.eqv w = true ↔ v.Agree w := by
  cases v with
  | scalar a =>
    cases w with
    | scalar b =>
      rw [eqv]
      constructor
      · intro h
        refine ⟨rfl, rfl, ?_, rfl, List.forall_mem_nil _⟩
        rintro _ _ ⟨⟩ ⟨⟩
        exact h
      · exact fun h => h.scalar a b rfl rfl
    | array ys => exact iff_of_false Bool.false_ne_true fun h => absurd h.array Bool.false_ne_true
    | object fs => exact iff_of_false Bool.false_ne_true fun h => absurd h.object Bool.false_ne_true
  | array xs =>
    cases w with
    | scalar b => exact iff_of_false Bool.false_ne_true fun h => absurd h.array.symm Bool.false_ne_true
    | array ys => rw [eqv, eqvItems_iff, agree_array_iff]
    | object fs => exact iff_of_false Bool.false_ne_true fun h => absurd h.array.symm Bool.false_ne_true
  | object es =>
    cases w with
    | scalar b => exact iff_of_false Bool.false_ne_true fun h => absurd h.object.symm Bool.false_ne_true
    | array ys => exact iff_of_false Bool.false_ne_true fun h => absurd h.array Bool.false_ne_true
    | object fs => rw [eqv, Bool.and_eq_true, beq_iff_eq, eqvEntries_iff, agree_object_iff]

/-! ## An equivalence -/

theorem eqv_self {v : Value} (hu : v.Everywhere UniqueKeys) (hn : v.Everywhere NotNaN) : v.eqv v = true := by
  induction v using childInduction with
  | h v ih =>
    obtain ⟨hkeys, hu⟩ := everywhere_iff.1 hu
    obtain ⟨hnan, hn⟩ := everywhere_iff.1 hn
    refine eqv_iff_agree.2 ⟨rfl, rfl, ?_, rfl, fun p hp => ?_⟩
    · rintro a b rfl hb
      cases hb
      exact Scalar.eqv_self fun ha => hnan (by rw [ha]; rfl)
    · exact ⟨p.2, part?_of_mem_children hkeys hp, ih p hp (hu p hp) (hn p hp)⟩

theorem Agree.perm_steps {v w : Value} (hv : v.UniqueKeys) (h : v.Agree w) :
    (v.children.map Prod.fst).Perm (w.children.map Prod.fst) := by
  have hsub : v.children.map Prod.fst ⊆ w.children.map Prod.fst := by
    intro step hstep
    obtain ⟨p, hp, rfl⟩ := List.mem_map.1 hstep
    obtain ⟨u, hu, -⟩ := h.parts p hp
    exact List.mem_map.2 ⟨_, mem_children_of_part? hu, rfl⟩
  refine ((nodup_steps hv).subperm hsub).perm_of_length_le ?_
  rw [List.length_map, List.length_map, h.length]

theorem eqv_symm {v w : Value} (hv : v.Everywhere UniqueKeys) (hw : w.Everywhere UniqueKeys) (h : v.eqv w = true) :
    w.eqv v = true := by
  induction v using childInduction generalizing w with
  | h v ih =>
    obtain ⟨hkeys, hv⟩ := everywhere_iff.1 hv
    obtain ⟨hkeys', hw⟩ := everywhere_iff.1 hw
    have hagree := eqv_iff_agree.1 h
    refine eqv_iff_agree.2 ⟨hagree.array.symm, hagree.object.symm, fun b a hb ha => ?_, hagree.length.symm,
      fun p hp => ?_⟩
    · rw [Scalar.eqv_comm]
      exact hagree.scalar a b ha hb
    · -- the step to the part is taken on the other side too
      obtain ⟨q, hq, hstep⟩ := List.mem_map.1 ((hagree.perm_steps hkeys).mem_iff.2 (List.mem_map.2 ⟨p, hp, rfl⟩))
      obtain ⟨u, hu, heqv⟩ := hagree.parts q hq
      rw [hstep, part?_of_mem_children hkeys' hp] at hu
      cases hu
      exact ⟨q.2, hstep ▸ part?_of_mem_children hkeys hq, ih q hq (hv q hq) (hw p hp) heqv⟩

theorem eqv_comm {v w : Value} (hv : v.Everywhere UniqueKeys) (hw : w.Everywhere UniqueKeys) : v.eqv w = w.eqv v :=
  Bool.eq_iff_iff.2 ⟨eqv_symm hv hw, eqv_symm hw hv⟩

theorem eqv_trans {u v w : Value} (hu : u.Everywhere NotFloat) (hv : v.Everywhere NotFloat) (huv : u.eqv v = true)
    (hvw : v.eqv w = true) : u.eqv w = true := by
  induction u using childInduction generalizing v w with
  | h u ih =>
    obtain ⟨hfloat, hu⟩ := everywhere_iff.1 hu
    obtain ⟨hfloat', hv⟩ := everywhere_iff.1 hv
    have hagree := eqv_iff_agree.1 huv
    have hagree' := eqv_iff_agree.1 hvw
    refine eqv_iff_agree.2 ⟨hagree.array.trans hagree'.array, hagree.object.trans hagree'.object, ?_,
      hagree.length.trans hagree'.length, fun p hp => ?_⟩
    · rintro a c rfl rfl
      cases v with
      | array ys => cases hagree.array
      | object fs => cases hagree.object
      | scalar b =>
        rw [Scalar.eq_of_eqv hfloat hfloat' huv]
        exact hvw
    · obtain ⟨x, hx, hpx⟩ := hagree.parts p hp
      have hmem := mem_children_of_part? hx
      obtain ⟨y, hy, hxy⟩ := hagree'.parts _ hmem
      exact ⟨y, hy, ih p hp (hu p hp) (hv _ hmem) hpx hxy⟩

/-! ## Reordering -/

theorem Reorders.everywhere {P : Value → Prop}
    (hobject : ∀ {es fs : Entries}, es.keys.Perm fs.keys → P (object es) → P (object fs))
    (harray : ∀ {xs ys : List Value}, P (array xs) → P (array ys)) {v w : Value} (h : Reorders v w)
    (hv : v.Everywhere P) : w.Everywhere P := by
  induction h with
  | here hperm =>
    rw [everywhere_object] at hv ⊢
    exact ⟨hobject (hperm.map _) hv.1, fun e he => hv.2 e (hperm.mem_iff.2 he)⟩
  | item h ih =>
    simp only [everywhere_array, List.forall_mem_append, List.forall_mem_cons] at hv ⊢
    exact ⟨harray hv.1, hv.2.1, ih hv.2.2.1, hv.2.2.2⟩
  | entry h ih =>
    simp only [everywhere_object, List.forall_mem_append, List.forall_mem_cons] at hv ⊢
    exact ⟨hobject (by simp [Entries.keys]) hv.1, hv.2.1, ih hv.2.2.1, hv.2.2.2⟩

theorem Reorders.uniqueKeys {v w : Value} (h : Reorders v w) (hv : v.Everywhere UniqueKeys) :
    w.Everywhere UniqueKeys :=
  h.everywhere (fun hperm hkeys => hperm.nodup_iff.1 hkeys) (fun _ => trivial) hv

theorem Reorders.notFloat {v w : Value} (h : Reorders v w) (hv : v.Everywhere NotFloat) : w.Everywhere NotFloat :=
  h.everywhere (fun _ _ => trivial) (fun _ => trivial) hv

theorem Reorders.eqv {v w : Value} (h : Reorders v w) (hu : v.Everywhere UniqueKeys) (hn : v.Everywhere NotNaN) :
    v.eqv w = true := by
  have hw := h.uniqueKeys hu
  induction h with
  | @here es fs hperm =>
    rw [everywhere_object] at hu hn hw
    refine eqv_iff_agree.2 (agree_object_iff.2 ⟨hperm.length_eq, fun e he =>
      ⟨e.2, ?_, eqv_self (hu.2 e he) (hn.2 e he)⟩⟩)
    exact lookup_of_mem hw.1 (hperm.mem_iff.1 he)
  | @item front back v w h ih =>
    simp only [everywhere_array, List.forall_mem_append, List.forall_mem_cons] at hu hn hw
    have hfront : List.Forall₂ (fun v w => Value.eqv v w = true) front front :=
      List.forall₂_same.2 fun x hx => eqv_self (hu.2.1 x hx) (hn.2.1 x hx)
    have hback : List.Forall₂ (fun v w => Value.eqv v w = true) back back :=
      List.forall₂_same.2 fun x hx => eqv_self (hu.2.2.2 x hx) (hn.2.2.2 x hx)
    have hitem := ih hu.2.2.1 hn.2.2.1 hw.2.2.1
    exact eqv_iff_agree.2 (agree_array_iff.2 (List.rel_append hfront (.cons hitem hback)))
  | @entry front back key v w h ih =>
    simp only [everywhere_object, List.forall_mem_append, List.forall_mem_cons] at hu hn hw
    have hlookup : ∀ e ∈ front ++ (key, w) :: back, (front ++ (key, w) :: back).lookup e.1 = some e.2 :=
      fun e he => lookup_of_mem hw.1 he
    simp only [List.forall_mem_append, List.forall_mem_cons] at hlookup
    refine eqv_iff_agree.2 (agree_object_iff.2 ⟨by simp, ?_⟩)
    simp only [List.forall_mem_append, List.forall_mem_cons]
    exact ⟨fun e he => ⟨e.2, hlookup.1 e he, eqv_self (hu.2.1 e he) (hn.2.1 e he)⟩,
      ⟨w, hlookup.2.1, ih hu.2.2.1 hn.2.2.1 hw.2.2.1⟩,
      fun e he => ⟨e.2, hlookup.2.2 e he, eqv_self (hu.2.2.2 e he) (hn.2.2.2 e he)⟩⟩

theorem notNaN_of_notFloat {v : Value} (h : v.Everywhere NotFloat) : v.Everywhere NotNaN :=
  h.imp fun u hu hnan => by rw [hnan] at hu; exact hu

open Relation (ReflTransGen)

theorem eqv_of_reorders {v w : Value} (h : ReflTransGen Reorders v w) (hu : v.Everywhere UniqueKeys)
    (hf : v.Everywhere NotFloat) : v.eqv w = true := by
  induction h using ReflTransGen.head_induction_on with
  | refl => exact eqv_self hu (notNaN_of_notFloat hf)
  | head hstep _ ih =>
    have hone := hstep.eqv hu (notNaN_of_notFloat hf)
    exact eqv_trans hf (hstep.notFloat hf) hone (ih (hstep.uniqueKeys hu) (hstep.notFloat hf))

theorem reorders_parts {α : Type} (whole : List α → Value) {R : α → α → Prop}
    (hone : ∀ front a b back, R a b → ReflTransGen Reorders (whole (front ++ a :: back)) (whole (front ++ b :: back)))
    {xs ys : List α} (h : List.Forall₂ R xs ys) :
    ∀ front, ReflTransGen Reorders (whole (front ++ xs)) (whole (front ++ ys)) := by
  induction h with
  | nil => exact fun front => .refl
  | @cons x y xs ys hxy _ ih =>
    intro front
    have hrest := ih (front ++ [y])
    rw [List.append_assoc, List.append_assoc, List.singleton_append, List.singleton_append] at hrest
    exact (hone front x y xs hxy).trans hrest

theorem reorders_array {xs ys : List Value} (h : List.Forall₂ (ReflTransGen Reorders) xs ys) :
    ReflTransGen Reorders (array xs) (array ys) := by
  refine reorders_parts array (fun front v w back hvw => ?_) h []
  exact hvw.lift (fun v => array (front ++ v :: back)) fun _ _ => Reorders.item

theorem reorders_object {es fs : Entries}
    (h : List.Forall₂ (fun e f => e.1 = f.1 ∧ ReflTransGen Reorders e.2 f.2) es fs) :
    ReflTransGen Reorders (object es) (object fs) := by
  refine reorders_parts object ?_ h []
  rintro front ⟨key, v⟩ ⟨_, w⟩ back ⟨rfl, hvw⟩
  exact hvw.lift (fun v => object (front ++ (key, v) :: back)) fun _ _ => Reorders.entry

/-- **Entries in the order of another object** that has equal values under the same keys. -/
theorem exists_perm_of_lookup {R : Value → Value → Prop} {es fs : Entries} (hkeys : es.keys.Nodup)
    (hlength : es.length = fs.length) (h : ∀ e ∈ es, ∃ w, fs.lookup e.1 = some w ∧ R e.2 w) :
    ∃ gs : Entries, List.Forall₂ (fun e g => e.1 = g.1 ∧ R e.2 g.2) es gs ∧ gs.Perm fs := by
  let gs : Entries := es.map fun e => (e.1, (fs.lookup e.1).getD e.2)
  have hgs : gs.keys = es.keys := by simp [gs, Entries.keys]
  refine ⟨gs, ?_, ?_⟩
  · rw [List.forall₂_map_right_iff, List.forall₂_same]
    intro e he
    obtain ⟨w, hw, hR⟩ := h e he
    rw [hw]
    exact ⟨rfl, hR⟩
  · have hnodup : gs.Nodup := .of_map Prod.fst (hgs ▸ hkeys : gs.keys.Nodup)
    have hsub : gs ⊆ fs := by
      intro g hg
      obtain ⟨e, he, rfl⟩ := List.mem_map.1 hg
      obtain ⟨w, hw, -⟩ := h e he
      rw [hw]
      exact Entries.mem_of_lookup hw
    refine (hnodup.subperm hsub).perm_of_length_le ?_
    rw [List.length_map, hlength]

theorem reorders_of_eqv {v w : Value} (hu : v.Everywhere UniqueKeys) (hf : v.Everywhere NotFloat)
    (hf' : w.Everywhere NotFloat) (h : v.eqv w = true) : ReflTransGen Reorders v w := by
  induction v using childInduction generalizing w with
  | h v ih =>
    have hagree := eqv_iff_agree.1 h
    cases v with
    | scalar a =>
      cases w with
      | scalar b => rw [Scalar.eq_of_eqv (everywhere_scalar.1 hf) (everywhere_scalar.1 hf') h]
      | array ys => cases hagree.array
      | object fs => cases hagree.object
    | array xs =>
      cases w with
      | scalar b => cases hagree.array
      | object fs => cases hagree.array
      | array ys =>
        rw [everywhere_array] at hu hf hf'
        have hequal := agree_array_iff.1 hagree
        rw [List.forall₂_iff_get] at hequal
        refine reorders_array (List.forall₂_iff_get.2 ⟨hequal.1, fun i hi hj => ?_⟩)
        have hmem := List.getElem_mem hi
        obtain ⟨step, hstep⟩ := exists_mem_children_array hmem
        exact ih _ hstep (hu.2 _ hmem) (hf.2 _ hmem) (hf'.2 _ (List.getElem_mem hj)) (hequal.2 i hi hj)
    | object es =>
      cases w with
      | scalar b => cases hagree.object
      | array ys => cases hagree.object
      | object fs =>
        rw [everywhere_object] at hu hf hf'
        obtain ⟨hlength, hequal⟩ := agree_object_iff.1 hagree
        have hreorders : ∀ e ∈ es, ∃ w, fs.lookup e.1 = some w ∧ ReflTransGen Reorders e.2 w := by
          intro e he
          obtain ⟨u, hlookup, heqv⟩ := hequal e he
          have hfloat := hf'.2 _ (Entries.mem_of_lookup hlookup)
          exact ⟨u, hlookup, ih _ (mem_children_object he) (hu.2 e he) (hf.2 e he) hfloat heqv⟩
        obtain ⟨gs, hgs, hperm⟩ := exists_perm_of_lookup hu.1 hlength hreorders
        exact (reorders_object hgs).tail (.here hperm)

/-- **Equality of values ignores the order of entries and nothing else.**  On values without floats whose keys stand
once it is an equivalence, and equal are those that one gets from each other by reordering the entries of objects.
Without a not-a-number every value is equal to itself, and whichever of two values comes first makes no difference. -/
theorem eqv_up_to_order :
    Equivalence (fun v w : { v : Value // v.Everywhere UniqueKeys ∧ v.Everywhere NotFloat } => v.1.eqv w.1 = true) ∧
    (∀ v w : Value, v.Everywhere UniqueKeys → v.Everywhere NotFloat → w.Everywhere UniqueKeys → w.Everywhere NotFloat →
      (v.eqv w = true ↔ ReflTransGen Reorders v w)) ∧
    (∀ v : Value, v.Everywhere UniqueKeys → v.Everywhere NotNaN → v.eqv v = true) ∧
    ∀ v w : Value, v.Everywhere UniqueKeys → w.Everywhere UniqueKeys → v.eqv w = w.eqv v := by
  refine ⟨⟨fun v => ?_, fun {v w} h => ?_, fun {u v w} huv hvw => ?_⟩, fun v w hu hf _ hf' => ⟨?_, ?_⟩,
    fun v hu hn => eqv_self hu hn, fun v w hv hw => eqv_comm hv hw⟩
  · exact eqv_self v.2.1 (notNaN_of_notFloat v.2.2)
  · exact eqv_symm v.2.1 w.2.1 h
  · exact eqv_trans u.2.2 v.2.2 huv hvw
  · exact fun h => reorders_of_eqv hu hf hf' h
  · exact fun h => eqv_of_reorders h hu hf

/-- Objects inside each other that both have their entries in another order, and an array that has its elements in
another one. -/
theorem eqv_up_to_order_nested :
    let v : Value := .object [("a", .array [.object [("x", .integer 1), ("y", .null)], .string "z"]), ("b", .integer 2)]
    let w : Value := .object [("b", .integer 2), ("a", .array [.object [("y", .null), ("x", .integer 1)], .string "z"])]
    v.eqv w = true ∧ ReflTransGen Reorders v w ∧
    ¬ ReflTransGen Reorders (.array [.integer 1, .integer 2]) (.array [.integer 2, .integer 1]) ∧
    (Value.number (.float (.infinite false))).eqv (.number (.float (.infinite false))) = true := by
  intro v w
  obtain ⟨-, hiff, hself, -⟩ := eqv_up_to_order
  have heqv : v.eqv w = true := by decide
  refine ⟨heqv, (hiff v w ?_ ?_ ?_ ?_).1 heqv, ?_, hself _ ?_ ?_⟩
  · simp [v, UniqueKeys, Entries.keys, integer, number, string, null]
  · simp [v, NotFloat, integer, number, string, null]
  · simp [w, UniqueKeys, Entries.keys, integer, number, string, null]
  · simp [w, NotFloat, integer, number, string, null]
  · rw [← hiff _ _ (by simp [UniqueKeys, integer, number]) (by simp [NotFloat, integer, number])
      (by simp [UniqueKeys, integer, number]) (by simp [NotFloat, integer, number])]
    decide
  · simp [UniqueKeys, number]
  · simp [NotNaN, number]

end Value
end DocQuery
