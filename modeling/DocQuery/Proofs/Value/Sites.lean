import DocQuery.Proofs.Value.Parts
/-!
# Where something stands in a value

A reading that gives something of some values gives it at sites: each has the trail and the address of the value, and
what was read there.  The sites of a value are all the places where the reading gives something (`mem_sites`), in document
order (`pairwise_sites`).
-/
namespace DocQuery

/-- **Something inside a value**: where it stands and what it is. -/
structure Site (α : Type) where
  trail : Trail
  address : Address
  content : α

def Site.under {α : Type} (i : Nat) (step : Step) (s : Site α) : Site α :=
  ⟨i :: s.trail, step :: s.address, s.content⟩

namespace Value

variable {α : Type}

/-- The sites of a value at which a reading gives something: itself if it does, or those of its parts. -/
def sites (read? : Value → Option α) (v : Value) : List (Site α) :=
  ((read? v).map (Site.mk [] [])).toList ++
    v.children.zipIdx.attach.flatMap fun ⟨p, _⟩ => (p.1.2.sites read?).map (.under p.2 p.1.1)
termination_by v
decreasing_by exact sizeOf_lt_of_mem_children (List.fst_mem_of_mem_zipIdx ‹_›)

def innerSites (read? : Value → Option α) (v : Value) : List (Site α) :=
  v.children.zipIdx.flatMap fun p => (p.1.2.sites read?).map (.under p.2 p.1.1)

theorem sites_eq (read? : Value → Option α) (v : Value) :
    v.sites read? = ((read? v).map (Site.mk [] [])).toList ++ v.innerSites read? := by
  rw [sites, innerSites]
  congr 1
  rw [List.flatMap_subtype (g := fun p => (p.1.2.sites read?).map (.under p.2 p.1.1)) fun _ _ => rfl,
    List.unattach_attach]

/-- **The sites are where trails lead to values that the reading gives something of.** -/
theorem mem_sites {read? : Value → Option α} (v : Value) : ∀ s : Site α,
    s ∈ v.sites read? ↔ ∃ w, v.locate? s.trail = some (s.address, w) ∧ read? w = some s.content := by
  induction v using childInduction with
  | h v ih =>
    rintro ⟨trail, address, x⟩
    rw [sites_eq, List.mem_append]
    cases trail with
    | nil =>
      have hinside : ⟨[], address, x⟩ ∉ v.innerSites read? := by simp [innerSites, Site.under]
      simp only [hinside, or_false, Option.mem_toList, Option.map_eq_some_iff, locate?]
      constructor
      · rintro ⟨x', hx, he⟩
        cases he
        exact ⟨v, rfl, hx⟩
      · rintro ⟨w, hw, hx⟩
        cases hw
        exact ⟨x, hx, rfl⟩
    | cons i trail =>
      have hhere : ⟨i :: trail, address, x⟩ ∉ ((read? v).map (Site.mk [] [])).toList := by simp
      simp only [hhere, false_or, innerSites, List.mem_flatMap, List.mem_map, locate?_cons]
      constructor
      · rintro ⟨⟨⟨step, u⟩, j⟩, hp, ⟨trail', rest, x'⟩, hs, he⟩
        cases he
        have hu := List.mem_zipIdx_iff_getElem?.1 hp
        obtain ⟨w, hw, hx⟩ := (ih _ (List.mem_of_getElem? hu) _).1 hs
        exact ⟨w, ⟨step, u, rest, hu, hw, rfl⟩, hx⟩
      · rintro ⟨w, ⟨step, u, rest, hu, hw, rfl⟩, hx⟩
        exact ⟨((step, u), i), List.mem_zipIdx_iff_getElem?.2 hu, ⟨trail, rest, x⟩,
          (ih _ (List.mem_of_getElem? hu) _).2 ⟨w, hw, hx⟩, rfl⟩

theorem pairwise_sites (read? : Value → Option α) (v : Value) :
    (v.sites read?).Pairwise fun s t => s.trail < t.trail := by
  induction v using childInduction with
  | h v ih =>
    have hzip : v.children.zipIdx.Pairwise fun p q => p.2 < q.2 := by
      have := List.pairwise_lt_range' (s := 0) (n := v.children.length)
      rwa [← List.zipIdx_map_snd, List.pairwise_map] at this
    have hinside : (v.innerSites read?).Pairwise fun s t => s.trail < t.trail := by
      rw [innerSites, List.pairwise_flatMap]
      refine ⟨fun p hp => ?_, hzip.imp fun {p q} hlt s hs t ht => ?_⟩
      · rw [List.pairwise_map]
        exact (ih _ (List.fst_mem_of_mem_zipIdx hp)).imp fun h => List.cons_lt_cons_iff.2 (.inr ⟨rfl, h⟩)
      · obtain ⟨s', -, rfl⟩ := List.mem_map.1 hs
        obtain ⟨t', -, rfl⟩ := List.mem_map.1 ht
        exact List.cons_lt_cons_iff.2 (.inl hlt)
    rw [sites_eq]
    cases read? v with
    | none => exact hinside
    | some x =>
      -- the value itself is in front of what is inside it
      refine List.pairwise_cons.2 ⟨fun s hs => ?_, hinside⟩
      obtain ⟨p, -, hs⟩ := List.mem_flatMap.1 hs
      obtain ⟨s', -, rfl⟩ := List.mem_map.1 hs
      exact List.nil_lt_cons _ _

theorem map_content_sites {read? : Value → Option α} {walk : Value → List α}
    (hwalk : ∀ v, walk v = (read? v).toList ++ v.children.flatMap fun p => walk p.2) (v : Value) :
    (v.sites read?).map Site.content = walk v := by
  induction v using childInduction with
  | h v ih =>
    have hparts : (v.innerSites read?).map Site.content = v.children.flatMap fun p => walk p.2 := by
      -- the sites number the parts and the walk does not
      conv => rhs; rw [← List.zipIdx_map_fst 0 v.children, List.flatMap_map]
      rw [innerSites, List.map_flatMap, List.flatMap_def, List.flatMap_def]
      refine congrArg List.flatten (List.map_congr_left fun p hp => ?_)
      rw [← ih _ (List.fst_mem_of_mem_zipIdx hp), List.map_map]
      rfl
    rw [sites_eq, hwalk, List.map_append, hparts]
    congr 1
    cases read? v <;> rfl

/-- **Such a walk gives what is read at all places** where something is, each once and in document order. -/
theorem exists_trails {read? : Value → Option α} {walk : Value → List α}
    (hwalk : ∀ v, walk v = (read? v).toList ++ v.children.flatMap fun p => walk p.2) (v : Value) :
    ∃ trails : List Trail,
      (∀ t, t ∈ trails ↔ ∃ address w x, v.locate? t = some (address, w) ∧ read? w = some x) ∧
      trails.Pairwise (· < ·) ∧
      (walk v).map some = trails.map fun t => (v.locate? t).bind fun p => read? p.2 := by
  refine ⟨(v.sites read?).map Site.trail, fun t => ?_, ?_, ?_⟩
  · simp only [List.mem_map, v.mem_sites]
    constructor
    · rintro ⟨s, ⟨w, hw, hx⟩, rfl⟩
      exact ⟨s.address, w, s.content, hw, hx⟩
    · rintro ⟨address, w, x, hw, hx⟩
      exact ⟨⟨t, address, x⟩, ⟨w, hw, hx⟩, rfl⟩
  · rw [List.pairwise_map]
    exact v.pairwise_sites read?
  · rw [← map_content_sites hwalk, List.map_map, List.map_map]
    refine List.map_congr_left fun s hs => ?_
    obtain ⟨w, hw, hx⟩ := (v.mem_sites s).1 hs
    simp [hw, hx]

end Value
end DocQuery
