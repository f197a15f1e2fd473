import DocQuery.Json.Writer
import DocQuery.Proofs.Number.Text
import DocQuery.Proofs.Value.Parts
/-!
# Places in JSON text

The text of a value holds the text of each value inside it, at a place that does not depend on what stands there: another
value at the end of the trail changes the text at that place only (`write_replaceAt`).  A null is written for the null and
for the numbers that have no text (`write_eq_null_iff`), so a null is at the places of these and at no other
(`nullAt_iff`).
-/
namespace DocQuery

variable {v w : Value} {trail : Trail} {address : Address} {spacing : Json.Spacing} {d : Nat}

/-- The value with another one at the end of a trail.  A trail that leads nowhere changes nothing. -/
def Value.replaceAt : Value → Trail → Value → Value
  | _, [], u => u
  | .array items, i :: trail, u => .array (items.modify i fun v => v.replaceAt trail u)
  | .object entries, i :: trail, u => .object (entries.modify i fun e => (e.1, e.2.replaceAt trail u))
  | .scalar x, _ :: _, _ => .scalar x

namespace Json

/-- **A null stands at the place of a trail**: what is written in front of it and behind it is written there whatever
value is at the end of the trail. -/
def NullAt (spacing : Spacing) (v : Value) (trail : Trail) : Prop :=
  ∃ before after depth, write spacing 0 v = before ++ "null".toList ++ after ∧
    ∀ u, write spacing 0 (v.replaceAt trail u) = before ++ write spacing depth u ++ after

/-! ## Parts of containers -/

theorem writeItems_append (spacing : Spacing) (d : Nat) : ∀ vs us : List Value,
    writeItems spacing d (vs ++ us) = writeItems spacing d vs ++ writeItems spacing d us
  | [], us => rfl
  | v :: vs, us => by
    rw [List.cons_append, writeItems, writeItems, writeItems_append spacing d vs us]
    simp only [List.append_assoc, List.cons_append]

theorem writeEntries_append (spacing : Spacing) (d : Nat) : ∀ es fs : List (String × Value),
    writeEntries spacing d (es ++ fs) = writeEntries spacing d es ++ writeEntries spacing d fs
  | [], fs => rfl
  | (key, v) :: es, fs => by
    rw [List.cons_append, writeEntries, writeEntries, writeEntries_append spacing d es fs]
    simp only [List.append_assoc, List.cons_append]

theorem exists_write_array (spacing : Spacing) (d : Nat) (front back : List Value) : ∃ before after, ∀ v,
    write spacing d (.array (front ++ v :: back)) = before ++ write spacing (d + 1) v ++ after := by
  cases front with
  | nil =>
    refine ⟨'[' :: spacing.gap (d + 1), writeItems spacing (d + 1) back ++ spacing.gap d ++ [']'], fun v => ?_⟩
    rw [List.nil_append, write]
    simp only [List.append_assoc, List.cons_append]
  | cons u front =>
    refine ⟨'[' :: (spacing.gap (d + 1) ++ write spacing (d + 1) u ++ writeItems spacing (d + 1) front ++
      ',' :: spacing.gap (d + 1)), writeItems spacing (d + 1) back ++ spacing.gap d ++ [']'], fun v => ?_⟩
    rw [List.cons_append, write, writeItems_append, writeItems]
    simp only [List.append_assoc, List.cons_append]

theorem exists_write_object (spacing : Spacing) (d : Nat) (key : String) (front back : List (String × Value)) :
    ∃ before after, ∀ v,
      write spacing d (.object (front ++ (key, v) :: back)) = before ++ write spacing (d + 1) v ++ after := by
  cases front with
  | nil =>
    refine ⟨'{' :: (spacing.gap (d + 1) ++ stringText key ++ spacing.colon),
      writeEntries spacing (d + 1) back ++ spacing.gap d ++ ['}'], fun v => ?_⟩
    rw [List.nil_append, write]
    simp only [List.append_assoc, List.cons_append]
  | cons e front =>
    obtain ⟨k, u⟩ := e
    refine ⟨'{' :: (spacing.gap (d + 1) ++ stringText k ++ spacing.colon ++ write spacing (d + 1) u ++
      writeEntries spacing (d + 1) front ++ ',' :: (spacing.gap (d + 1) ++ stringText key ++ spacing.colon)),
      writeEntries spacing (d + 1) back ++ spacing.gap d ++ ['}'], fun v => ?_⟩
    rw [List.cons_append, write, writeEntries_append, writeEntries]
    simp only [List.append_assoc, List.cons_append]

/-! ## Places -/

theorem exists_split_modify {α : Type} {xs : List α} {i : Nat} {x : α} (h : xs[i]? = some x) :
    ∃ front back, xs = front ++ x :: back ∧ ∀ f : α → α, xs.modify i f = front ++ f x :: back := by
  obtain ⟨hlt, rfl⟩ := List.getElem?_eq_some_iff.1 h
  refine ⟨xs.take i, xs.drop (i + 1), ?_, fun f => ?_⟩
  · rw [← List.drop_eq_getElem_cons hlt, List.take_append_drop]
  · exact List.modify_eq_take_cons_drop hlt

/-- **A value stands at one place in the text**, and another value at the end of the trail stands there as well. -/
theorem write_replaceAt : ∀ {trail : Trail} {v : Value} {d : Nat} {address : Address},
    v.locate? trail = some (address, w) → ∃ before after depth,
      write spacing d v = before ++ write spacing depth w ++ after ∧
      ∀ u, write spacing d (v.replaceAt trail u) = before ++ write spacing depth u ++ after
  | [], v, d, address, h => by
    cases h
    exact ⟨[], [], d, by simp, fun u => by simp [Value.replaceAt]⟩
  | i :: trail, v, d, address, h => by
    obtain ⟨step, part, rest, hpart, hrest, -⟩ := Value.locate?_cons.1 h
    obtain ⟨before, after, depth, hwritten, hreplaced⟩ := @write_replaceAt trail part (d + 1) rest hrest
    -- the text of the part is framed by the text of the container around it
    have hframe : ∃ before' after', write spacing d v = before' ++ write spacing (d + 1) part ++ after' ∧
        ∀ u, write spacing d (v.replaceAt (i :: trail) u) =
          before' ++ write spacing (d + 1) (part.replaceAt trail u) ++ after' := by
      cases v with
      | scalar x => cases hpart
      | array items =>
        have hitem : items[i]? = some part := by
          rw [Value.children, List.getElem?_map, List.getElem?_zipIdx, Option.map_map] at hpart
          obtain ⟨item, hitem, he⟩ := Option.map_eq_some_iff.1 hpart
          cases he
          exact hitem
        obtain ⟨front, back, hitems, hmodify⟩ := exists_split_modify hitem
        obtain ⟨before', after', hframe⟩ := exists_write_array spacing d front back
        refine ⟨before', after', ?_, fun u => ?_⟩
        · rw [hitems, hframe]
        · rw [Value.replaceAt, hmodify, hframe]
      | object entries =>
        rw [Value.children, List.getElem?_map] at hpart
        obtain ⟨⟨key, v⟩, hentry, he⟩ := Option.map_eq_some_iff.1 hpart
        cases he
        obtain ⟨front, back, hentries, hmodify⟩ := exists_split_modify hentry
        obtain ⟨before', after', hframe⟩ := exists_write_object spacing d key front back
        refine ⟨before', after', ?_, fun u => ?_⟩
        · rw [hentries, hframe]
        · rw [Value.replaceAt, hmodify, hframe]
    obtain ⟨before', after', hwritten', hreplaced'⟩ := hframe
    refine ⟨before' ++ before, after ++ after', depth, ?_, fun u => ?_⟩
    · rw [hwritten', hwritten]
      simp only [List.append_assoc]
    · rw [hreplaced', hreplaced]
      simp only [List.append_assoc]

/-! ## Nulls -/

theorem numberText_eq_null_iff {n : Number} : numberText n = "null".toList ↔ n.isFinite = false := by
  have hletter : ∀ {cs : List Char}, (∀ c ∈ cs, Scalar.isNumeral c = true) → cs ≠ "null".toList := by
    rintro cs hcs rfl
    exact absurd (hcs 'n' (by decide)) (by decide)
  cases n with
  | integer i => exact iff_of_false (hletter fun c hc => Number.isNumeral_of_mem_integerText hc) nofun
  | float x =>
    cases x with
    | nan => exact iff_of_true rfl rfl
    | infinite n => exact iff_of_true rfl rfl
    | finite n r => exact iff_of_false (hletter fun c hc => Layout.isNumeral_of_mem_finiteText hc) nofun

theorem write_eq_null_iff : write spacing d v = "null".toList ↔
    v = .scalar .null ∨ ∃ n, v = .scalar (.number n) ∧ n.isFinite = false := by
  cases v with
  | scalar x =>
    rw [write]
    cases x with
    | null => exact iff_of_true rfl (.inl rfl)
    | boolean b => cases b <;> simp [scalarText]
    | number n => simpa [scalarText] using @numberText_eq_null_iff n
    | string s => simp [scalarText, stringText]
  | array items => cases items <;> simp [write]
  | object entries => cases entries <;> simp [write]

/-- **A null stands at the place of a value** if the value is the null or a number that is not finite. -/
theorem nullAt_iff (h : v.locate? trail = some (address, w)) : NullAt spacing v trail ↔
    w = .scalar .null ∨ ∃ n, w = .scalar (.number n) ∧ n.isFinite = false := by
  obtain ⟨before, after, depth, hwritten, hreplaced⟩ := @write_replaceAt w spacing trail v 0 address h
  constructor
  · rintro ⟨before', after', depth', hnull, hreplaced'⟩
    have hplace : before' ++ write spacing depth' w ++ after' = before' ++ "null".toList ++ after' := by
      rw [← hnull, ← hreplaced' w, hreplaced w, hwritten]
    exact write_eq_null_iff.1 (List.append_cancel_left (List.append_cancel_right hplace))
  · intro hw
    exact ⟨before, after, depth, by rw [hwritten, write_eq_null_iff.2 hw], hreplaced⟩

end Json
end DocQuery
