import DocQuery.Pattern.Matching
import Mathlib.Data.List.Forall2
/-!
# Matching sets one after the other

Places are kept as the bits of a number, and a set of characters moves those in front of its characters one further
(`Overlay.testBit_advance`).  So a sequence of sets matches where a window of the text has a character of each
(`Regex.matchesIn_sequence`).
-/
namespace DocQuery

variable {text : List Char} {places : Places} {k : Nat}

theorem Places.testBit_ofBools : ∀ {bs : List Bool} {k : Nat}, (ofBools bs).testBit k = true ↔ bs[k]? = some true
  | [], k => by simp [ofBools]
  | b :: bs, 0 => by cases b <;> simp [ofBools]
  | b :: bs, k + 1 => by
    have hhalf : (2 * ofBools bs + b.toNat) / 2 = ofBools bs := by
      rw [Nat.mul_add_div Nat.two_pos, Nat.div_eq_of_lt (Bool.toNat_lt b), Nat.add_zero]
    rw [ofBools, Nat.testBit_succ, hhalf, testBit_ofBools, List.getElem?_cons_succ]

theorem testBit_allPlaces : (allPlaces text).testBit k = decide (k ≤ text.length) := by
  rw [allPlaces, Nat.pow_eq, Nat.testBit_two_pow_sub_one]
  exact decide_eq_decide.2 Nat.lt_succ_iff

theorem Overlay.testBit_advance {chars : CharSet} :
    (((Regex.set chars).over text).ends places).testBit k = true ↔
      ∃ front c back, text = front ++ c :: back ∧ places.testBit front.length = true ∧ chars c = true ∧
        k = front.length + 1 := by
  rw [Regex.over, ends, Nat.testBit_shiftLeft, Bool.and_eq_true, decide_eq_true_eq, Nat.testBit_and, Bool.and_eq_true,
    Places.testBit_ofBools, List.getElem?_map, Option.map_eq_some_iff]
  constructor
  · rintro ⟨hk, hplace, c, hget, hc⟩
    obtain ⟨hlt, rfl⟩ := List.getElem?_eq_some_iff.1 hget
    have hfront : (text.take (k - 1)).length = k - 1 := List.length_take_of_le (Nat.le_of_lt hlt)
    refine ⟨text.take (k - 1), text[k - 1], text.drop (k - 1 + 1), ?_, by rwa [hfront], hc, by omega⟩
    rw [← List.drop_eq_getElem_cons hlt, List.take_append_drop]
  · rintro ⟨front, c, back, rfl, hplace, hc, rfl⟩
    exact ⟨Nat.le_add_left _ _, hplace, c, by simp, hc⟩

namespace Regex

theorem testBit_ends_sequence (sets : List CharSet) (places : Places) :
    (((sequence (sets.map .set)).over text).ends places).testBit k = true ↔
      ∃ front window back, text = front ++ (window ++ back) ∧ places.testBit front.length = true ∧
        List.Forall₂ (fun chars c => chars c = true) sets window ∧ k = (front ++ window).length := by
  match sets with
  | [] =>
    rw [List.map_nil, sequence, Regex.over, Overlay.ends, Nat.testBit_and, testBit_allPlaces, Bool.and_eq_true,
      decide_eq_true_eq]
    constructor
    · rintro ⟨hplace, hk⟩
      have hfront : (text.take k).length = k := List.length_take_of_le hk
      exact ⟨text.take k, [], text.drop k, by simp, by rwa [hfront], .nil, by simpa using hfront.symm⟩
    · rintro ⟨front, window, back, rfl, hplace, hwindow, rfl⟩
      obtain rfl := List.forall₂_nil_left_iff.1 hwindow
      exact ⟨by simpa using hplace, by simp⟩
  | [chars] =>
    refine Overlay.testBit_advance.trans ⟨?_, ?_⟩
    · rintro ⟨front, c, back, htext, hplace, hc, rfl⟩
      exact ⟨front, [c], back, htext, hplace, .cons hc .nil, by simp⟩
    · rintro ⟨front, window, back, htext, hplace, hwindow, rfl⟩
      obtain ⟨c, rest, hc, hrest, rfl⟩ := List.forall₂_cons_left_iff.1 hwindow
      obtain rfl := List.forall₂_nil_left_iff.1 hrest
      exact ⟨front, c, back, htext, hplace, hc, by simp⟩
  | chars :: next :: sets =>
    have hrest := testBit_ends_sequence (next :: sets) (((Regex.set chars).over text).ends places)
    refine hrest.trans ⟨?_, ?_⟩
    · rintro ⟨front', window, back, htext, hend, hwindow, rfl⟩
      obtain ⟨front, c, back', htext', hplace, hc, hlength⟩ := Overlay.testBit_advance.1 hend
      -- the character of the first set is the last one in front of the rest
      have hsplit : (front ++ [c]) ++ back' = front' ++ (window ++ back) := by
        rw [← htext, htext', List.append_assoc, List.singleton_append]
      obtain ⟨rfl, rfl⟩ := List.append_inj hsplit (by simp [hlength])
      exact ⟨front, c :: window, back, by simpa using htext, hplace, .cons hc hwindow, by simp⟩
    · rintro ⟨front, window, back, htext, hplace, hwindow, rfl⟩
      obtain ⟨c, window, hc, hmore, rfl⟩ := List.forall₂_cons_left_iff.1 hwindow
      refine ⟨front ++ [c], window, back, by simpa using htext, ?_, hmore, by simp⟩
      exact Overlay.testBit_advance.2 ⟨front, c, window ++ back, by simpa using htext, hplace, hc, by simp⟩

/-- **A sequence of sets matches** a text with a window that has a character of each. -/
theorem matchesIn_sequence (sets : List CharSet) : (sequence (sets.map .set)).matchesIn text = true ↔
    ∃ window, window <:+: text ∧ List.Forall₂ (fun chars c => chars c = true) sets window := by
  rw [matchesIn, bne_iff_ne]
  constructor
  · intro hends
    obtain ⟨k, hk⟩ := Nat.exists_testBit_of_ne_zero hends
    obtain ⟨front, window, back, rfl, -, hwindow, -⟩ := (testBit_ends_sequence sets _).1 hk
    exact ⟨window, ⟨front, back, by simp⟩, hwindow⟩
  · rintro ⟨window, ⟨front, back, rfl⟩, hwindow⟩ hzero
    have hplace : (allPlaces (front ++ window ++ back)).testBit front.length = true := by
      rw [testBit_allPlaces, decide_eq_true_eq]
      simp only [List.length_append]
      omega
    have hend := (testBit_ends_sequence sets _).2 ⟨front, window, back, List.append_assoc _ _ _, hplace, hwindow, rfl⟩
    rw [hzero, Nat.zero_testBit] at hend
    cases hend

end Regex
end DocQuery
