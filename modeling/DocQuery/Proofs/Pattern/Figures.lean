import DocQuery.Pattern.Parser
import DocQuery.Proofs.Number.Text
import DocQuery.Proofs.Pattern.Windows
/-!
# The texts of numbers as patterns

In the text of a number without an exponent every character is a pattern of its own: the point stands for any character
but a newline, and all others for themselves.  So the pattern matches where a window of the same length has the same
characters, but for the points (`Pattern.isMatch_iff`), and two such texts whose patterns match each other are the same
(`Pattern.figures_inj`).
-/
namespace DocQuery

open Scalar (isFigure)

variable {c : Char} {cs text : List Char}

def figureSet (c : Char) : CharSet :=
  if c = '.' then (Pattern.Flags.initial false).dot else .single c

theorem figureSet_iff {d : Char} : figureSet c d = true ↔ if c = '.' then d ≠ '\n' else d = c := by
  unfold figureSet
  split <;> simp [Pattern.Flags.dot, Pattern.Flags.initial, CharSet.single]

theorem figureSet_antisymm {d : Char} (hcd : figureSet c d = true) (hdc : figureSet d c = true) : c = d := by
  rw [figureSet_iff] at hcd hdc
  by_cases hc : c = '.'
  · by_cases hd : d = '.'
    · rw [hc, hd]
    · rwa [if_neg hd] at hdc
  · rw [if_neg hc] at hcd
    exact hcd.symm

theorem figureSet_self (hc : isFigure c = true) : figureSet c c = true := by
  rw [figureSet_iff]
  split
  · rintro rfl
    cases hc
  · rfl

namespace Pattern

def figurePiece (c : Char) : Piece :=
  ⟨.set (figureSet c), 0⟩

theorem skip_initial (cs : List Char) : (Flags.initial false).skip cs = cs := rfl

theorem repetition?_figure {flags : Flags} (hc : isFigure c = true) : repetition? flags (c :: cs) = none := by
  unfold repetition?
  split
  all_goals first | rfl | (rename_i heq; cases heq; cases hc)

theorem primitive_figure (hc : isFigure c = true) :
    primitive (.initial false) (c :: cs) = some (.set (figureSet c), cs) := by
  by_cases hpoint : c = '.'
  · subst hpoint
    rfl
  rw [figureSet, if_neg hpoint]
  unfold primitive
  split
  case h_6 heq =>
    cases heq
    rfl
  all_goals
    rename_i heq
    cases heq
  all_goals first | exact absurd rfl hpoint | cases hc

theorem expression_figure {fuel : Nat} {scan : Scan} (hscan : scan.flags = .initial false) (hc : isFigure c = true) :
    expression (fuel + 1) scan (c :: cs) = expression fuel (scan.add (.set (figureSet c)) 0) cs := by
  rw [expression, hscan, skip_initial]
  split
  case h_6 =>
    rw [repetition?_figure hc, primitive_figure hc]
    rfl
  all_goals
    rename_i heq
    cases heq
  all_goals cases hc

theorem expression_figures : ∀ {cs : List Char} {fuel : Nat} {scan : Scan}, scan.flags = .initial false →
    (∀ c ∈ cs, isFigure c = true) → cs.length < fuel → expression fuel scan cs =
      some ({ scan with parts := (cs.map (some ∘ figurePiece)).reverse ++ scan.parts }.close, scan.names, [])
  | [], fuel + 1, scan, hscan, _, _ => by
    rw [expression, hscan, skip_initial]
    rfl
  | c :: cs, fuel + 1, scan, hscan, hcs, hfuel => by
    obtain ⟨hc, hcs⟩ := List.forall_mem_cons.1 hcs
    have hadd : (scan.add (.set (figureSet c)) 0).flags = .initial false := hscan
    rw [expression_figure hscan hc, expression_figures hadd hcs (Nat.lt_of_succ_lt_succ hfuel)]
    simp [Scan.add, figurePiece]

theorem regex?_figures {regex : Regex} (hcs : ∀ c ∈ cs, isFigure c = true) (h : regex? false cs = some regex) :
    regex = .sequence ((cs.map figureSet).map .set) := by
  have hclose : Piece.regex (Scan.close
      { Scan.start (.initial false) [] with parts := (cs.map (some ∘ figurePiece)).reverse ++ [] }) =
      .sequence ((cs.map figureSet).map .set) := by
    simp [Scan.close, Scan.alternative, Scan.start, Regex.choice, figurePiece, Function.comp_def]
  unfold regex? at h
  rw [expression_figures rfl hcs (Nat.lt_succ_self _)] at h
  dsimp only [Option.bind_eq_bind, Option.bind_some] at h
  split at h
  · cases h
    exact hclose
  · cases h

variable {s t text : String} {p q : Pattern}

/-- **Where the pattern of a number matches**: at a window of the text with a character for each of its own. -/
theorem isMatch_iff (hs : ∀ c ∈ s.toList, isFigure c = true) (hp : compile? false s = some p) :
    p.isMatch text = true ↔
      ∃ window, window <:+: text.toList ∧ List.Forall₂ (fun c d => figureSet c d = true) s.toList window := by
  obtain ⟨regex, hregex, rfl⟩ := Option.map_eq_some_iff.1 hp
  rw [regex?_figures hs hregex]
  dsimp only
  rw [Regex.matchesIn_sequence]
  simp only [List.forall₂_map_left_iff]

theorem isMatch_self (hs : ∀ c ∈ s.toList, isFigure c = true) (hp : compile? false s = some p) : p.isMatch s = true :=
  (isMatch_iff hs hp).2 ⟨s.toList, List.infix_refl _, List.forall₂_same.2 fun c hc => figureSet_self (hs c hc)⟩

theorem length_le_of_isMatch (hs : ∀ c ∈ s.toList, isFigure c = true) (hp : compile? false s = some p)
    (h : p.isMatch text = true) : s.toList.length ≤ text.toList.length := by
  obtain ⟨window, hpart, hwindow⟩ := (isMatch_iff hs hp).1 h
  rw [hwindow.length_eq]
  exact hpart.length_le

theorem forall₂_of_isMatch (hs : ∀ c ∈ s.toList, isFigure c = true) (hp : compile? false s = some p)
    (h : p.isMatch text = true) (hlength : text.toList.length ≤ s.toList.length) :
    List.Forall₂ (fun c d => figureSet c d = true) s.toList text.toList := by
  obtain ⟨window, hpart, hwindow⟩ := (isMatch_iff hs hp).1 h
  rw [hwindow.length_eq] at hlength
  rwa [hpart.eq_of_length_le hlength] at hwindow

/-- **Numbers whose patterns match each other** have the same text: where one has a point, so has the other. -/
theorem figures_inj (hs : ∀ c ∈ s.toList, isFigure c = true) (ht : ∀ c ∈ t.toList, isFigure c = true)
    (hp : compile? false s = some p) (hq : compile? false t = some q) (hpt : p.isMatch t = true)
    (hqs : q.isMatch s = true) : s = t := by
  have hst := forall₂_of_isMatch hs hp hpt (length_le_of_isMatch ht hq hqs)
  have hts := forall₂_of_isMatch ht hq hqs (length_le_of_isMatch hs hp hpt)
  have hboth : List.Forall₂ (fun c d => figureSet d c = true) s.toList t.toList := .flip hts
  rw [← String.toList_inj, ← List.forall₂_eq_eq_eq]
  exact hst.mp (fun c d => figureSet_antisymm) hboth

end Pattern
end DocQuery
