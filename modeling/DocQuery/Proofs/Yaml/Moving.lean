import DocQuery.Proofs.Yaml.Sources
import DocQuery.Proofs.Yaml.WrittenLines
/-!
# Lines moved

Lines put further down and further right have their marks there (`marksOf_indented`).  Moved marks spell what they
spelled, also with marks behind them that stand to their left (`Spells.moved`), so a block is read the same wherever it
stands.
-/
namespace DocQuery.Yaml

open Reading (underItem underKey)

def Placed.moved (lines columns : Nat) (m : Placed) : Placed :=
  ⟨m.line + lines, m.column + columns, m.mark⟩

/-! ## Blocks -/

variable {portion : Portion} {ms rest tail : List Placed} {lines columns : Nat}

/-- The portion is spelled by the moved marks as well, and by no mark of the tail. -/
def Portion.Moves (lines columns : Nat) (tail : List Placed) : Portion → List Placed → List Placed → Prop
  | .value fits source, ms, rest => ∀ fits' : Placed → Bool, (∀ m, fits' (m.moved lines columns) = fits m) →
    (∀ m ∈ tail.head?, fits' m = false) →
    Spells (.value fits' source) (ms.map (Placed.moved lines columns) ++ tail)
      (rest.map (Placed.moved lines columns) ++ tail)
  | .entries column pairs, ms, rest =>
    Spells (.entries (column + columns) pairs) (ms.map (Placed.moved lines columns) ++ tail)
      (rest.map (Placed.moved lines columns) ++ tail)
  | .items column sources, ms, rest =>
    Spells (.items (column + columns) sources) (ms.map (Placed.moved lines columns) ++ tail)
      (rest.map (Placed.moved lines columns) ++ tail)

theorem underKey_moved (column : Nat) (m : Placed) :
    underKey (column + columns) (m.moved lines columns) = underKey column m := by
  have hcolumn : (m.column + columns == column + columns) = (m.column == column) := by
    rw [Bool.eq_iff_iff, beq_iff_eq, beq_iff_eq, Nat.add_right_cancel_iff]
  simp [underKey, Placed.moved, hcolumn]

theorem underItem_moved (column : Nat) (m : Placed) :
    underItem (column + columns) (m.moved lines columns) = underItem column m := by
  simp [underItem, Placed.moved]

theorem head?_moved {P : Placed → Prop} (hms : ∀ m ∈ ms.head?, P (m.moved lines columns))
    (htail : ∀ m ∈ tail.head?, P m) : ∀ m ∈ (ms.map (Placed.moved lines columns) ++ tail).head?, P m := by
  cases ms with
  | nil => exact htail
  | cons m ms =>
    rintro _ ⟨⟩
    exact hms m rfl

/-- **A block is spelled wherever it stands**, in front of whatever is to its left. -/
theorem Spells.moved (h : Spells portion ms rest) (htail : ∀ m ∈ tail.head?, m.column < columns) :
    portion.Moves lines columns tail ms rest := by
  -- moved columns are compared with each other as before, and the tail is to the left of them all
  have hkey : ∀ column, ∀ m ∈ tail.head?, underKey (column + columns) m = false := by
    intro column m hm
    have := htail m hm
    simp [underKey]
    omega
  have hitem : ∀ column, ∀ m ∈ tail.head?, underItem (column + columns) m = false := by
    intro column m hm
    have := htail m hm
    simp [underItem]
    omega
  have hleft : ∀ column, ∀ m ∈ tail.head?, m.column ≠ column + columns := by
    intro column m hm
    have := htail m hm
    omega
  induction h with
  | nothing h =>
    intro fits' hfits hstop
    refine .nothing (head?_moved (fun m hm => ?_) hstop)
    rw [hfits, h m hm]
  | text h ms =>
    intro fits' hfits _
    exact .text ((hfits _).trans h) _
  | sequence h hitems ih =>
    intro fits' hfits _
    exact .sequence ((hfits _).trans h) ih
  | mapping h hentries ih =>
    intro fits' hfits _
    exact .mapping ((hfits _).trans h) ih
  | noItem h =>
    refine .noItem (head?_moved (fun m hm hmark hcolumn => ?_) fun m hm _ => hleft _ m hm)
    exact h m hm hmark (Nat.add_right_cancel hcolumn)
  | item line hvalue hmore ihvalue ihmore =>
    exact .item _ (ihvalue _ (underItem_moved _) (hitem _)) ihmore
  | noEntry h =>
    refine .noEntry (head?_moved (fun m hm key text hmark hcolumn => ?_) fun m hm _ _ _ hc => absurd hc (hleft _ m hm))
    exact h m hm key text hmark (Nat.add_right_cancel hcolumn)
  | inline line hkey htext hmore ih => exact .inline _ hkey htext ih
  | following line hname hvalue hmore ihvalue ihmore =>
    exact .following _ hname (ihvalue _ (underKey_moved _) (hkey _)) ihmore

/-! ## Lines -/

def marksOf (number : Nat) : List (List Char) → List Placed × Option Nat
  | [] => ([], none)
  | raw :: rest =>
    match LineReading.ofText raw with
    | .blank => marksOf (number + 1) rest
    | .tabbed => ([], some number)
    | .content line => (line.placed number ++ (marksOf (number + 1) rest).1, (marksOf (number + 1) rest).2)

def LineReading.line? : LineReading → Option Line
  | .content line => some line
  | _ => none

def Unmarked (raw : List Char) : Prop :=
  ∀ line ∈ (LineReading.ofText raw).line?, isDocumentStart line = false ∧ isDocumentEnd line = false

instance : DecidablePred Unmarked := fun raw =>
  inferInstanceAs (Decidable (∀ line ∈ (LineReading.ofText raw).line?, _))

variable {number : Nat} {raw cs : List Char} {texts texts' : List (List Char)}

theorem content_eq_marksOf : ∀ {texts : List (List Char)} (number : Nat) (started : Bool),
    (∀ raw ∈ texts, Unmarked raw) → Reading.content number started texts = marksOf number texts
  | [], _, _, _ => rfl
  | raw :: texts, number, started, h => by
    obtain ⟨hraw, htexts⟩ := List.forall_mem_cons.1 h
    rw [Reading.content, marksOf]
    cases hr : LineReading.ofText raw with
    | blank => exact content_eq_marksOf (number + 1) started htexts
    | tabbed => rfl
    | content line =>
      obtain ⟨hstart, hend⟩ := hraw line (by rw [hr]; rfl)
      simp [hstart, hend, content_eq_marksOf (number + 1) true htexts]

theorem marksOf_append (texts' : List (List Char)) : ∀ (texts : List (List Char)) (number : Nat),
    marksOf number (texts ++ texts') =
      match (marksOf number texts).2 with
      | some halt => ((marksOf number texts).1, some halt)
      | none => ((marksOf number texts).1 ++ (marksOf (number + texts.length) texts').1,
          (marksOf (number + texts.length) texts').2)
  | [], _ => rfl
  | raw :: texts, number => by
    have hnumber : number + (raw :: texts).length = number + 1 + texts.length := by simp; omega
    have ih := marksOf_append texts' texts (number + 1)
    rw [hnumber, List.cons_append, marksOf, marksOf]
    cases LineReading.ofText raw with
    | blank => exact ih
    | tabbed => rfl
    | content line =>
      dsimp only
      rw [ih]
      cases (marksOf (number + 1) texts).2 <;> simp

/-! ## Indented lines -/

def LineReading.indented (columns : Nat) : LineReading → LineReading
  | .content line => .content ⟨line.column + columns, line.content⟩
  | reading => reading

theorem ofText_indented (columns : Nat) (raw : List Char) :
    LineReading.ofText (List.replicate columns ' ' ++ raw) = (LineReading.ofText raw).indented columns := by
  have hspaces : ∀ c ∈ List.replicate columns ' ', isIndentation c = true := by simp [isIndentation]
  unfold LineReading.ofText
  rw [uncommented_replicate]
  by_cases hnil : Text.trimEnd (uncommented true raw) = []
  · have hall : (List.replicate columns ' ' ++ uncommented true raw).all Text.isBlank = true := by
      rw [List.all_append, Text.trimEnd_eq_nil_iff.1 hnil]
      simp [Text.isBlank]
    rw [hnil, Text.trimEnd_eq_nil_iff.2 hall]
    rfl
  · rw [Text.trimEnd_append_of_ne_nil hnil]
    dsimp only
    rw [List.dropWhile_append_of_pos hspaces, List.takeWhile_append_of_pos hspaces]
    cases (Text.trimEnd (uncommented true raw)).dropWhile isIndentation with
    | nil => rfl
    | cons c cs =>
      have hcontains :
          (List.replicate columns ' ' ++ (Text.trimEnd (uncommented true raw)).takeWhile isIndentation).contains '\t' =
            ((Text.trimEnd (uncommented true raw)).takeWhile isIndentation).contains '\t' := by
        simp
      dsimp only
      rw [hcontains, List.length_append, List.length_replicate, Nat.add_comm columns]
      split <;> rfl

theorem marks_add (columns column : Nat) (cs : List Char) :
    marks (column + columns) cs = (marks column cs).map fun (c, mark) => (c + columns, mark) := by
  fun_induction marks column cs with
  | case1 => rfl
  | case2 => rfl
  | case3 column cs ih =>
    rw [Nat.add_right_comm] at ih
    rw [marks, ih]
    rfl
  | case4 column cs ih =>
    rw [Nat.add_right_comm] at ih
    exact ih
  | case5 column c cs hdash hitem hspace =>
    rw [marks]
    · rfl
    · exact hdash
    · exact hitem
    · exact hspace

theorem marksOf_indented (lines columns : Nat) : ∀ (texts : List (List Char)) (number : Nat),
    marksOf (number + lines) (texts.map (List.replicate columns ' ' ++ ·)) =
      ((marksOf number texts).1.map (Placed.moved lines columns), (marksOf number texts).2.map (· + lines))
  | [], _ => rfl
  | raw :: texts, number => by
    have ih := marksOf_indented lines columns texts (number + 1)
    rw [Nat.add_right_comm] at ih
    rw [List.map_cons, marksOf, ofText_indented, marksOf, ih]
    cases LineReading.ofText raw with
    | blank => rfl
    | tabbed => rfl
    | content line =>
      have hplaced : Line.placed (number + lines) ⟨line.column + columns, line.content⟩ =
          (line.placed number).map (Placed.moved lines columns) := by
        rw [Line.placed, Line.placed, Line.marks, marks_add, List.map_map, List.map_map]
        rfl
      dsimp only [LineReading.indented]
      rw [hplaced, List.map_append]

end DocQuery.Yaml
