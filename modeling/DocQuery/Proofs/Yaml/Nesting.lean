import DocQuery.Decode
import DocQuery.Proofs.Yaml.BareKeys
import DocQuery.Proofs.Yaml.Moving
import DocQuery.Proofs.Yaml.Noise
import DocQuery.Proofs.Yaml.Resumption
import Mathlib.Data.List.Forall2
/-!
# Documents inside documents

Texts are put under keys, or behind dashes, with spaces in front of their lines (`nested`).  What follows a heading is
read as the text by itself is (`Part.value_lines`), so the whole is a mapping or a sequence of the values of the texts,
and if one of them is at fault, so is the whole, on the same line.
-/
namespace DocQuery
namespace Yaml

open Reading (verdict)

/-- **A text to be put into another one**, with so many spaces in front of its lines.  Something is on its lines, but
neither the start nor the end of a document. -/
structure Part where
  shift : Nat
  text : String
  shift_pos : 1 ≤ shift
  content : ∃ raw ∈ Text.lines text.toList, LineReading.ofText raw ≠ .blank
  unmarked : ∀ raw ∈ Text.lines text.toList, Unmarked raw

def Part.lines (part : Part) : List (List Char) :=
  (Text.lines part.text.toList).map (List.replicate part.shift ' ' ++ ·)

/-- **What stands in front of each part**: its key, or the dash of an item. -/
inductive Heading where
  | key
  | item

def Heading.line : Heading → String → List Char
  | .key, name => name.toList ++ [':']
  | .item, _ => ['-']

def nestedLines (heading : Heading) (parts : List (String × Part)) : List (List Char) :=
  parts.flatMap fun (name, part) => heading.line name :: part.lines

/-- The text of the parts, each behind its heading. -/
def nested (heading : Heading) (parts : List (String × Part)) : String :=
  String.ofList ((nestedLines heading parts).flatMap (· ++ ['\n']))

def Heading.value : Heading → List (String × Value) → Value
  | .key, pairs => .object pairs
  | .item, pairs => .array (pairs.map Prod.snd)

/-- The parts can stand behind such headings: the keys are bare and different, and a sequence has an item. -/
def Heading.Admits : Heading → List (String × Part) → Prop
  | .key, parts => (parts.map Prod.fst).Nodup ∧ ∀ p ∈ parts, BareKey p.1.toList
  | .item, parts => parts ≠ []

/-! ## Headings -/

namespace Heading

def mark : Heading → String → Mark
  | .key, name => .entry name.toList []
  | .item, _ => .item

def block : Heading → List (String × Value) → Block
  | .key, pairs => .mapping 0 (Entries.ofPairs pairs) none
  | .item, pairs => .sequence 0 (pairs.map Prod.snd) false

def waiting : Heading → List (String × Value) → String → Waiting
  | .key, pairs, name => .key 0 (Entries.ofPairs pairs) name
  | .item, pairs, _ => .item 0 (pairs.map Prod.snd)

def Bears : Heading → String → Prop
  | .key, name => BareKey name.toList
  | .item, _ => True

variable {heading : Heading} {name : String} {parts : List (String × Part)} {pairs : List (String × Value)}
  {values : List Value} {ms : List Placed}

theorem Admits.bears (h : heading.Admits parts) : ∀ p ∈ parts, heading.Bears p.1 := by
  cases heading with
  | key => exact h.2
  | item => exact fun _ _ => trivial

theorem Admits.value_block (h : heading.Admits parts) (hlength : parts.length = values.length) :
    (heading.block ((parts.map Prod.fst).zip values)).value = heading.value ((parts.map Prod.fst).zip values) := by
  cases heading with
  | item => rfl
  | key =>
    have hkeys : Entries.keys ((parts.map Prod.fst).zip values) = parts.map Prod.fst :=
      List.map_fst_zip (by rw [List.length_map, hlength])
    have hpairs : Entries.ofPairs ((parts.map Prod.fst).zip values) = (parts.map Prod.fst).zip values := by
      refine Entries.ofPairs_of_nodup ?_
      rw [hkeys]
      exact h.1
    rw [block, hpairs]
    rfl

theorem fill_waiting (heading : Heading) (pairs : List (String × Value)) (name : String) (v : Value) :
    (heading.waiting pairs name).fill v = heading.block (pairs ++ [(name, v)]) := by
  cases heading with
  | key => rw [block, Entries.ofPairs_concat]; rfl
  | item => rw [block, List.map_append]; rfl

theorem waiting?_block : (heading.block pairs).waiting? = none := by
  cases heading <;> rfl

theorem column_block : (heading.block pairs).column = 0 := by
  cases heading <;> rfl

theorem resume_block (h : heading.Bears name) (line : Nat) :
    (heading.block pairs).resume (⟨line, 0, heading.mark name⟩ :: ms) =
      (heading.block (pairs ++ [(name, (Reading.value (heading.waiting pairs name).fits ms).1)])).resume
        (Reading.value (heading.waiting pairs name).fits ms).2 := by
  rw [← fill_waiting]
  cases heading with
  | key =>
    have hname : keyName name.toList = name.toList := by
      rw [keyName, BareKey.unquote?_eq_none h]
      rfl
    have hread := @Reading.entries_following line 0 name.toList (Entries.ofPairs pairs) ms
      (by rw [hname]; exact BareKey.ne_nil h)
    rw [hname, String.ofList_toList] at hread
    rw [block, Block.resume, mark, hread]
    rfl
  | item =>
    rw [block, Block.resume, mark, Reading.items_following]
    rfl

theorem fits_of_right {m : Placed} (h : 1 ≤ m.column) : (heading.waiting pairs name).fits m = true := by
  cases heading with
  | key => simp [waiting, Waiting.fits, Reading.underKey]; omega
  | item => simp [waiting, Waiting.fits, Reading.underItem]; omega

theorem not_fits_heading (line : Nat) (name' : String) :
    (heading.waiting pairs name).fits ⟨line, 0, heading.mark name'⟩ = false := by
  cases heading <;> rfl

theorem written_line (h : heading.Bears name) : Written (heading.line name) := by
  cases heading with
  | key => exact written_bareKey h (by simp) (by simp) (by simp)
  | item => exact .dash

theorem ofText_line (h : heading.Bears name) :
    LineReading.ofText (heading.line name) = .content ⟨0, heading.line name⟩ :=
  (written_line h).ofText_replicate 0

theorem marksOf_line (h : heading.Bears name) (number : Nat) (texts : List (List Char)) :
    marksOf number (heading.line name :: texts) =
      (⟨number, 0, heading.mark name⟩ :: (marksOf (number + 1) texts).1, (marksOf (number + 1) texts).2) := by
  have hmarks : marks 0 (heading.line name) = [(0, heading.mark name)] := by
    cases heading with
    | key => exact marks_bareKey h (by simp) 0
    | item => rfl
  rw [marksOf, ofText_line h]
  dsimp only
  rw [Line.placed, Line.marks, hmarks]
  rfl

theorem unmarked_line (h : heading.Bears name) : Unmarked (heading.line name) := by
  rw [Unmarked, ofText_line h]
  rintro _ ⟨⟩
  exact ⟨(written_line h).isDocumentStart_eq_false 0, (written_line h).isDocumentEnd_eq_false 0⟩

end Heading

/-! ## Parts -/

theorem exists_halt_of_marksOf_eq_nil : ∀ {texts : List (List Char)} (number : Nat),
    (∃ raw ∈ texts, LineReading.ofText raw ≠ .blank) → (marksOf number texts).1 = [] →
    ∃ halt, (marksOf number texts).2 = some halt
  | [], _, h, _ => by simp at h
  | raw :: texts, number, h, hnil => by
    rw [marksOf] at hnil ⊢
    cases hr : LineReading.ofText raw with
    | blank =>
      rw [hr] at hnil
      refine exists_halt_of_marksOf_eq_nil (number + 1) ?_ hnil
      simpa [hr] using h
    | tabbed => exact ⟨number, rfl⟩
    | content line =>
      rw [hr] at hnil
      have hplaced : line.marks = [] := by simpa [Line.placed] using (List.append_eq_nil_iff.1 hnil).1
      exact absurd hplaced (marks_of_content hr)

namespace Part

variable {part : Part}

theorem unmarked_lines (part : Part) : ∀ raw ∈ part.lines, Unmarked raw := by
  intro raw hraw line hline
  obtain ⟨raw', -, rfl⟩ := List.mem_map.1 hraw
  rw [ofText_indented] at hline
  have hshift := part.shift_pos
  cases hr : LineReading.ofText raw' with
  | blank =>
    rw [hr] at hline
    cases hline
  | tabbed =>
    rw [hr] at hline
    cases hline
  | content l =>
    rw [hr] at hline
    cases hline
    have hcolumn : (l.column + part.shift == 0) = false := beq_eq_false_iff_ne.2 (by omega)
    rw [isDocumentStart, isDocumentEnd, hcolumn]
    exact ⟨rfl, rfl⟩

theorem document_eq (part : Part) : Reading.document part.text.toList =
    verdict (Reading.root (marksOf 1 (Text.lines part.text.toList)).1) (marksOf 1 (Text.lines part.text.toList)).2 := by
  rw [Reading.document, content_eq_marksOf 1 false part.unmarked]

/-- **A block that follows is what its marks are by themselves.** -/
theorem value_moved {fits : Placed → Bool} {ms tail : List Placed} (lines columns : Nat) (hne : ms ≠ [])
    (hfits : ∀ m : Placed, 1 ≤ m.column → fits m = true) (hcolumns : 1 ≤ columns)
    (htail : ∀ m ∈ tail.head?, m.column = 0 ∧ fits m = false) :
    Reading.value fits (ms.map (Placed.moved lines columns) ++ tail) =
      ((Reading.root ms).1, (Reading.root ms).2.map (Placed.moved lines columns) ++ tail) := by
  obtain ⟨source, rest, h⟩ := exists_spells (fun _ => true) ms
  have hroot : Reading.root ms = (source.value, rest) := by
    rw [Reading.root, List.isEmpty_eq_false_iff.2 hne]
    exact h.found
  have hleft : ∀ m ∈ tail.head?, m.column < columns := by
    intro m hm
    rw [(htail m hm).1]
    exact hcolumns
  have hmoved : ∀ m : Placed, fits (m.moved lines columns) = true := fun m =>
    hfits _ (Nat.le_trans hcolumns (Nat.le_add_left columns m.column))
  rw [hroot]
  exact (h.moved hleft fits hmoved fun m hm => (htail m hm).2).found

theorem left_moved {fits : Placed → Bool} (ms : List Placed) (lines columns : Nat)
    (hfits : ∀ m : Placed, 1 ≤ m.column → fits m = true) (hcolumns : 1 ≤ columns) :
    (Reading.value fits (ms.map (Placed.moved lines columns))).2 =
      (Reading.root ms).2.map (Placed.moved lines columns) := by
  by_cases hne : ms = []
  · subst hne
    rw [List.map_nil, Reading.value_nil]
    rfl
  · have hvalue := @value_moved fits ms [] lines columns hne hfits hcolumns nofun
    rw [List.append_nil, List.append_nil] at hvalue
    rw [hvalue]

/-- **What follows a heading is read as the part by itself is**: the value of the part, with the marks behind it left,
or a mark of the part is left, or the part is where reading ends. -/
theorem value_lines (part : Part) {fits : Placed → Bool} {texts : List (List Char)} (number : Nat)
    (hfits : ∀ m : Placed, 1 ≤ m.column → fits m = true)
    (htexts : ∀ m ∈ (marksOf (number + 1 + part.lines.length) texts).1.head?, m.column = 0 ∧ fits m = false) :
    match Reading.document part.text.toList with
    | .ok v => Reading.value fits (marksOf (number + 1) (part.lines ++ texts)).1 =
          (v, (marksOf (number + 1 + part.lines.length) texts).1) ∧
        (marksOf (number + 1) (part.lines ++ texts)).2 = (marksOf (number + 1 + part.lines.length) texts).2
    | .error line =>
      (∃ m rest, (Reading.value fits (marksOf (number + 1) (part.lines ++ texts)).1).2 = m :: rest ∧
        1 ≤ m.column ∧ m.line = number + line) ∨
      (Reading.value fits (marksOf (number + 1) (part.lines ++ texts)).1).2 = [] ∧
        (marksOf (number + 1) (part.lines ++ texts)).2 = some (number + line) := by
  have hmoved := marksOf_indented number part.shift (Text.lines part.text.toList) 1
  have hcontent := exists_halt_of_marksOf_eq_nil 1 part.content
  rw [Nat.add_comm 1 number] at hmoved
  rw [marksOf_append, document_eq]
  have hlines : part.lines = (Text.lines part.text.toList).map (List.replicate part.shift ' ' ++ ·) := rfl
  rw [hlines] at htexts ⊢
  rw [hmoved]
  generalize (marksOf 1 (Text.lines part.text.toList)).1 = ms at *
  generalize (marksOf 1 (Text.lines part.text.toList)).2 = halt at *
  cases halt with
  | none =>
    -- reading goes on behind the part, and the part has marks of its own
    have hne : ms ≠ [] := by
      intro hnil
      obtain ⟨halt, hhalt⟩ := hcontent hnil
      cases hhalt
    have hvalue := value_moved number part.shift hne hfits part.shift_pos htexts
    dsimp only [Option.map_none]
    rw [hvalue]
    cases hread : (Reading.root ms).2 with
    | nil =>
      rw [Reading.verdict_of_end hread]
      exact ⟨rfl, rfl⟩
    | cons m rest =>
      rw [Reading.verdict_of_left hread]
      exact .inl ⟨_, _, rfl, Nat.le_trans part.shift_pos (Nat.le_add_left _ _), Nat.add_comm _ _⟩
  | some e =>
    -- a line of the part ends reading, so nothing is behind its marks
    dsimp only [Option.map_some]
    rw [left_moved ms number part.shift hfits part.shift_pos]
    cases hroot : (Reading.root ms).2 with
    | nil =>
      rw [Reading.verdict_of_halt hroot]
      exact .inr ⟨rfl, by rw [Nat.add_comm]⟩
    | cons m rest =>
      rw [Reading.verdict_of_left hroot]
      exact .inl ⟨_, _, rfl, Nat.le_trans part.shift_pos (Nat.le_add_left _ _), Nat.add_comm _ _⟩

end Part

/-! ## Parts behind headings -/

/-- The values of the parts, or the line of the first of them that is at fault; the first heading is on the line
with the given number. -/
def readEach (number : Nat) : List (String × Part) → Except Nat (List Value)
  | [] => .ok []
  | (_, part) :: parts =>
    match Reading.document part.text.toList with
    | .ok v => (readEach (number + 1 + part.lines.length) parts).map (v :: ·)
    | .error line => .error (number + line)

variable {heading : Heading} {parts : List (String × Part)}

theorem nestedLines_cons (name : String) (part : Part) (parts : List (String × Part)) :
    nestedLines heading ((name, part) :: parts) = heading.line name :: (part.lines ++ nestedLines heading parts) := rfl

theorem marksOf_nestedLines_head (h : ∀ p ∈ parts, heading.Bears p.1) (number : Nat) :
    ∀ m ∈ (marksOf number (nestedLines heading parts)).1.head?, ∃ line name, m = ⟨line, 0, heading.mark name⟩ := by
  cases parts with
  | nil => nofun
  | cons p parts =>
    intro m hm
    rw [nestedLines_cons, Heading.marksOf_line (h p List.mem_cons_self)] at hm
    cases hm
    exact ⟨_, _, rfl⟩

theorem verdict_nestedLines : ∀ {parts : List (String × Part)} (number : Nat) (pairs : List (String × Value)),
    (∀ p ∈ parts, heading.Bears p.1) →
    verdict ((heading.block pairs).resume (marksOf number (nestedLines heading parts)).1)
        (marksOf number (nestedLines heading parts)).2 =
      (readEach number parts).map fun values => (heading.block (pairs ++ (parts.map Prod.fst).zip values)).value
  | [], number, pairs, _ => by
    have hread : (heading.block pairs).resume [] = ((heading.block pairs).value, []) := Block.resume_nil
    have hmarks : marksOf number (nestedLines heading []) = ([], none) := rfl
    rw [hmarks, hread, Reading.verdict_of_end rfl]
    simp [readEach, Except.map]
  | (name, part) :: parts, number, pairs, h => by
    obtain ⟨hname, hparts⟩ := List.forall_mem_cons.1 h
    have hhead := marksOf_nestedLines_head hparts (number + 1 + part.lines.length)
    have hvalue := @Part.value_lines part (heading.waiting pairs name).fits (nestedLines heading parts) number
      (fun m hm => Heading.fits_of_right hm) (fun m hm => by
        obtain ⟨line, name', rfl⟩ := hhead m hm
        exact ⟨rfl, Heading.not_fits_heading line name'⟩)
    rw [nestedLines_cons, Heading.marksOf_line hname, readEach]
    dsimp only
    rw [Heading.resume_block hname]
    cases hdocument : Reading.document part.text.toList with
    | ok v =>
      rw [hdocument] at hvalue
      obtain ⟨hread, hhalt⟩ := hvalue
      rw [hread, hhalt]
      have ih := verdict_nestedLines (number + 1 + part.lines.length) (pairs ++ [(name, v)]) hparts
      rw [ih]
      cases readEach (number + 1 + part.lines.length) parts with
      | error line => rfl
      | ok values => simp [Except.map]
    | error line =>
      rw [hdocument] at hvalue
      rcases hvalue with ⟨m, rest, hleft, hcolumn, hline⟩ | ⟨hend, hhalt⟩
      · -- a mark that the part leaves is too far right for the block
        have hne : m.column ≠ 0 := by omega
        rw [hleft, Reading.verdict_of_left (Block.resume_of_column_ne Heading.waiting?_block
          (by rwa [Heading.column_block])), hline]
        rfl
      · rw [hend, hhalt, Reading.verdict_of_halt (by rw [Block.resume_nil])]
        rfl

/-! ## Documents -/

theorem readEach_cases (heading : Heading) : ∀ (parts : List (String × Part)) (number : Nat),
    (∃ values, List.Forall₂ (fun p v => Reading.document p.2.text.toList = .ok v) parts values ∧
      readEach number parts = .ok values) ∨
    ∃ before name part after line, parts = before ++ (name, part) :: after ∧
      (∀ p ∈ before, ∃ v, Reading.document p.2.text.toList = .ok v) ∧
      Reading.document part.text.toList = .error line ∧
      readEach number parts = .error ((nestedLines heading before).length + number + line)
  | [], _ => .inl ⟨[], .nil, rfl⟩
  | (name, part) :: parts, number => by
    cases hdocument : Reading.document part.text.toList with
    | error line =>
      refine .inr ⟨[], name, part, parts, line, rfl, nofun, hdocument, ?_⟩
      rw [readEach, hdocument, nestedLines, List.flatMap_nil, List.length_nil, Nat.zero_add]
    | ok v =>
      have hread : readEach number ((name, part) :: parts) =
          (readEach (number + 1 + part.lines.length) parts).map (v :: ·) := by
        rw [readEach, hdocument]
      rw [hread]
      rcases readEach_cases heading parts (number + 1 + part.lines.length) with ⟨values, hvalues, hparts⟩ |
        ⟨before, name', part', after, line, rfl, hbefore, hpart', hparts⟩
      · rw [hparts]
        exact .inl ⟨v :: values, .cons hdocument hvalues, rfl⟩
      · have hnumber : (nestedLines heading before).length + (number + 1 + part.lines.length) + line =
            part.lines.length + (nestedLines heading before).length + 1 + number + line := by omega
        refine .inr ⟨(name, part) :: before, name', part', after, line, rfl,
          List.forall_mem_cons.2 ⟨⟨v, hdocument⟩, hbefore⟩, hpart', ?_⟩
        rw [hparts, nestedLines_cons, List.length_cons, List.length_append, hnumber]
        rfl

theorem lines_flatMap : ∀ {texts : List (List Char)}, (∀ raw ∈ texts, '\n' ∉ raw) →
    Text.lines (texts.flatMap (· ++ ['\n'])) = texts.map Text.chomp
  | [], _ => rfl
  | raw :: texts, h => by
    obtain ⟨hraw, htexts⟩ := List.forall_mem_cons.1 h
    rw [List.flatMap_cons, List.append_assoc, List.singleton_append, Text.lines_newline _ hraw, lines_flatMap htexts,
      List.map_cons]

theorem marksOf_chomp : ∀ (texts : List (List Char)) (number : Nat),
    marksOf number (texts.map Text.chomp) = marksOf number texts
  | [], _ => rfl
  | raw :: texts, number => by
    rw [List.map_cons, marksOf, marksOf, ofText_chomp, marksOf_chomp texts]

theorem unmarked_chomp {raw : List Char} (h : Unmarked raw) : Unmarked (Text.chomp raw) := by
  rwa [Unmarked, ofText_chomp]

theorem forall_nestedLines {P : List Char → Prop} (hline : ∀ p ∈ parts, P (heading.line p.1))
    (hpart : ∀ p ∈ parts, ∀ raw ∈ p.2.lines, P raw) : ∀ raw ∈ nestedLines heading parts, P raw := by
  intro raw hraw
  obtain ⟨p, hp, hraw⟩ := List.mem_flatMap.1 hraw
  rcases List.mem_cons.1 hraw with rfl | hraw
  · exact hline p hp
  · exact hpart p hp raw hraw

theorem not_mem_nestedLines (h : ∀ p ∈ parts, heading.Bears p.1) : ∀ raw ∈ nestedLines heading parts, '\n' ∉ raw := by
  refine forall_nestedLines (fun p hp => (Heading.written_line (h p hp)).not_mem) fun p _ raw hraw => ?_
  obtain ⟨raw', hraw', rfl⟩ := List.mem_map.1 hraw
  simp [Text.not_mem_lines _ raw' hraw']

theorem lines_nested (h : ∀ p ∈ parts, heading.Bears p.1) :
    Text.lines (nested heading parts).toList = (nestedLines heading parts).map Text.chomp := by
  rw [nested, String.toList_ofList, lines_flatMap (not_mem_nestedLines h)]

theorem root_heading (heading : Heading) (line : Nat) (name : String) (ms : List Placed) :
    Reading.root (⟨line, 0, heading.mark name⟩ :: ms) =
      (heading.block []).resume (⟨line, 0, heading.mark name⟩ :: ms) := by
  cases heading with
  | key => exact Reading.value_entry rfl
  | item => exact Reading.value_item rfl

/-- **Documents behind headings** are the values of all of them, or the first of them is at fault. -/
theorem document_nested (h : ∀ p ∈ parts, heading.Bears p.1) (hparts : parts ≠ []) :
    Reading.document (nested heading parts).toList =
      (readEach 1 parts).map fun values => (heading.block ((parts.map Prod.fst).zip values)).value := by
  have hunmarked : ∀ raw ∈ (nestedLines heading parts).map Text.chomp, Unmarked raw :=
    List.forall_mem_map.2 fun raw hraw => unmarked_chomp (forall_nestedLines
      (fun p hp => Heading.unmarked_line (h p hp)) (fun p _ => p.2.unmarked_lines) raw hraw)
  have hroot : Reading.root (marksOf 1 (nestedLines heading parts)).1 =
      (heading.block []).resume (marksOf 1 (nestedLines heading parts)).1 := by
    cases parts with
    | nil => exact absurd rfl hparts
    | cons p parts =>
      rw [nestedLines_cons, Heading.marksOf_line (h p List.mem_cons_self)]
      exact root_heading heading 1 p.1 _
  rw [Reading.document, lines_nested h, content_eq_marksOf 1 false hunmarked, marksOf_chomp, hroot,
    verdict_nestedLines 1 [] h]
  rfl

end Yaml

/-- **Nested documents are what they are by themselves.**  Either all of them decode, and the whole is the mapping of
their keys to their values or the sequence of their values, or the whole is at fault where the first of them is. -/
theorem decodeYaml_nested {heading : Yaml.Heading} {parts : List (String × Yaml.Part)} (h : heading.Admits parts) :
    (∃ values, List.Forall₂ (fun p v => decodeYaml p.2.text = .ok v) parts values ∧
      decodeYaml (Yaml.nested heading parts) = .ok (heading.value ((parts.map Prod.fst).zip values))) ∨
    ∃ before name part after error error', parts = before ++ (name, part) :: after ∧
      (∀ p ∈ before, ∃ v, decodeYaml p.2.text = .ok v) ∧ decodeYaml part.text = .error error ∧
      decodeYaml (Yaml.nested heading parts) = .error error' ∧
      error'.line = (Text.lines (Yaml.nested heading before).toList).length + 1 + error.line := by
  by_cases hparts : parts = []
  · subst hparts
    cases heading with
    | key => exact .inl ⟨[], .nil, rfl⟩
    | item => exact absurd rfl h
  have hbears := h.bears
  have hnested := Yaml.document_nested hbears hparts
  rcases Yaml.readEach_cases heading parts 1 with ⟨values, hvalues, hread⟩ |
    ⟨before, name, part, after, line, rfl, hbefore, hpart, hread⟩
  · left
    refine ⟨values, hvalues.imp fun p v hv => decodeYaml_eq_ok.2 hv, decodeYaml_eq_ok.2 ?_⟩
    rw [hnested, hread, Except.map, h.value_block hvalues.length_eq]
  · right
    obtain ⟨error, herror, hline⟩ := decodeYaml_eq_error.2 hpart
    rw [hread] at hnested
    obtain ⟨error', herror', hline'⟩ := decodeYaml_eq_error.2 hnested
    refine ⟨before, name, part, after, error, error', rfl, fun p hp => ?_, herror, herror', ?_⟩
    · obtain ⟨v, hv⟩ := hbefore p hp
      exact ⟨v, decodeYaml_eq_ok.2 hv⟩
    · have hlines := Yaml.lines_nested fun p hp => hbears p (List.mem_append_left _ hp)
      rw [hline', hline, hlines, List.length_map]

/-- A sequence and a number under keys. -/
theorem decodeYaml_nested_keys :
    decodeYaml "a:\n  - x\nb:\n 1\n" = .ok (.object [("a", .array [.string "x"]), ("b", .integer 1)]) := by
  have ha : decodeYaml "- x" = .ok (.array [.string "x"]) := rfl
  have hb : decodeYaml "1" = .ok (.integer 1) := rfl
  have hbare : Yaml.BareKey "a".toList ∧ Yaml.BareKey "b".toList :=
    ⟨⟨by simp, by simp [Text.isBlank]⟩, by simp, by simp [Text.isBlank]⟩
  rcases @decodeYaml_nested .key [("a", ⟨2, "- x", by decide, by decide, by decide⟩),
      ("b", ⟨1, "1", by decide, by decide, by decide⟩)]
    ⟨by decide, by simpa using hbare⟩ with
    ⟨values, hvalues, h⟩ | ⟨before, name, part, after, error, error', hparts, -, hpart, -⟩
  · rcases hvalues with _ | ⟨hv, _ | ⟨hw, _ | _⟩⟩
    cases ha.symm.trans hv
    cases hb.symm.trans hw
    exact h
  · -- neither of the two parts is at fault
    rcases before with _ | ⟨p, _ | ⟨q, before⟩⟩
    · cases hparts
      cases ha.symm.trans hpart
    · cases hparts
      cases hb.symm.trans hpart
    · simp at hparts

end DocQuery
