import DocQuery.Output
import Mathlib.Data.List.Basic
/-!
# Tables read back

What a character of a table means depends on where it stands.  Outside quotes a comma ends the field and a newline the
record; a quote at the beginning of a field opens it, and then only a quote that is not followed by another one closes
it.  A text that is written as a field is read as that text wherever a comma, a newline or the end stands behind it
(`read_field`), so the cells of a row and the rows of a table are read as they were written (`records_of_render`).
-/
namespace DocQuery.Csv

/-! ## Reading -/

/-- **Where the reader of a table is**: at the beginning of a field, inside one without quotes around it, between quotes,
or behind a quote that closes the field unless another one follows. -/
inductive Position where
  | start
  | bare
  | quoted
  | closing
  deriving DecidableEq

/-- **What a character is good for**: it stands for itself, is a mark of quotation, or ends a field or a record. -/
inductive Meaning where
  | text
  | mark
  | comma
  | newline

def outside (c : Char) : Meaning × Position :=
  if c = ',' then (.comma, .start) else if c = '\n' then (.newline, .start) else (.text, .bare)

/-- What a character means at a position, if it may stand there.  Behind a closed field nothing but the end of the
field may. -/
def meaning? (position : Position) (c : Char) : Option (Meaning × Position) :=
  match position with
  | .start => if c = '"' then some (.mark, .quoted) else some (outside c)
  | .bare => some (outside c)
  | .quoted => if c = '"' then some (.mark, .closing) else some (.text, .quoted)
  | .closing => if c = '"' then some (.text, .quoted) else if c = ',' ∨ c = '\n' then some (outside c) else none

/-- **What a table has from a position on**: the rest of the field, the fields behind it in its record, and the records
behind that. -/
structure Remainder where
  field : List Char
  fields : List (List Char)
  records : List (List (List Char))

namespace Remainder

def record (r : Remainder) : List (List Char) :=
  r.field :: r.fields

def text (cs : List Char) (r : Remainder) : Remainder :=
  { r with field := cs ++ r.field }

def before (c : Char) : Meaning → Remainder → Remainder
  | .text, r => r.text [c]
  | .mark, r => r
  | .comma, r => ⟨[], r.record, r.records⟩
  | .newline, r => ⟨[], [], r.record :: r.records⟩

end Remainder

/-- Reads a table from a position on.  It is no table if the last field is not closed. -/
def read : Position → List Char → Option Remainder
  | position, [] => if position = .quoted then none else some ⟨[], [], []⟩
  | position, c :: cs => (meaning? position c).bind fun (meaning, next) => (read next cs).map (.before c meaning)

def records? (table : String) : Option (List (List String)) :=
  (read .start table.toList).map fun r => (r.record :: r.records).map (List.map String.ofList)

/-! ## Fields -/

variable {cs rest : List Char} {c : Char} {position next : Position} {meaning : Meaning}

theorem read_cons (h : meaning? position c = some (meaning, next)) (cs : List Char) :
    read position (c :: cs) = (read next cs).map (.before c meaning) := by
  rw [read, h]
  rfl

theorem read_mark (h : meaning? position c = some (.mark, next)) (cs : List Char) :
    read position (c :: cs) = read next cs := by
  rw [read_cons h]
  cases read next cs <;> rfl

theorem map_text_nil (r : Option Remainder) : r.map (Remainder.text []) = r := by
  cases r <;> rfl

theorem map_text_cons (c : Char) (cs : List Char) (r : Option Remainder) :
    (r.map (Remainder.text cs)).map (Remainder.before c .text) = r.map (Remainder.text (c :: cs)) := by
  cases r <;> rfl

def EndsField (rest : List Char) : Prop :=
  ∀ c ∈ rest.head?, c = ',' ∨ c = '\n'

theorem read_of_endsField (h : EndsField rest) (hp : position ≠ .quoted) : read position rest = read .start rest := by
  cases rest with
  | nil => rw [read, read, if_neg hp, if_neg (by decide)]
  | cons c cs =>
    have hsame : meaning? position c = meaning? .start c := by
      obtain rfl | rfl := h c rfl <;> cases position <;> first | rfl | exact absurd rfl hp
    rw [read, read, hsame]

theorem read_quoted_doubled (rest : List Char) : ∀ cs : List Char,
    read .quoted (doubled cs ++ '"' :: rest) = (read .closing rest).map (Remainder.text cs)
  | [] => by
    have hmark : meaning? .quoted '"' = some (.mark, .closing) := rfl
    rw [map_text_nil]
    exact read_mark hmark rest
  | c :: cs => by
    rw [doubled, List.flatMap_cons, ← doubled, List.append_assoc, ← map_text_cons, ← read_quoted_doubled rest cs]
    by_cases h : c = '"'
    · -- the first of the two might close the field, and the second takes that back
      subst h
      have hmark : meaning? .quoted '"' = some (.mark, .closing) := rfl
      have htext : meaning? .closing '"' = some (.text, .quoted) := rfl
      exact (read_mark hmark _).trans (read_cons htext _)
    · have htext : meaning? .quoted c = some (.text, .quoted) := if_neg h
      rw [if_neg h]
      exact read_cons htext _

theorem outside_of_not_needsQuotes (h : needsQuotes c = false) : outside c = (.text, .bare) := by
  have hcomma : c ≠ ',' := by rintro rfl; cases h
  have hnewline : c ≠ '\n' := by rintro rfl; cases h
  rw [outside, if_neg hcomma, if_neg hnewline]

theorem read_bare (hrest : EndsField rest) : ∀ {cs : List Char}, (∀ c ∈ cs, needsQuotes c = false) →
    read .bare (cs ++ rest) = (read .start rest).map (Remainder.text cs)
  | [], _ => by
    rw [map_text_nil]
    exact read_of_endsField hrest (by decide)
  | c :: cs, h => by
    rw [List.forall_mem_cons] at h
    have htext : meaning? .bare c = some (.text, .bare) := congrArg some (outside_of_not_needsQuotes h.1)
    rw [List.cons_append, read_cons htext, read_bare hrest h.2, map_text_cons]

theorem read_field (text : String) (hrest : EndsField rest) :
    read .start (field text ++ rest) = (read .start rest).map (Remainder.text text.toList) := by
  unfold field
  split
  · have hmark : meaning? .start '"' = some (.mark, .quoted) := rfl
    rw [List.cons_append, List.append_assoc, List.singleton_append, read_mark hmark, read_quoted_doubled,
      read_of_endsField hrest (by decide)]
  · rename_i h
    rw [Bool.not_eq_true, List.any_eq_false] at h
    simp only [Bool.not_eq_true] at h
    -- the first character is at the beginning of the field, and is no quote
    cases hcs : text.toList with
    | nil => rw [map_text_nil, List.nil_append]
    | cons c cs =>
      rw [hcs, List.forall_mem_cons] at h
      have hquote : c ≠ '"' := by rintro rfl; cases h.1
      have htext : meaning? .start c = some (.text, .bare) := by
        rw [meaning?, if_neg hquote, outside_of_not_needsQuotes h.1]
      rw [List.cons_append, read_cons htext, read_bare hrest h.2, map_text_cons]

/-! ## Rows and tables -/

theorem intercalate_cons_cons (c : Char) (x y : List Char) (l : List (List Char)) :
    [c].intercalate (x :: y :: l) = x ++ c :: [c].intercalate (y :: l) := by
  simp [List.intercalate]

def line (texts : List String) : List Char :=
  row (texts.map field)

theorem line_singleton (text : String) : line [text] = field text := by
  simp [line, row, List.intercalate]

theorem line_cons_cons (text next : String) (texts : List String) :
    line (text :: next :: texts) = field text ++ ',' :: line (next :: texts) :=
  intercalate_cons_cons ',' _ _ _

theorem read_line {records : List (List (List Char))} (hrest : EndsField rest)
    (h : read .start rest = some ⟨[], [], records⟩) : ∀ (text : String) (texts : List String),
    read .start (line (text :: texts) ++ rest) = some ⟨text.toList, texts.map String.toList, records⟩
  | text, [] => by
    rw [line_singleton, read_field text hrest, h]
    simp [Remainder.text]
  | text, next :: texts => by
    have hends : EndsField (',' :: (line (next :: texts) ++ rest)) := by simp [EndsField]
    have hcomma : meaning? .start ',' = some (.comma, .start) := rfl
    rw [line_cons_cons, List.append_assoc, List.cons_append, read_field text hends, read_cons hcomma,
      read_line hrest h next texts]
    simp [Remainder.text, Remainder.before, Remainder.record]

theorem read_lines : ∀ {rows : List (List String)} (text : String) (texts : List String), (∀ r ∈ rows, r ≠ []) →
    read .start (['\n'].intercalate (((text :: texts) :: rows).map line)) =
      some ⟨text.toList, texts.map String.toList, rows.map (List.map String.toList)⟩
  | [], text, texts, _ => by
    have hends : EndsField [] := by simp [EndsField]
    have h := read_line hends rfl text texts
    rw [List.append_nil] at h
    simpa [List.intercalate] using h
  -- a row without a field would be read as one with an empty field
  | [] :: rows, text, texts, h => absurd rfl (h [] List.mem_cons_self)
  | (first :: others) :: rows, text, texts, h => by
    rw [List.forall_mem_cons] at h
    have hnewline : meaning? .start '\n' = some (.newline, .start) := rfl
    rw [List.map_cons, List.map_cons, intercalate_cons_cons, ← List.map_cons]
    refine read_line (by simp [EndsField]) ?_ text texts
    rw [read_cons hnewline, read_lines first others h.2]
    simp [Remainder.before, Remainder.record]

theorem map_ofList_toList (texts : List String) : (texts.map String.toList).map String.ofList = texts := by
  simp

theorem map_map_ofList_toList (rows : List (List String)) :
    (rows.map (List.map String.toList)).map (List.map String.ofList) = rows := by
  simp

/-- The text of a cell: the plain text of the value under the key, if the element has the key. -/
def cellText (element : Value) (key : String) : String :=
  match element.get? key with
  | some v => v.plainText
  | none => ""

theorem cell_eq (element : Value) (key : String) : cell element key = field (cellText element key) := by
  unfold cell cellText
  cases element.get? key <;> rfl

theorem table_eq (keys : List String) (elements : List Value) : table keys elements =
    ['\n'].intercalate ((keys :: elements.map fun element => keys.map (cellText element)).map line) := by
  have hcells : ∀ element, keys.map (cell element) = (keys.map (cellText element)).map field := fun element => by
    rw [List.map_map]
    exact List.map_congr_left fun key _ => cell_eq element key
  rw [table, List.map_cons, List.map_map]
  simp only [hcells, line, Function.comp_def]

/-- **The table of an array of objects is read back cell for cell.**  Its first record has the keys of the first object,
and then there is a record for each element, with a field for each of these keys: the plain text of the element's value
under the key, or nothing if the element is no object or has no such key.  So neither a key nor a value can shift, split
or merge cells or rows, whatever commas, quotes and line breaks are in it. -/
theorem records_of_render (key : String) (v : Value) (entries : Entries) (rest : List Value) (indented : Bool) :
    let elements : List Value := .object ((key, v) :: entries) :: rest
    let keys := Entries.keys ((key, v) :: entries)
    records? ((Value.array elements).render .csv indented) =
      some (keys :: elements.map fun element => keys.map fun k =>
        match element.get? k with
        | some cell => cell.plainText
        | none => "") := by
  intro elements keys
  have hrows : ∀ r ∈ elements.map (fun element => keys.map (cellText element)), r ≠ [] := by simp [keys, Entries.keys]
  have hread : read .start (['\n'].intercalate ((keys :: elements.map fun element =>
      keys.map (cellText element)).map line)) = some _ := read_lines key (Entries.keys entries) hrows
  have hrender : (Value.array elements).render .csv indented = String.ofList (table keys elements) := rfl
  rw [hrender, records?, String.toList_ofList, table_eq, hread]
  exact congrArg some (congrArg₂ List.cons (map_ofList_toList keys) (map_map_ofList_toList _))

/-- Quotes are doubled, an empty line is a record with an empty field, and a closed field cannot go on. -/
example : records? "a,\"b,\"\"\n\"\n\n,c" = some [["a", "b,\"\n"], [""], ["", "c"]] ∧ records? "\"a\"b" = none := by
  decide

end DocQuery.Csv
