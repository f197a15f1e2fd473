import DocQuery.Yaml.Line
/-!
# Marks

A line holds one or more marks: a dash for every sequence item that it opens, and behind the dashes an entry of a
mapping, a plain text, or nothing.  Each mark stands at a column of its own, so `- - k: v` is a dash at column 0, a
dash at column 2 and an entry at column 4, as if they stood on three lines.
-/
namespace DocQuery.Yaml

/-! ## Entries

The key of an entry ends at the first colon that a space or the end of the line follows.  If the line starts with a
quote, colons inside the quotes do not count. -/

/-- The text in front of the colon of an entry and the text behind it. -/
def splitEntry : List Char → Option (List Char × List Char)
  | [] => none
  | [':'] => some ([], [])
  | ':' :: ' ' :: cs => some ([], ' ' :: cs)
  | c :: cs => (splitEntry cs).map fun (key, value) => (c :: key, value)

def splitEntryDouble : List Char → Option (List Char × List Char)
  | [] => none
  | '\\' :: c :: cs => (splitEntryDouble cs).map fun (key, value) => ('\\' :: c :: key, value)
  | '"' :: cs => (splitEntry cs).map fun (key, value) => ('"' :: key, value)
  | c :: cs => (splitEntryDouble cs).map fun (key, value) => (c :: key, value)

def splitEntrySingle : List Char → Option (List Char × List Char)
  | [] => none
  | '\'' :: '\'' :: cs => (splitEntrySingle cs).map fun (key, value) => ('\'' :: '\'' :: key, value)
  | '\'' :: cs => (splitEntry cs).map fun (key, value) => ('\'' :: key, value)
  | c :: cs => (splitEntrySingle cs).map fun (key, value) => (c :: key, value)

/-- The key and the value of an entry, as they are written, without the blanks around the colon and behind the
value. -/
def entryParts? (cs : List Char) : Option (List Char × List Char) :=
  let split : Option (List Char × List Char) := match cs with
    | '"' :: r => (splitEntryDouble r).map fun (key, value) => ('"' :: key, value)
    | '\'' :: r => (splitEntrySingle r).map fun (key, value) => ('\'' :: key, value)
    | r => splitEntry r
  split.map fun (key, value) => (Text.trimEnd key, Text.trim value)

/-! ## Marks of a line -/

inductive Mark where
  | item
  | entry (key value : List Char)
  | text (cs : List Char)
  deriving DecidableEq, Repr

def Mark.ofContent (cs : List Char) : Mark :=
  match entryParts? cs with
  | some (key, value) => .entry key value
  | none => .text cs

/-- The marks of a content that starts at a column, with their columns. -/
def marks (column : Nat) : List Char → List (Nat × Mark)
  | [] => []
  | ['-'] => [(column, .item)]
  | '-' :: ' ' :: cs => (column, .item) :: marks (column + 2) cs
  | ' ' :: cs => marks (column + 1) cs
  | c :: cs => [(column, .ofContent (c :: cs))]

theorem marks_replicate (n column : Nat) (cs : List Char) :
    marks column (List.replicate n ' ' ++ cs) = marks (column + n) cs := by
  induction n generalizing column with
  | zero => rfl
  | succ n ih =>
    have hm : marks column (' ' :: (List.replicate n ' ' ++ cs)) = marks (column + 1) (List.replicate n ' ' ++ cs) :=
      rfl
    rw [List.replicate_succ, List.cons_append, hm, ih, Nat.add_assoc, Nat.add_comm 1]

def Line.marks (line : Line) : List (Nat × Mark) :=
  Yaml.marks line.column line.content

end DocQuery.Yaml
