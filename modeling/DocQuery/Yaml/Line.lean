import DocQuery.Text.Blank
/-!
# Lines of a block document

A line matters through its column and its content.  What is behind a comment sign is cut off, blanks at the end do
not count, and a line with nothing left is no line at all.  The column is the number of spaces in front of the
content, and a tab there is a fault.
-/
namespace DocQuery.Yaml

/-! ## Comments

A number sign starts a comment at the beginning of a line or behind a blank, outside quotes.  A quote opens where a
comment could start, and closes at the next quote of its kind that is not escaped. -/

mutual

/-- The text up to a comment, read outside quotes; `fresh` says that a comment or a quote can start here. -/
def uncommented (fresh : Bool) : List Char → List Char
  | [] => []
  | c :: cs =>
    if fresh && c = '#' then []
    else if fresh && c = '"' then c :: uncommentedDouble cs
    else if fresh && c = '\'' then c :: uncommentedSingle cs
    else c :: uncommented (Text.isBlank c) cs

/-- The same inside double quotes, where a backslash takes the next character with it. -/
def uncommentedDouble : List Char → List Char
  | [] => []
  | '\\' :: c :: cs => '\\' :: c :: uncommentedDouble cs
  | '"' :: cs => '"' :: uncommented false cs
  | c :: cs => c :: uncommentedDouble cs

/-- The same inside single quotes, where a doubled quote does not close. -/
def uncommentedSingle : List Char → List Char
  | [] => []
  | '\'' :: '\'' :: cs => '\'' :: '\'' :: uncommentedSingle cs
  | '\'' :: cs => '\'' :: uncommented false cs
  | c :: cs => c :: uncommentedSingle cs

end

/-! ## Columns -/

/-- **A line that has content**, and the column at which it starts. -/
structure Line where
  column : Nat
  content : List Char
  deriving DecidableEq, Repr

def isIndentation (c : Char) : Bool :=
  c == ' ' || c == '\t'

inductive LineReading where
  | blank
  | tabbed
  | content (line : Line)
  deriving DecidableEq, Repr

def LineReading.ofText (raw : List Char) : LineReading :=
  let text := Text.trimEnd (uncommented true raw)
  let indentation := text.takeWhile isIndentation
  match text.dropWhile isIndentation with
  | [] => .blank
  | c :: cs => if indentation.contains '\t' then .tabbed else .content ⟨indentation.length, c :: cs⟩

theorem LineReading.exists_cons_of_content {raw : List Char} {l : Line} (h : ofText raw = .content l) :
    ∃ c cs, l.content = c :: cs ∧ isIndentation c = false := by
  unfold ofText at h
  simp only at h
  split at h
  · cases h
  · rename_i c cs hcs
    split at h <;> cases h
    have hfirst := List.head?_dropWhile_not isIndentation (Text.trimEnd (uncommented true raw))
    rw [hcs] at hfirst
    exact ⟨c, cs, rfl, hfirst⟩

end DocQuery.Yaml
