import DocQuery.Yaml.Reader
/-!
# Reading by recursion

What the lines of a block document mean, said without open blocks: a block at a column is a run of entries or of items
at that column, and the value of each is the block, or the text, that follows further right.  Reading takes the marks
in front of it that belong to what it reads, and leaves the rest to whoever asked.  A document is read if nothing is
left, and otherwise the line of the first mark left is the one at fault (`Reading.document`).
-/
namespace DocQuery.Yaml

/-- **A mark where it stands**: on a line of the text, and at a column. -/
structure Placed where
  line : Nat
  column : Nat
  mark : Mark
  deriving DecidableEq, Repr

def Line.placed (number : Nat) (line : Line) : List Placed :=
  line.marks.map fun (column, mark) => ⟨number, column, mark⟩

/-- The name that the text of a key stands for. -/
def keyName (key : List Char) : List Char :=
  (Quoted.unquote? key).getD key

namespace Reading

/-- The value of an item stands further right. -/
def underItem (column : Nat) (m : Placed) : Bool :=
  decide (column < m.column)

/-- The value of a key stands further right, but that a sequence may stand at the column of the key. -/
def underKey (column : Nat) (m : Placed) : Bool :=
  decide (column < m.column) || (m.column == column && m.mark == .item)

abbrev Rest (ms : List Placed) := { rest : List Placed // rest.length ≤ ms.length }

mutual

/-- The value that follows, null unless the next mark fits. -/
def readValue (fits : Placed → Bool) : (ms : List Placed) → Value × Rest ms
  | [] => (.null, ⟨[], Nat.le_refl _⟩)
  | m :: ms =>
    if fits m then
      match m.mark with
      | .item => let r := readItems m.column [] (m :: ms); (.array r.1, r.2)
      | .entry _ _ => let r := readEntries m.column [] (m :: ms); (.object r.1, r.2)
      | .text cs => (.scalar (.ofText cs), ⟨ms, Nat.le_succ _⟩)
    else (.null, ⟨m :: ms, Nat.le_refl _⟩)
termination_by ms => (ms.length, 1)

/-- The entries at a column, behind those read before.  A key without a name is no entry. -/
def readEntries (column : Nat) (es : Entries) : (ms : List Placed) → Entries × Rest ms
  | ⟨line, c, .entry key text⟩ :: ms =>
    if c = column ∧ keyName key ≠ [] then
      if text.isEmpty then
        let v := readValue (underKey column) ms
        have h : v.2.val.length < ms.length + 1 := Nat.lt_succ_of_le v.2.property
        let r := readEntries column (es.put (String.ofList (keyName key)) v.1) v.2.val
        (r.1, ⟨r.2.val, Nat.le_of_lt (Nat.lt_of_le_of_lt r.2.property h)⟩)
      else
        let r := readEntries column (es.put (String.ofList (keyName key)) (.scalar (.ofText text))) ms
        (r.1, ⟨r.2.val, Nat.le_succ_of_le r.2.property⟩)
    else (es, ⟨⟨line, c, .entry key text⟩ :: ms, Nat.le_refl _⟩)
  | ms => (es, ⟨ms, Nat.le_refl _⟩)
termination_by ms => (ms.length, 0)

def readItems (column : Nat) (vs : List Value) : (ms : List Placed) → List Value × Rest ms
  | ⟨line, c, .item⟩ :: ms =>
    if c = column then
      let v := readValue (underItem column) ms
      have h : v.2.val.length < ms.length + 1 := Nat.lt_succ_of_le v.2.property
      let r := readItems column (vs ++ [v.1]) v.2.val
      (r.1, ⟨r.2.val, Nat.le_of_lt (Nat.lt_of_le_of_lt r.2.property h)⟩)
    else (vs, ⟨⟨line, c, .item⟩ :: ms, Nat.le_refl _⟩)
  | ms => (vs, ⟨ms, Nat.le_refl _⟩)
termination_by ms => (ms.length, 0)

end

def value (fits : Placed → Bool) (ms : List Placed) : Value × List Placed :=
  ((readValue fits ms).1, (readValue fits ms).2.val)

def entries (column : Nat) (es : Entries) (ms : List Placed) : Entries × List Placed :=
  ((readEntries column es ms).1, (readEntries column es ms).2.val)

def items (column : Nat) (vs : List Value) (ms : List Placed) : List Value × List Placed :=
  ((readItems column vs ms).1, (readItems column vs ms).2.val)

/-- The marks of the lines of a text up to the first line that cannot be read whatever stands around it, and that
line's number: a line with a tab in front of it, or one that starts another document. -/
def content (number : Nat) (started : Bool) : List (List Char) → List Placed × Option Nat
  | [] => ([], none)
  | raw :: rest =>
    match LineReading.ofText raw with
    | .blank => content (number + 1) started rest
    | .tabbed => ([], some number)
    | .content line =>
      if isDocumentEnd line then content (number + 1) started rest
      else if isDocumentStart line then if started then ([], some number) else content (number + 1) started rest
      else
        let r := content (number + 1) true rest
        (line.placed number ++ r.1, r.2)

/-- What is made of a value that was read: the document, unless a mark is left or the text went on with a line that
cannot be read. -/
def verdict (read : Value × List Placed) (halt : Option Nat) : Except Nat Value :=
  match read.2, halt with
  | m :: _, _ => .error m.line
  | [], some number => .error number
  | [], none => .ok read.1

/-- The value of the outermost block, whatever its column.  Without marks it is the empty object. -/
def root (ms : List Placed) : Value × List Placed :=
  if ms.isEmpty then (.object [], []) else value (fun _ => true) ms

/-- The document that a text stands for, or the line at fault. -/
def document (cs : List Char) : Except Nat Value :=
  let r := content 1 false (Text.lines cs)
  verdict (root r.1) r.2

/-! ## What reading takes -/

variable {fits : Placed → Bool} {line column c : Nat} {key text cs : List Char} {es : Entries} {vs : List Value}
  {m : Placed} {ms : List Placed}

@[simp] theorem value_nil : value fits [] = (.null, []) := by
  simp [value, readValue]

theorem value_of_not_fits (h : fits m = false) : value fits (m :: ms) = (.null, m :: ms) := by
  simp [value, readValue, h]

theorem value_item (h : fits ⟨line, column, .item⟩ = true) :
    value fits (⟨line, column, .item⟩ :: ms) =
      (.array (items column [] (⟨line, column, .item⟩ :: ms)).1,
        (items column [] (⟨line, column, .item⟩ :: ms)).2) := by
  simp [value, items, readValue, h]

theorem value_entry (h : fits ⟨line, column, .entry key text⟩ = true) :
    value fits (⟨line, column, .entry key text⟩ :: ms) =
      (.object (entries column [] (⟨line, column, .entry key text⟩ :: ms)).1,
        (entries column [] (⟨line, column, .entry key text⟩ :: ms)).2) := by
  simp [value, entries, readValue, h]

theorem value_text (h : fits ⟨line, column, .text cs⟩ = true) :
    value fits (⟨line, column, .text cs⟩ :: ms) = (.scalar (.ofText cs), ms) := by
  simp [value, readValue, h]

@[simp] theorem entries_nil : entries column es [] = (es, []) := by
  simp [entries, readEntries]

theorem entries_inline (hk : keyName key ≠ []) (ht : text.isEmpty = false) :
    entries column es (⟨line, column, .entry key text⟩ :: ms) =
      entries column (es.put (String.ofList (keyName key)) (.scalar (.ofText text))) ms := by
  simp [entries, readEntries, hk, ht]

theorem entries_following (hk : keyName key ≠ []) :
    entries column es (⟨line, column, .entry key []⟩ :: ms) =
      entries column (es.put (String.ofList (keyName key)) (value (underKey column) ms).1)
        (value (underKey column) ms).2 := by
  simp [entries, value, readEntries, hk]

theorem entries_of_column_ne (h : m.column ≠ column) : entries column es (m :: ms) = (es, m :: ms) := by
  obtain ⟨line, c, mark⟩ := m
  cases mark <;> simp [entries, readEntries] at h ⊢
  simp [h]

theorem entries_of_keyName_nil (h : keyName key = []) :
    entries column es (⟨line, c, .entry key text⟩ :: ms) = (es, ⟨line, c, .entry key text⟩ :: ms) := by
  simp [entries, readEntries, h]

@[simp] theorem entries_item :
    entries column es (⟨line, c, .item⟩ :: ms) = (es, ⟨line, c, .item⟩ :: ms) := by
  simp [entries, readEntries]

@[simp] theorem entries_text :
    entries column es (⟨line, c, .text cs⟩ :: ms) = (es, ⟨line, c, .text cs⟩ :: ms) := by
  simp [entries, readEntries]

@[simp] theorem items_nil : items column vs [] = (vs, []) := by
  simp [items, readItems]

theorem items_following :
    items column vs (⟨line, column, .item⟩ :: ms) =
      items column (vs ++ [(value (underItem column) ms).1]) (value (underItem column) ms).2 := by
  simp [items, value, readItems]

theorem items_of_column_ne (h : m.column ≠ column) : items column vs (m :: ms) = (vs, m :: ms) := by
  obtain ⟨line, c, mark⟩ := m
  cases mark <;> simp [items, readItems] at h ⊢
  simp [h]

@[simp] theorem items_entry :
    items column vs (⟨line, c, .entry key text⟩ :: ms) = (vs, ⟨line, c, .entry key text⟩ :: ms) := by
  simp [items, readItems]

@[simp] theorem items_text :
    items column vs (⟨line, c, .text cs⟩ :: ms) = (vs, ⟨line, c, .text cs⟩ :: ms) := by
  simp [items, readItems]

end Reading
end DocQuery.Yaml
