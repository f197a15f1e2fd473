import DocQuery.Yaml.Reader
/-!
# Open blocks as frames

The same stack of open blocks with nothing ruled out by its types: a frame is a container and, beside it, a slot that
waits for a value, and nothing says that the slot fits the container, that a frame below another has a slot, or that
there is a frame at all.  What would be wrong then is a failure of its own (`Failure.slotMissing`,
`Failure.frameMissing`), apart from the faults of a line.  A line is taken as it is written: its dashes are split off
one by one, and each opens a sequence in which the text behind it is read at its own column.
-/
namespace DocQuery.Yaml

/-- The text behind a dash, and how far behind the dash it starts; nothing when there is no dash. -/
def itemBody? : List Char → Option (Nat × List Char)
  | ['-'] => some (1, [])
  | '-' :: ' ' :: cs => some (2 + (cs.takeWhile (· == ' ')).length, cs.dropWhile (· == ' '))
  | _ => none

theorem itemBody?_eq_some {content body : List Char} {offset : Nat} (h : itemBody? content = some (offset, body)) :
    content = ['-'] ∧ offset = 1 ∧ body = [] ∨
      ∃ cs, content = '-' :: ' ' :: cs ∧ offset = 2 + (cs.takeWhile (· == ' ')).length ∧
        body = cs.dropWhile (· == ' ') := by
  unfold itemBody? at h
  split at h
  · cases h
    exact .inl ⟨rfl, rfl, rfl⟩
  · cases h
    exact .inr ⟨_, rfl, rfl, rfl⟩
  · cases h

theorem length_lt_of_itemBody? {content body : List Char} {offset : Nat}
    (h : itemBody? content = some (offset, body)) :
    body.length < content.length := by
  obtain ⟨rfl, -, rfl⟩ | ⟨cs, rfl, -, rfl⟩ := itemBody?_eq_some h
  · exact Nat.one_pos
  · have := (List.dropWhile_sublist (· == ' ') (l := cs)).length_le
    simp only [List.length_cons]
    omega

theorem offset_pos {content body : List Char} {offset : Nat} (h : itemBody? content = some (offset, body)) :
    0 < offset := by
  obtain ⟨-, rfl, -⟩ | ⟨cs, -, rfl, -⟩ := itemBody?_eq_some h <;> omega

namespace Frames

/-- **Why reading ends early**: a fault of the line, a value without a slot to go to, or no frame where the innermost
one is asked for. -/
inductive Failure where
  | fault (fault : Fault)
  | slotMissing
  | frameMissing
  deriving DecidableEq, Repr

inductive Container where
  | entries (es : Entries)
  | items (vs : List Value)

inductive Slot where
  | key (name : String)
  | item
  deriving DecidableEq, Repr

structure Frame where
  column : Nat
  container : Container
  pending : Option Slot

/-- Puts a value into the slot that waits. -/
def Frame.fill (value : Value) (f : Frame) : Except Failure Frame :=
  match f.pending, f.container with
  | some (.key k), .entries es => .ok ⟨f.column, .entries (es.put k value), none⟩
  | some .item, .items vs => .ok ⟨f.column, .items (vs ++ [value]), none⟩
  | _, _ => .error .slotMissing

def Frame.settle (f : Frame) : Except Failure Frame :=
  if f.pending.isSome then f.fill .null else .ok f

def Container.value : Container → Value
  | .entries es => .object es
  | .items vs => .array vs

def Frame.value (f : Frame) : Except Failure Value := do
  let settled ← f.settle
  return settled.container.value

def Frame.isSequence (f : Frame) : Bool :=
  match f.container with
  | .entries _ => false
  | .items _ => true

/-- **The slot of a frame, if it has one, fits its container.** -/
def Frame.Fits (f : Frame) : Prop :=
  match f.pending, f.container with
  | some (.key _), .items _ => False
  | some .item, .entries _ => False
  | _, _ => True

/-- **A frame holds something or has a slot.** -/
def Frame.Begun (f : Frame) : Prop :=
  (match f.container with
    | .entries es => es ≠ []
    | .items vs => vs ≠ []) ∨ f.pending.isSome

/-- **A frame may stand on another**: to its right, or, a sequence, at the column of the key that waits for it. -/
def Frame.On (upper lower : Frame) : Prop :=
  lower.column < upper.column ∨
    lower.column = upper.column ∧ upper.isSequence ∧ ¬ lower.isSequence ∧ ∃ k, lower.pending = some (.key k)

/-- **How far reading has come**: the frames, innermost first, or a document that is one scalar. -/
structure Decoder where
  frames : List Frame
  root : Option Scalar

namespace Decoder

def empty : Decoder := ⟨[], none⟩

def top (d : Decoder) : Except Failure Frame :=
  match d.frames with
  | f :: _ => .ok f
  | [] => .error .frameMissing

def modifyTop (change : Frame → Except Failure Frame) (d : Decoder) : Except Failure Decoder :=
  match d.frames with
  | f :: fs => do
    let f' ← change f
    return { d with frames := f' :: fs }
  | [] => .error .frameMissing

def push (f : Frame) (d : Decoder) : Decoder :=
  { d with frames := f :: d.frames }

def closeTop (d : Decoder) : Except Failure Decoder :=
  match d.frames with
  | [] => .ok d
  | f :: fs => do
    let v ← f.value
    if fs.isEmpty then return { d with frames := [] }
    else modifyTop (·.fill v) { d with frames := fs }

theorem length_modifyTop {change : Frame → Except Failure Frame} {d d' : Decoder} (h : d.modifyTop change = .ok d') :
    d'.frames.length = d.frames.length := by
  unfold modifyTop at h
  split at h
  · rename_i f fs hf
    cases hc : change f with
    | error e => rw [hc] at h; cases h
    | ok f' =>
      rw [hc] at h
      cases h
      rw [hf]
      rfl
  · cases h

theorem length_closeTop {d d' : Decoder} (hd : 0 < d.frames.length) (h : d.closeTop = .ok d') :
    d'.frames.length < d.frames.length := by
  unfold closeTop at h
  split at h
  · rename_i hf
    rw [hf] at hd
    cases hd
  · rename_i f fs hf
    rw [hf]
    cases hv : f.value with
    | error e => rw [hv] at h; cases h
    | ok v =>
      rw [hv] at h
      simp only [bind, Except.bind] at h
      split at h
      · cases h
        exact Nat.succ_pos _
      · have hl : d'.frames.length = fs.length := length_modifyTop h
        simp only [List.length_cons]
        omega

def closeRight (column : Nat) (d : Decoder) : Except Failure Decoder :=
  if h : 1 < d.frames.length then do
    let f ← d.top
    if column < f.column then
      match hc : d.closeTop with
      | .ok d' =>
        have := length_closeTop (by omega) hc
        closeRight column d'
      | .error e => .error e
    else return d
  else return d
termination_by d.frames.length

def enter (content : List Char) (d : Decoder) : Except Failure Decoder :=
  match entryParts? content with
  | none => .error (.fault .expectedEntry)
  | some (key, text) =>
    let name := (Quoted.unquote? key).getD key
    if name.isEmpty then .error (.fault .emptyKey)
    else d.modifyTop fun f =>
      let waiting := { f with pending := some (.key (String.ofList name)) }
      if text.isEmpty then .ok waiting else waiting.fill (.scalar (.ofText text))

mutual

/-- Starts an item in the innermost frame, with the text behind the dash. -/
def startItem (column : Nat) (body : List Char) (d : Decoder) : Except Failure Decoder := do
  let d ← d.modifyTop fun f => .ok { f with pending := some .item }
  if body.isEmpty then return d else openNested column body d
termination_by (body.length, 1)

/-- A content further right than the innermost frame is the value of its slot. -/
def openNested (column : Nat) (content : List Char) (d : Decoder) : Except Failure Decoder := do
  let f ← d.top
  if f.pending.isNone then .error (.fault .unmatchedIndentation)
  else
    match h : itemBody? content with
    | some (offset, body) =>
      have := length_lt_of_itemBody? h
      startItem (column + offset) body (d.push ⟨column, .items [], none⟩)
    | none =>
      if (entryParts? content).isSome then enter content (d.push ⟨column, .entries [], none⟩)
      else d.modifyTop (·.fill (.scalar (.ofText content)))
termination_by (content.length, 0)

end

def openRoot (column : Nat) (content : List Char) (d : Decoder) : Except Failure Decoder :=
  match itemBody? content with
  | some (offset, body) => startItem (column + offset) body (d.push ⟨column, .items [], none⟩)
  | none =>
    if (entryParts? content).isSome then enter content (d.push ⟨column, .entries [], none⟩)
    else .ok { d with root := some (.ofText content) }

/-- A content at the column of the innermost frame.  Where it is no item, a sequence at the column of the mapping
below ends, and the content is taken again. -/
def continueBlock (column : Nat) (content : List Char) (d : Decoder) : Except Failure Decoder := do
  let f ← d.top
  match f.isSequence, itemBody? content with
  | true, some (offset, body) =>
    let d ← d.modifyTop Frame.settle
    startItem (column + offset) body d
  | true, none =>
    match hd : d.frames with
    | _ :: parent :: _ =>
      if parent.column = column ∧ ¬ parent.isSequence then
        match hc : d.closeTop with
        | .ok d' =>
          have := length_closeTop (hd ▸ Nat.succ_pos _) hc
          continueBlock column content d'
        | .error e => .error e
      else .error (.fault .expectedItem)
    | _ => .error (.fault .expectedItem)
  | false, some (offset, body) =>
    match f.pending with
    | some (.key _) => startItem (column + offset) body (d.push ⟨column, .items [], none⟩)
    | _ => .error (.fault .itemInMapping)
  | false, none =>
    let d ← d.modifyTop Frame.settle
    enter content d
termination_by d.frames.length

def feed (line : Line) (d : Decoder) : Except Failure Decoder :=
  if d.root.isSome then .error (.fault .afterScalar)
  else if d.frames.isEmpty then openRoot line.column line.content d
  else do
    let d ← d.closeRight line.column
    let f ← d.top
    if line.column < f.column then .error (.fault .leftOfDocument)
    else if line.column = f.column then continueBlock line.column line.content d
    else openNested line.column line.content d

def feedAll : List Line → Decoder → Except Failure Decoder
  | [], d => .ok d
  | line :: rest, d => do
    let d ← feed line d
    feedAll rest d

def closeAll (d : Decoder) : Except Failure Decoder :=
  if h : 1 < d.frames.length then
    match hc : d.closeTop with
    | .ok d' =>
      have := length_closeTop (by omega) hc
      closeAll d'
    | .error e => .error e
  else return d
termination_by d.frames.length

def finish (d : Decoder) : Except Failure Value :=
  match d.root with
  | some s => .ok (.scalar s)
  | none => do
    let d ← d.closeAll
    match d.frames with
    | f :: _ => f.value
    | [] => return .object []

def feedTexts (number : Nat) (d : Decoder) : List (List Char) → Except (Failure × Nat) Decoder
  | [] => .ok d
  | raw :: rest =>
    match LineReading.ofText raw with
    | .blank => feedTexts (number + 1) d rest
    | .tabbed => .error (.fault .tabIndentation, number)
    | .content line =>
      if isDocumentEnd line || (isDocumentStart line && d.frames.isEmpty && d.root.isNone) then
        feedTexts (number + 1) d rest
      else if isDocumentStart line then .error (.fault .severalDocuments, number)
      else
        match d.feed line with
        | .ok next => feedTexts (number + 1) next rest
        | .error failure => .error (failure, number)

end Decoder

/-- A whole document.  The failure of a decoder that cannot end counts for the line behind the last. -/
def document (cs : List Char) : Except (Failure × Nat) Value :=
  match Decoder.empty.feedTexts 1 (Text.lines cs) with
  | .ok d => d.finish.mapError (·, (Text.lines cs).length + 1)
  | .error e => .error e

end Frames
end DocQuery.Yaml
