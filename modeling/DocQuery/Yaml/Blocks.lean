import DocQuery.Yaml.Mark
import DocQuery.Scalar.Bare
import DocQuery.Value.Basic
/-!
# Open blocks

A block document is read mark by mark.  The blocks that are open form a stack: the innermost one, and below it
blocks that each wait for the value of a key or of an item.  A mark to the left of the innermost block closes it
into the one below, a mark at its column continues it, and a mark to the right opens the value it waits for.
-/
namespace DocQuery.Yaml

inductive Fault where
  | tabIndentation
  | severalDocuments
  | afterScalar
  | leftOfDocument
  | expectedItem
  | itemInMapping
  | unmatchedIndentation
  | expectedEntry
  | emptyKey
  deriving DecidableEq, Repr

def Fault.message : Fault → String
  | .tabIndentation => "tab character in indentation (use spaces)"
  | .severalDocuments => "multiple documents are not supported"
  | .afterScalar => "unexpected content after a scalar document"
  | .leftOfDocument => "line is indented less than the start of the document"
  | .expectedItem => "expected a sequence item ('- ') at this indentation"
  | .itemInMapping => "sequence item where a mapping key was expected"
  | .unmatchedIndentation => "indentation does not match any open block"
  | .expectedEntry => "expected 'key: value'"
  | .emptyKey => "empty mapping key"

/-- **The innermost open block.**  A mapping may wait for the value of its last key, and a sequence for that of its
last item. -/
inductive Block where
  | mapping (column : Nat) (entries : Entries) (pending : Option String)
  | sequence (column : Nat) (items : List Value) (pending : Bool)

/-- **An open block with another block inside**: one that waits for a value. -/
inductive Waiting where
  | key (column : Nat) (entries : Entries) (key : String)
  | item (column : Nat) (items : List Value)

def Block.column : Block → Nat
  | .mapping c _ _ => c
  | .sequence c _ _ => c

def Waiting.column : Waiting → Nat
  | .key c _ _ => c
  | .item c _ => c

def Waiting.fill (value : Value) : Waiting → Block
  | .key c es k => .mapping c (es.put k value) none
  | .item c vs => .sequence c (vs ++ [value]) false

def Block.waiting? : Block → Option Waiting
  | .mapping c es (some k) => some (.key c es k)
  | .sequence c vs true => some (.item c vs)
  | _ => none

def Block.settle (block : Block) : Block :=
  match block.waiting? with
  | some w => w.fill .null
  | none => block

/-- What a block amounts to when it ends. -/
def Block.value (block : Block) : Value :=
  match block.settle with
  | .mapping _ es _ => .object es
  | .sequence _ vs _ => .array vs

/-- **How far reading has come**: nothing yet, a document that is one scalar, or open blocks. -/
inductive State where
  | start
  | scalar (value : Scalar)
  | blocks (top : Block) (below : List Waiting)

namespace State

/-- The blocks left open by a mark at a column: those to its right are closed, except the outermost. -/
def dedent (column : Nat) : Block → List Waiting → Block × List Waiting
  | top, [] => (top, [])
  | top, w :: ws => if column < top.column then dedent column (w.fill top.value) ws else (top, w :: ws)

def enter (column : Nat) (entries : Entries) (key value : List Char) (below : List Waiting) :
    Except Fault State :=
  let name := (Quoted.unquote? key).getD key
  if name.isEmpty then .error .emptyKey
  else if value.isEmpty then .ok (.blocks (.mapping column entries (some (String.ofList name))) below)
  else .ok (.blocks (.mapping column (entries.put (String.ofList name) (.scalar (.ofText value))) none) below)

/-- A mark opens a value: a sequence with its first item, a mapping with its first entry, or a scalar, which
`done` puts where it belongs. -/
def openValue (column : Nat) (mark : Mark) (below : List Waiting) (done : Scalar → State) : Except Fault State :=
  match mark with
  | .item => .ok (.blocks (.sequence column [] true) below)
  | .entry key value => enter column [] key value below
  | .text cs => .ok (done (.ofText cs))

def continueMapping (column : Nat) (entries : Entries) (pending : Option String) (mark : Mark)
    (below : List Waiting) : Except Fault State :=
  match mark, pending with
  | .item, some key => .ok (.blocks (.sequence column [] true) (.key column entries key :: below))
  | .item, none => .error .itemInMapping
  | .entry key value, none => enter column entries key value below
  | .entry key value, some k => enter column (entries.put k .null) key value below
  | .text _, _ => .error .expectedEntry

/-- A mark continues a sequence at its column.  A sequence may stand at the column of the key that it belongs to,
and then anything but an item ends it and continues the mapping. -/
def continueSequence (column : Nat) (items : List Value) (pending : Bool) (mark : Mark) (below : List Waiting) :
    Except Fault State :=
  let settled := if pending then items ++ [.null] else items
  match mark, below with
  | .item, _ => .ok (.blocks (.sequence column settled true) below)
  | _, .key c es k :: ws =>
    if c = column then continueMapping column (es.put k (.array settled)) none mark ws else .error .expectedItem
  | _, _ => .error .expectedItem

def step (state : State) (column : Nat) (mark : Mark) : Except Fault State :=
  match state with
  | .start => openValue column mark [] .scalar
  | .scalar _ => .error .afterScalar
  | .blocks top below =>
    let (top, below) := dedent column top below
    if column < top.column then .error .leftOfDocument
    else if column = top.column then
      match top with
      | .mapping c es pending => continueMapping c es pending mark below
      | .sequence c vs pending => continueSequence c vs pending mark below
    else
      match top.waiting? with
      | none => .error .unmatchedIndentation
      | some w => openValue column mark (w :: below) fun s => .blocks (w.fill (.scalar s)) below

def feed (state : State) : List (Nat × Mark) → Except Fault State
  | [] => .ok state
  | (column, mark) :: rest =>
    match state.step column mark with
    | .ok next => next.feed rest
    | .error fault => .error fault

def closeAll : Block → List Waiting → Value
  | top, [] => top.value
  | top, w :: ws => closeAll (w.fill top.value) ws

/-- The document at the end of its text.  A text without content is the empty object. -/
def finish : State → Value
  | .start => .object []
  | .scalar s => .scalar s
  | .blocks top below => closeAll top below

end State
end DocQuery.Yaml
