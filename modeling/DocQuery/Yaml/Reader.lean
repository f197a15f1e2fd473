import DocQuery.Yaml.Blocks
import DocQuery.Text.Lines
/-!
# Values from block documents

The lines of a text are fed to the open blocks one after the other, and the first line that does not fit is the
line of the error.  Lines that only separate documents are skipped where there is nothing to separate.
-/
namespace DocQuery.Yaml

structure Halt where
  fault : Fault
  line : Nat
  deriving DecidableEq, Repr

def isDocumentEnd (line : Line) : Bool :=
  line.column == 0 && line.content == ['.', '.', '.']

def isDocumentStart (line : Line) : Bool :=
  line.column == 0 && line.content == ['-', '-', '-']

def State.isStart : State → Bool
  | .start => true
  | _ => false

/-- The state after a line with content.  A second document is refused, and the end of one is passed over. -/
def State.feedLine (state : State) (line : Line) : Except Fault State :=
  if isDocumentEnd line then .ok state
  else if isDocumentStart line then if state.isStart then .ok state else .error .severalDocuments
  else state.feed line.marks

def State.feedText (state : State) (raw : List Char) : Except Fault State :=
  match LineReading.ofText raw with
  | .blank => .ok state
  | .tabbed => .error .tabIndentation
  | .content line => state.feedLine line

def State.feedTexts (state : State) (number : Nat) : List (List Char) → Except Halt State
  | [] => .ok state
  | raw :: rest =>
    match state.feedText raw with
    | .ok next => next.feedTexts (number + 1) rest
    | .error fault => .error ⟨fault, number⟩

def document (cs : List Char) : Except Halt Value :=
  (State.start.feedTexts 1 (Text.lines cs)).map State.finish

end DocQuery.Yaml
