import DocQuery.Path.Basic
import DocQuery.Text.Blank
/-!
# Paths from text

A path is read character by character.  Where reading stands is one of four phases, so every character is looked at
once and the first one that does not fit is the fault.  The error quotes the dotted part of the text in which it
happened.
-/
namespace DocQuery.Path

inductive Fault where
  | expectedKey
  | unexpected (c : Char)
  | unterminated
  | badIndex (content : List Char)
  | indexTooLarge (content : List Char)
  deriving DecidableEq, Repr

def Fault.message : Fault → String
  | .expectedKey => "expected a key"
  | .unexpected c => s!"unexpected character '{c}'"
  | .unterminated => "unterminated '['"
  | .badIndex content => s!"expected a non-negative index or '*', found '{String.ofList content}'"
  | .indexTooLarge content => s!"index {String.ofList content} is too large"

/-- **A malformed path**: the part of the text at fault, and what is wrong with it. -/
structure Malformed where
  segment : List Char
  fault : Fault
  deriving DecidableEq, Repr

def Malformed.message (e : Malformed) : String :=
  s!"Invalid path segment '{String.ofList e.segment}': {e.fault.message}"

def dottedPart (depth : Nat) : List Char → List Char
  | [] => []
  | c :: cs =>
    if c = '[' then c :: dottedPart (depth + 1) cs
    else if c = ']' then c :: dottedPart (depth - 1) cs
    else if c = '.' && depth = 0 then []
    else c :: dottedPart depth cs

/-- One past the greatest position: that of sixty-four bits without a sign. -/
def indexLimit : Nat := Nat.pow 2 64

def bracketStep (content : List Char) : Except Fault Segment :=
  let trimmed := Text.trim content
  if trimmed = ['*'] then .ok .wildcard
  else if trimmed.isEmpty || !trimmed.all Char.isDigit then .error (.badIndex trimmed)
  else
    let position := Nat.ofDigitChars 10 trimmed 0
    if position < indexLimit then .ok (.index position) else .error (.indexTooLarge trimmed)

/-- **Where reading stands**: before a part, inside a key, inside brackets, or behind brackets. -/
inductive Phase where
  | start
  | name (read : List Char)
  | bracket (read : List Char)
  | closed

/-- The steps of the text from a place on.  `here` is the text from the start of the present dotted part, and
`previous` that from the start of the one before it; they serve the error only, but that brackets may start the
first part and no other. -/
def steps (previous : Option (List Char)) (here : List Char) : Phase → List Char → Except Malformed (List Segment)
  | .start, [] => .error ⟨missingKey, .expectedKey⟩
  | .start, c :: cs =>
    if c = '[' && previous.isNone then steps previous here (.bracket []) cs
    else if c = '.' || c = '[' || c = ']' then .error ⟨missingKey, .expectedKey⟩
    else steps previous here (.name [c]) cs
  | .name read, [] => .ok [.key (String.ofList read)]
  | .name read, c :: cs =>
    if c = '.' then (steps (some here) cs .start cs).map (.key (String.ofList read) :: ·)
    else if c = '[' then (steps previous here (.bracket []) cs).map (.key (String.ofList read) :: ·)
    else if c = ']' then .error ⟨dottedPart 0 here, .unexpected c⟩
    else steps previous here (.name (read ++ [c])) cs
  | .bracket _, [] => .error ⟨dottedPart 0 here, .unterminated⟩
  | .bracket read, c :: cs =>
    if c = ']' then
      match bracketStep read with
      | .ok step => (steps previous here .closed cs).map (step :: ·)
      | .error fault => .error ⟨dottedPart 0 here, fault⟩
    else steps previous here (.bracket (read ++ [c])) cs
  | .closed, [] => .ok []
  | .closed, c :: cs =>
    if c = '.' then steps (some here) cs .start cs
    else if c = '[' then steps previous here (.bracket []) cs
    else .error ⟨dottedPart 0 here, .unexpected c⟩
where
  /-- The text in front of a missing key: the part before it with its dot, or all there is. -/
  missingKey : List Char :=
    match previous with
    | some before => before.take (before.length - here.length)
    | none => here

/-- The path that a text stands for.  Blanks around it do not count, and a text of nothing else is the path
without steps. -/
def parse (text : String) : Except Malformed Path :=
  match Text.trim text.toList with
  | [] => .ok []
  | c :: cs => steps none (c :: cs) .start (c :: cs)

end DocQuery.Path
