import DocQuery.Toml.Basic
import DocQuery.Toml.Literal
/-!
# Settings files

A file is read line by line; a value may run over several lines if it is an array or a string between three quotes.
A file that breaks a rule anywhere has no table at all, so a reader returns nothing rather than an error.
-/
namespace DocQuery.Toml

/-! ## White space -/

def isSpace (c : Char) : Bool :=
  c == ' ' || c == '\t'

def skipSpace (cs : List Char) : List Char :=
  cs.dropWhile isSpace

def isPlain (c : Char) : Bool :=
  c == '\t' || (0x20 ≤ c.toNat && c.toNat != 0x7f)

def newline? : List Char → Option (List Char)
  | '\n' :: r => some r
  | '\r' :: '\n' :: r => some r
  | _ => none

def skipComment (cs : List Char) : List Char :=
  match cs with
  | '#' :: r => r.dropWhile isPlain
  | r => r

def endLine? (cs : List Char) : Option (List Char) :=
  match skipComment (skipSpace cs) with
  | [] => some []
  | r => newline? r

def skipLines : Nat → List Char → List Char
  | 0, cs => cs
  | fuel + 1, cs =>
    let r := skipComment (skipSpace cs)
    match newline? r with
    | some r => skipLines fuel r
    | none => r

/-! ## Strings -/

/-- The character that the given number of hexadecimal digits stands for. -/
def codeEscape? (digits : Nat) (cs : List Char) : Option (Char × List Char) := do
  let c ← (Text.hexNumber? (cs.take digits)).bind Text.charOfCode?
  if digits ≤ cs.length then return (c, cs.drop digits) else none

def escape? (cs : List Char) : Option (Char × List Char) :=
  match cs with
  | 'b' :: r => some ('\x08', r)
  | 't' :: r => some ('\t', r)
  | 'n' :: r => some ('\n', r)
  | 'f' :: r => some ('\x0c', r)
  | 'r' :: r => some ('\r', r)
  | '"' :: r => some ('"', r)
  | '\\' :: r => some ('\\', r)
  | 'u' :: r => codeEscape? 4 r
  | 'U' :: r => codeEscape? 8 r
  | _ => none

/-- A string on one line, read behind its opening quote.  Only double quotes know escapes. -/
def lineString (quote : Char) : Nat → List Char → Option (List Char × List Char)
  | 0, _ => none
  | fuel + 1, cs =>
    match cs with
    | [] => none
    | c :: r =>
      if c = quote then some ([], r)
      else if c = '\\' && quote = '"' then do
        let (d, r) ← escape? r
        let (s, r) ← lineString quote fuel r
        return (d :: s, r)
      else if isPlain c then do
        let (s, r) ← lineString quote fuel r
        return (c :: s, r)
      else none

def skipGap : List Char → List Char
  | '\r' :: '\n' :: r => skipGap r
  | c :: r => if isSpace c || c = '\n' then skipGap r else c :: r
  | [] => []

/-- A string between three quotes, read behind them.  Up to two quotes may stand in front of the closing three, and
a backslash at the end of a line joins what is behind the following blanks. -/
def longString (quote : Char) : Nat → List Char → Option (List Char × List Char)
  | 0, _ => none
  | fuel + 1, cs =>
    let quotes := (cs.takeWhile (· == quote)).length
    if 3 ≤ quotes then
      if quotes ≤ 5 then some (List.replicate (quotes - 3) quote, cs.drop quotes) else none
    else
      match cs with
      | [] => none
      | '\\' :: r =>
        if quote = '"' then
          match newline? (skipSpace r) with
          | some r => longString quote fuel (skipGap r)
          | none => do
            let (d, r) ← escape? r
            let (s, r) ← longString quote fuel r
            return (d :: s, r)
        else do
          let (s, r) ← longString quote fuel r
          return ('\\' :: s, r)
      | c :: r =>
        match newline? (c :: r) with
        | some r => do
          let (s, r) ← longString quote fuel r
          return ('\n' :: s, r)
        | none =>
          if isPlain c then do
            let (s, r) ← longString quote fuel r
            return (c :: s, r)
          else none

def string? (cs : List Char) : Option (List Char × List Char) :=
  let fuel := cs.length + 1
  match cs with
  | '"' :: '"' :: '"' :: r => longString '"' fuel ((newline? r).getD r)
  | '\'' :: '\'' :: '\'' :: r => longString '\'' fuel ((newline? r).getD r)
  | '"' :: r => lineString '"' fuel r
  | '\'' :: r => lineString '\'' fuel r
  | _ => none

/-! ## Keys -/

def isBareKeyChar (c : Char) : Bool :=
  c.isAlphanum || c == '_' || c == '-'

def simpleKey? (cs : List Char) : Option (String × List Char) :=
  let fuel := cs.length + 1
  let quoted := match cs with
    | '"' :: r => lineString '"' fuel r
    | '\'' :: r => lineString '\'' fuel r
    | _ =>
      if (cs.takeWhile isBareKeyChar).isEmpty then none
      else some (cs.takeWhile isBareKeyChar, cs.dropWhile isBareKeyChar)
  quoted.map fun (name, r) => (String.ofList name, r)

def key? : Nat → List Char → Option (List String × List Char)
  | 0, _ => none
  | fuel + 1, cs => do
    let (name, r) ← simpleKey? cs
    match skipSpace r with
    | '.' :: r => do
      let (names, r) ← key? fuel (skipSpace r)
      return (name :: names, r)
    | r => return ([name], r)

/-! ## Values -/

def isWordChar (c : Char) : Bool :=
  c.isAlphanum || c == '_' || c == '+' || c == '-' || c == '.' || c == ':'

def bareValue? (cs : List Char) : Option (Value × List Char) :=
  let word := cs.takeWhile isWordChar
  let rest := cs.dropWhile isWordChar
  let time := (rest.drop 1).takeWhile isWordChar
  if word = ['t', 'r', 'u', 'e'] then some (.boolean true, rest)
  else if word = ['f', 'a', 'l', 's', 'e'] then some (.boolean false, rest)
  else if isDate word && rest.head? == some ' ' && isOffsetTime time then
    some (.dateTime (String.ofList (word ++ ' ' :: time)), (rest.drop 1).dropWhile isWordChar)
  else if isDateTime word then some (.dateTime (String.ofList word), rest)
  else if isInteger word || isFloat word then some (.number (String.ofList word), rest)
  else none

def inlineTable? (pairs : List (List String × Value)) : Option Value :=
  (pairs.foldlM (fun nodes (key, value) => Nodes.assign key value nodes) []).map fun nodes =>
    .table (entryValues nodes)

mutual

/-- A value.  `fuel` bounds the number of parts; the length of the text is enough. -/
def value? : Nat → List Char → Option (Value × List Char)
  | 0, _ => none
  | fuel + 1, cs =>
    match cs with
    | '"' :: r => (string? ('"' :: r)).map fun (s, r) => (.string (String.ofList s), r)
    | '\'' :: r => (string? ('\'' :: r)).map fun (s, r) => (.string (String.ofList s), r)
    | '[' :: r => do
      let (items, r) ← items? fuel r
      return (.array items, r)
    | '{' :: r => do
      let (pairs, r) ← match skipSpace r with
        | '}' :: r => some ([], r)
        | r => pairs? fuel r
      return (← inlineTable? pairs, r)
    | r => bareValue? r

/-- The elements of an array, up to its closing bracket; a comma may stand behind the last. -/
def items? : Nat → List Char → Option (List Value × List Char)
  | 0, _ => none
  | fuel + 1, cs =>
    match skipLines (cs.length + 1) cs with
    | ']' :: r => some ([], r)
    | r => do
      let (v, r) ← value? fuel r
      match skipLines (r.length + 1) r with
      | ',' :: r => do
        let (vs, r) ← items? fuel r
        return (v :: vs, r)
      | ']' :: r => return ([v], r)
      | _ => none

/-- The assignments of a table in braces, up to its closing brace. -/
def pairs? : Nat → List Char → Option (List (List String × Value) × List Char)
  | 0, _ => none
  | fuel + 1, cs => do
    let (key, r) ← key? (cs.length + 1) (skipSpace cs)
    match skipSpace r with
    | '=' :: r => do
      let (v, r) ← value? fuel (skipSpace r)
      match skipSpace r with
      | ',' :: r => do
        let (rest, r) ← pairs? fuel r
        return ((key, v) :: rest, r)
      | '}' :: r => return ([(key, v)], r)
      | _ => none
    | _ => none

end

/-! ## Lines -/

def line? (cs : List Char) : Option (Line × List Char) :=
  let fuel := cs.length + 1
  match cs with
  | '[' :: '[' :: r => do
    let (path, r) ← key? fuel (skipSpace r)
    match skipSpace r with
    | ']' :: ']' :: r => return (.seriesHeader path, ← endLine? r)
    | _ => none
  | '[' :: r => do
    let (path, r) ← key? fuel (skipSpace r)
    match skipSpace r with
    | ']' :: r => return (.header path, ← endLine? r)
    | _ => none
  | r => do
    let (key, r) ← key? fuel r
    match skipSpace r with
    | '=' :: r => do
      let (v, r) ← value? fuel (skipSpace r)
      return (.assign key v, ← endLine? r)
    | _ => none

/-- All lines of a text.  `fuel` bounds their number; each takes at least one character. -/
def lines? : Nat → List Char → Option (List Line)
  | 0, _ => none
  | fuel + 1, cs =>
    match skipLines (cs.length + 1) cs with
    | [] => some []
    | r => do
      let (line, r) ← line? r
      return line :: (← lines? fuel r)

/-- The table of a settings file, if the file follows all rules.  A byte order mark may stand in front. -/
def parse? (text : String) : Option (List (String × Value)) := do
  let cs := match text.toList with
    | '\ufeff' :: r => r
    | r => r
  let lines ← lines? (cs.length + 1) cs
  let nodes ← Nodes.build [] [] lines
  return entryValues nodes

end DocQuery.Toml
