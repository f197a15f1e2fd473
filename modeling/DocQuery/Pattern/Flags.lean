import DocQuery.Text.Blank
/-!
# Flags of a pattern

Flags change how the pattern behind them is read, up to the end of the group in which they are set.  In a verbose
pattern blanks and comments do not count.
-/
namespace DocQuery.Pattern

structure Flags where
  ignoreCase : Bool
  multiLine : Bool
  dotMatchesNewline : Bool
  unicode : Bool
  crlf : Bool
  verbose : Bool
  deriving DecidableEq, Repr

def Flags.initial (ignoreCase : Bool) : Flags :=
  ⟨ignoreCase, false, false, true, false, false⟩

/-- A flag by its letter.  The letter for lazy repetitions is accepted and changes nothing. -/
def Flags.set? (flags : Flags) (letter : Char) (value : Bool) : Option Flags :=
  match letter with
  | 'i' => some { flags with ignoreCase := value }
  | 'm' => some { flags with multiLine := value }
  | 's' => some { flags with dotMatchesNewline := value }
  | 'u' => some { flags with unicode := value }
  | 'R' => some { flags with crlf := value }
  | 'x' => some { flags with verbose := value }
  | 'U' => some flags
  | _ => none

/-- The letters up to a colon or a closing parenthesis, the first of which have already been `seen`. -/
def Flags.readLetters (flags : Flags) (value : Bool) (seen : List Char) : List Char → Option (Flags × List Char)
  | [] => none
  | c :: cs =>
    if c = ':' || c = ')' then if seen.head? = some '-' then none else some (flags, c :: cs)
    else if seen.contains c then none
    else if c = '-' then readLetters flags false (c :: seen) cs
    else
      match flags.set? c value with
      | some flags => readLetters flags value (c :: seen) cs
      | none => none

/-- The flags named up to a colon or a closing parenthesis, and the text from there.  No letter may come twice,
and a minus sign must have a letter behind it. -/
def Flags.read (flags : Flags) (cs : List Char) : Option (Flags × List Char) :=
  flags.readLetters true [] cs

/-- The text behind blanks and comments; a comment runs from a number sign to the end of the line. -/
def skipVerbose (inComment : Bool) : List Char → List Char
  | [] => []
  | c :: cs =>
    if inComment then skipVerbose (c != '\n') cs
    else if Text.isBlank c then skipVerbose false cs
    else if c = '#' then skipVerbose true cs
    else c :: cs

def Flags.skip (flags : Flags) (cs : List Char) : List Char :=
  if flags.verbose then skipVerbose false cs else cs

/-- The text up to a closing brace without what does not count in it, and the text behind the brace. -/
def bracedVerbose (verbose inComment : Bool) : List Char → Option (List Char × List Char)
  | [] => none
  | c :: cs =>
    if inComment then bracedVerbose verbose (c != '\n') cs
    else if verbose && Text.isBlank c then bracedVerbose verbose false cs
    else if verbose && c = '#' then bracedVerbose verbose true cs
    else if c = '}' then some ([], cs)
    else (bracedVerbose verbose false cs).map fun (name, rest) => (c :: name, rest)

def Flags.braced (flags : Flags) (cs : List Char) : Option (List Char × List Char) :=
  bracedVerbose flags.verbose false cs

end DocQuery.Pattern
