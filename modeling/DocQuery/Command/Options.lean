import DocQuery.Output
/-!
# Options of the command line

The arguments name a document, may name a query, and carry options.  They are read from left to right; the first
thing that decides the run, be it a request for help or a fault, ends reading.
-/
namespace DocQuery.Command

inductive Setting where
  | filter
  | search
  | format
  deriving DecidableEq, Repr

inductive Switch where
  | caseSensitive
  | stats
  | noPretty
  | yaml
  | verbose
  | help
  | version
  deriving DecidableEq, Repr

inductive Flag where
  | setting (s : Setting)
  | switch (s : Switch)
  deriving DecidableEq, Repr

def longNames : List (String × Flag) :=
  [("filter", .setting .filter), ("search", .setting .search), ("case-sensitive", .switch .caseSensitive),
    ("stats", .switch .stats), ("format", .setting .format), ("no-pretty", .switch .noPretty),
    ("yaml", .switch .yaml), ("verbose", .switch .verbose), ("help", .switch .help), ("version", .switch .version)]

def shortNames : List (Char × Flag) :=
  [('f', .setting .filter), ('s', .setting .search), ('v', .switch .verbose), ('h', .switch .help),
    ('V', .switch .version)]

def Flag.text (flag : Flag) : String :=
  match longNames.find? fun entry => entry.2 == flag with
  | some (name, _) => "--" ++ name
  | none => ""

inductive UsageError where
  | unknownOption (argument : String)
  | repeatedOption (flag : Flag)
  | missingValue (setting : Setting)
  | unexpectedValue (switch : Switch)
  | unknownFormat (value : String)
  | extraArgument (argument : String)
  | missingFile
  deriving DecidableEq, Repr

/-- The words of the argument parser are not followed here: what counts is that the run is refused. -/
def UsageError.message : UsageError → String
  | .unknownOption argument => s!"unexpected argument '{argument}' found"
  | .repeatedOption flag => s!"the option '{flag.text}' cannot be used more than once"
  | .missingValue setting => s!"a value is required for '{(Flag.setting setting).text}' but none was given"
  | .unexpectedValue switch => s!"unexpected value for '{(Flag.switch switch).text}'"
  | .unknownFormat value => s!"invalid value '{value}' for '--format' (one of json, csv, keys, values, plain)"
  | .extraArgument argument => s!"unexpected argument '{argument}' found"
  | .missingFile => "no file was given"

structure Options where
  file : String
  query : String
  filter : Option String
  search : Option String
  caseSensitive : Bool
  stats : Bool
  format : Option OutputFormat
  noPretty : Bool
  yaml : Bool
  deriving DecidableEq, Repr

inductive Stop where
  | help
  | version
  | misuse (error : UsageError)
  deriving DecidableEq, Repr

/-- **What the arguments read so far ask for.** -/
structure Draft where
  file : Option String := none
  query : Option String := none
  filter : Option String := none
  search : Option String := none
  caseSensitive : Bool := false
  stats : Bool := false
  format : Option OutputFormat := none
  noPretty : Bool := false
  yaml : Bool := false
  deriving DecidableEq, Repr

namespace Draft

def fill {α : Type} (flag : Flag) (value : α) : Option α → Except Stop (Option α)
  | none => .ok (some value)
  | some _ => .error (.misuse (.repeatedOption flag))

def set (d : Draft) (setting : Setting) (value : String) : Except Stop Draft :=
  match setting with
  | .filter => do return { d with filter := ← fill (.setting .filter) value d.filter }
  | .search => do return { d with search := ← fill (.setting .search) value d.search }
  | .format =>
    match OutputFormat.ofName? value with
    | some format => do return { d with format := ← fill (.setting .format) format d.format }
    | none => .error (.misuse (.unknownFormat value))

def turnOn (switch : Switch) (on : Bool) : Except Stop Bool :=
  if on then .error (.misuse (.repeatedOption (.switch switch))) else .ok true

/-- Takes an option without a value.  `--verbose` may stand any number of times; it raises the level of the log, which
is no part of a report. -/
def apply (d : Draft) (switch : Switch) : Except Stop Draft :=
  match switch with
  | .caseSensitive => do return { d with caseSensitive := ← turnOn .caseSensitive d.caseSensitive }
  | .stats => do return { d with stats := ← turnOn .stats d.stats }
  | .noPretty => do return { d with noPretty := ← turnOn .noPretty d.noPretty }
  | .yaml => do return { d with yaml := ← turnOn .yaml d.yaml }
  | .verbose => .ok d
  | .help => .error .help
  | .version => .error .version

def operand (d : Draft) (argument : String) : Except Stop Draft :=
  match d.file, d.query with
  | none, _ => .ok { d with file := some argument }
  | some _, none => .ok { d with query := some argument }
  | some _, some _ => .error (.misuse (.extraArgument argument))

/-- Takes a run of short options.  An option with a value takes what is left of the run, less an equals sign in
front; when nothing is left its value is still to come. -/
def cluster (d : Draft) : List Char → Except Stop (Draft × Option Setting)
  | [] => .ok (d, none)
  | c :: rest =>
    match shortNames.lookup c with
    | none => .error (.misuse (.unknownOption (String.ofList ['-', c])))
    | some (.switch switch) =>
      match d.apply switch with
      | .ok d => cluster d rest
      | .error stop => .error stop
    | some (.setting setting) =>
      match rest with
      | [] => .ok (d, some setting)
      | '=' :: value => do return (← d.set setting (String.ofList value), none)
      | value => do return (← d.set setting (String.ofList value), none)

def long (d : Draft) (argument : List Char) : Except Stop (Draft × Option Setting) :=
  let name := String.ofList (argument.takeWhile (· != '='))
  match longNames.lookup name, argument.dropWhile (· != '=') with
  | none, _ => .error (.misuse (.unknownOption ("--" ++ name)))
  | some (.switch switch), [] => do return (← d.apply switch, none)
  | some (.switch switch), _ :: _ => .error (.misuse (.unexpectedValue switch))
  | some (.setting setting), [] => .ok (d, some setting)
  | some (.setting setting), _ :: value => do return (← d.set setting (String.ofList value), none)

/-- Takes all arguments.  `awaited` is the option whose value comes next.  A lone dash is an argument like any
other, and behind two dashes there are no more options. -/
def read (d : Draft) (awaited : Option Setting) : List String → Except Stop Draft
  | [] =>
    match awaited with
    | some setting => .error (.misuse (.missingValue setting))
    | none => .ok d
  | argument :: rest =>
    match argument.toList, awaited with
    | '-' :: _ :: _, some setting => .error (.misuse (.missingValue setting))
    | _, some setting =>
      match d.set setting argument with
      | .ok d => read d none rest
      | .error stop => .error stop
    | ['-', '-'], none => rest.foldlM operand d
    | '-' :: '-' :: name, none =>
      match d.long name with
      | .ok (d, awaited) => read d awaited rest
      | .error stop => .error stop
    | '-' :: c :: names, none =>
      match d.cluster (c :: names) with
      | .ok (d, awaited) => read d awaited rest
      | .error stop => .error stop
    | _, none =>
      match d.operand argument with
      | .ok d => read d none rest
      | .error stop => .error stop

end Draft

def Options.ofArguments (arguments : List String) : Except Stop Options :=
  match ({} : Draft).read none arguments with
  | .error stop => .error stop
  | .ok d =>
    match d.file with
    | none => .error (.misuse .missingFile)
    | some file =>
      .ok ⟨file, d.query.getD "", d.filter, d.search, d.caseSensitive, d.stats, d.format, d.noPretty, d.yaml⟩

end DocQuery.Command
