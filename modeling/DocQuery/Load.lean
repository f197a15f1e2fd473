import DocQuery.Decode
import DocQuery.Gzip.Decoder
/-!
# Loading documents

A document comes from a file or from standard input.  The name of a file decides on its format and on whether it is
compressed; of standard input its first bytes decide.  What a file holds is passed in as data, so that loading is a
function.
-/
namespace DocQuery

inductive ReadFailure where
  | missing
  | directory
  | notDirectory
  | denied
  | notUtf8
  | other (reason : String)
  deriving DecidableEq, Repr

abbrev FileContent := Except ReadFailure ByteArray

def ReadFailure.message : ReadFailure → String
  | .missing => "No such file or directory (os error 2)"
  | .directory => "Is a directory (os error 21)"
  | .notDirectory => "Not a directory (os error 20)"
  | .denied => "Permission denied (os error 13)"
  | .notUtf8 => "stream did not contain valid UTF-8"
  | .other reason => reason

inductive LoadError where
  | unreadableFile (name : String) (failure : ReadFailure)
  | unopenedArchive (failure : ReadFailure)
  | damagedArchive
  | damagedInput
  | inputNotUtf8
  | undecodable (format : Format) (cause : DecodeError)
  deriving DecidableEq, Repr

namespace LoadError

def context : LoadError → String
  | .unreadableFile name _ => s!"Failed to read file {name}"
  | .unopenedArchive _ => "Failed to open gzipped file"
  | .damagedArchive => "Failed to decompress gzipped file - file may be corrupted"
  | .damagedInput => "Failed to decompress gzipped input"
  | .inputNotUtf8 => "Invalid UTF-8 in input"
  | .undecodable .json _ => "Failed to parse JSON"
  | .undecodable .yaml _ => "Failed to parse YAML"

def reason? : LoadError → Option String
  | .unreadableFile _ failure => some failure.message
  | .unopenedArchive failure => some failure.message
  | .undecodable _ cause => some cause.message
  | _ => none

def message (e : LoadError) : String :=
  match e.reason? with
  | some reason => s!"{e.context}: {reason}"
  | none => e.context

def cause? : LoadError → Option DecodeError
  | .undecodable _ cause => some cause
  | _ => none

end LoadError

/-! ## Names of files -/

namespace FileName

def endsIn (ending name : List Char) : Bool :=
  ending.isSuffixOf name

def withoutGz (name : List Char) : List Char :=
  if endsIn ['.', 'g', 'z'] name then name.take (name.length - 3) else name

/-- The format that a name announces; whatever is not named for block documents is JSON. -/
def format (name : String) : Format :=
  let base := withoutGz name.toList
  if endsIn ['.', 'y', 'a', 'm', 'l'] base || endsIn ['.', 'y', 'm', 'l'] base then .yaml else .json

/-- The extension of a file: what is behind the last dot of the last part of its path, if something is in front of
that dot. -/
def extension? (name : String) : Option (List Char) := do
  let last ← ((name.splitOn "/").filter fun part => part != "" && part != ".").getLast?
  let behind := (last.toList.reverse.takeWhile (· != '.')).reverse
  if last != ".." && behind.length + 2 ≤ last.length then some behind else none

def isGzip (name : String) : Bool :=
  extension? name == some ['g', 'z']

end FileName

/-! ## Loading -/

def decodeLoaded (format : Format) (text : String) : Except LoadError Value :=
  (decode format text).mapError (.undecodable format)

def loadFile [Gzip.Decoder] (name : String) (format : Format) (content : FileContent) : Except LoadError Value :=
  if FileName.isGzip name then
    match content with
    | .error .directory => .error .damagedArchive
    | .error failure => .error (.unopenedArchive failure)
    | .ok bytes =>
      match (Gzip.decompress? bytes.toList).bind String.fromUTF8? with
      | some text => decodeLoaded format text
      | none => .error .damagedArchive
  else
    match content with
    | .error failure => .error (.unreadableFile name failure)
    | .ok bytes =>
      match String.fromUTF8? bytes with
      | some text => decodeLoaded format text
      | none => .error (.unreadableFile name .notUtf8)

def loadInput [Gzip.Decoder] (format : Format) (bytes : ByteArray) : Except LoadError Value :=
  if Gzip.hasMagic bytes.toList then
    match (Gzip.decompress? bytes.toList).bind String.fromUTF8? with
    | some text => decodeLoaded format text
    | none => .error .damagedInput
  else
    match String.fromUTF8? bytes with
    | some text => decodeLoaded format text
    | none => .error .inputNotUtf8

def inputName : String := "-"

structure Sources where
  file : String → FileContent
  input : ByteArray

/-- The document of a name, in the format of the name unless block documents are asked for. -/
def load [Gzip.Decoder] (sources : Sources) (name : String) (forceYaml : Bool) : Except LoadError Value :=
  if name = inputName then loadInput (if forceYaml then .yaml else .json) sources.input
  else loadFile name (if forceYaml then .yaml else FileName.format name) (sources.file name)

end DocQuery
