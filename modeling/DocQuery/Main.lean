import DocQuery.Command.Report
/-!
# The program

Everything that is read from the outside is read here: the arguments, the settings of the user, and the document.
-/
namespace DocQuery

def fileContent (name : String) : IO FileContent := do
  try return .ok (← IO.FS.readBinFile name)
  catch
    | .noFileOrDirectory .. => return .error .missing
    | .inappropriateType _ 21 _ => return .error .directory
    | .inappropriateType .. => return .error .notDirectory
    | .permissionDenied .. => return .error .denied
    | error => return .error (.other error.toString)

def settingsContent : IO (Option ByteArray) := do
  match ← IO.getEnv "HOME" with
  | none => return none
  | some home =>
    match ← fileContent (home ++ "/.config/jsonquery/config.toml") with
    | .ok bytes => return some bytes
    | .error _ => return none

partial def inputContent (stream : IO.FS.Stream) (read : ByteArray) : IO ByteArray := do
  let more ← stream.read 65536
  if more.isEmpty then return read else inputContent stream (read ++ more)

def sourcesFor (name : String) : IO Sources := do
  if name == inputName then
    return ⟨fun _ => .error .missing, ← inputContent (← IO.getStdin) ByteArray.empty⟩
  else
    let content ← fileContent name
    return ⟨fun _ => content, ByteArray.empty⟩

/-- Runs the command.  Nothing is read for arguments that name no document. -/
def runProgram (arguments : List String) : IO Command.Report := do
  let sources ← match Command.Options.ofArguments arguments with
    | .ok options => sourcesFor options.file
    | .error _ => pure ⟨fun _ => .error .missing, ByteArray.empty⟩
  return Command.report arguments (← settingsContent) sources

end DocQuery

def main (arguments : List String) : IO UInt32 := do
  let report ← DocQuery.runProgram arguments
  (← IO.getStdout).putStr report.output
  (← IO.getStderr).putStr report.errors
  return report.exitCode
