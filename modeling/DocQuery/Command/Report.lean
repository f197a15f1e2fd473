import DocQuery.Command.Run
import DocQuery.Gzip.Member
import DocQuery.Pattern.Parser
/-!
# What a command prints

However a command ends, it leaves an exit code and the texts of its two outputs.  Lines of the log are not among them,
neither the warning about a settings file that cannot be read nor what `--verbose` asks for.  Of a cause that a library
words itself only the fact is kept: that a text is no pattern, that an archive is damaged, that input is no text.
-/
namespace DocQuery.Command

/-- **What is left when a command has ended**, without the log. -/
structure Report where
  exitCode : UInt32
  output : String
  errors : String
  deriving DecidableEq, Repr

/-- The report on a run.  That nothing is left is no error. -/
def Outcome.report : Outcome → Report
  | .shown text => ⟨0, text, ""⟩
  | .nothing notice => ⟨0, "", notice.message ++ "\n"⟩
  | .failed failure => ⟨1, "", s!"Error: {failure.message}\n"⟩

def versionText : String := "jsonquery 1.0.0"

def examplesText : String :=
  "\n".intercalate [
    "Examples:",
    "  # Query path",
    "  jsonquery data.json users[0].name",
    "  jsonquery data.json 'items[*].price'",
    "",
    "  # Filter",
    "  jsonquery data.json users --filter 'age > 25'",
    "  jsonquery data.json items --filter 'active == true'",
    "",
    "  # Search",
    "  jsonquery data.json --search '@example.com'",
    "",
    "  # Statistics",
    "  jsonquery data.json 'items[*].price' --stats",
    "",
    "  # Output formats",
    "  jsonquery data.json users --format csv",
    "  jsonquery data.json data --format keys",
    "",
    "  # From stdin",
    "  cat data.json | jsonquery - users[0]",
    "",
    "  # Version (-v raises log verbosity)",
    "  jsonquery --version"]

/-- How the program is used.  The sentences are the program's; how they are laid out is not settled by it, and no line is
broken here. -/
def helpText : String :=
  "\n".intercalate [
    "Query JSON and YAML documents with a compact path syntax",
    "",
    "Usage: jsonquery [OPTIONS] <FILE> [QUERY]",
    "",
    "Arguments:",
    "  <FILE>   JSON/YAML file, or - for stdin",
    "  [QUERY]  Query path (e.g. users[0].name); empty selects the whole document [default: ]",
    "",
    "Options:",
    "  -f, --filter <FILTER>  Filter expression (e.g. 'age > 25')",
    "  -s, --search <SEARCH>  Search string values with a regex and print their paths",
    "      --case-sensitive   Case-sensitive search",
    "      --stats            Print count/sum/avg/min/max of the numbers in the result",
    "      --format <FORMAT>  Output format (default: json, or the config file's choice)" ++
      " [possible values: json, csv, keys, values, plain]",
    "      --no-pretty        Disable pretty printing",
    "      --yaml             Parse input as YAML regardless of file name",
    "  -v, --verbose...       Increase log verbosity (-v, -vv, -vvv); the version is -V/--version",
    "  -h, --help             Print help",
    "  -V, --version          Print version",
    "",
    examplesText]

def Stop.report : Stop → Report
  | .help => ⟨0, helpText ++ "\n", ""⟩
  | .version => ⟨0, versionText ++ "\n", ""⟩
  | .misuse error => ⟨2, "", s!"error: {error.message}\n"⟩

/-- The report on a command, given its arguments, the content of the settings file if there is one, and the
documents. -/
def report [Pattern.Engine] [Gzip.Decoder] (arguments : List String) (settings : Option ByteArray)
    (sources : Sources) : Report :=
  match Options.ofArguments arguments with
  | .error stop => stop.report
  | .ok options => (run options (Config.ofFile settings) sources).report

end DocQuery.Command
