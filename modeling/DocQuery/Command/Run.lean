import DocQuery.Command.Options
import DocQuery.Config
import DocQuery.Filter.Parser
import DocQuery.Filter.Selection
import DocQuery.Load
import DocQuery.Query
import DocQuery.Search
import DocQuery.Stats
/-!
# Runs of the command

A run loads a document, follows the query, filters, and then searches, sums up or shows what is left.  It ends in one
of three ways: with a text, with the notice that nothing is left, or with an error.
-/
namespace DocQuery.Command

inductive Notice where
  | noResults
  | noneKept
  | noHits
  deriving DecidableEq, Repr

def Notice.message : Notice → String
  | .noResults => "No results found"
  | .noneKept => "No results match filter"
  | .noHits => "No matches found"

inductive Failure where
  | load (error : LoadError)
  | query (error : QueryError)
  | filter (error : Filter.Error)
  | search (error : InvalidPattern)
  deriving DecidableEq, Repr

def Failure.message : Failure → String
  | .load error => error.message
  | .query error => s!"Query error: {error.message}"
  | .filter error => s!"Filter error: {error.message}"
  | .search error => s!"Search error: {invalidPatternMessage error.pattern}"

inductive Outcome where
  | shown (text : String)
  | nothing (notice : Notice)
  | failed (failure : Failure)
  deriving DecidableEq, Repr

/-! ## What is shown -/

def hitLines (hits : List Hit) : String :=
  String.join (hits.map fun hit => hit.path ++ ": " ++ hit.text ++ "\n")

def statsReport (v : Value) : Value :=
  match Stats.ofValue? v with
  | some stats => stats.toValue
  | none => .object [("error", .string "No numeric values found")]

/-- The end of a run, given what is left of the document.  A search comes before a report, and a report before
the value itself. -/
def finish [Pattern.Engine] (options : Options) (config : Config) (result : Value) : Outcome :=
  let indented := config.indented && !options.noPretty
  match options.search with
  | some pattern =>
    match search pattern (options.caseSensitive || config.caseSensitiveSearch) result with
    | .error error => .failed (.search error)
    | .ok [] => .nothing .noHits
    | .ok hits => .shown (hitLines hits)
  | none =>
    if options.stats then .shown ((statsReport result).render .json indented ++ "\n")
    else .shown (result.render (options.format.getD config.format) indented ++ "\n")

/-! ## Runs -/

/-- What a filter leaves of a selection that is not empty, or how the run ends at it. -/
def narrow [Pattern.Engine] (expression : Option String) (selection : Selection) : Except Outcome Selection :=
  match expression with
  | none => .ok selection
  | some text =>
    match Filter.parse text with
    | .error error => .error (.failed (.filter error))
    | .ok predicate =>
      match selection.filter? predicate with
      | some kept => if kept.isEmpty then .error (.nothing .noneKept) else .ok kept
      | none => .error (.nothing .noneKept)

/-- A run.  An empty selection ends it before the filter is looked at. -/
def run [Pattern.Engine] [Gzip.Decoder] (options : Options) (config : Config) (sources : Sources) : Outcome :=
  match load sources options.file options.yaml with
  | .error error => .failed (.load error)
  | .ok document =>
    match query options.query document with
    | .error error => .failed (.query error)
    | .ok selection =>
      if selection.isEmpty then .nothing .noResults
      else
        match narrow options.filter selection with
        | .error outcome => outcome
        | .ok kept => finish options config kept.toValue

end DocQuery.Command
