import DocQuery.Path.Parser
import DocQuery.Path.Selection
/-!
# Queries

A query is a path as text.  It fails when the text is no path, or when the path leads nowhere in the document.
-/
namespace DocQuery

inductive QueryError where
  | malformed (error : Path.Malformed)
  | notFound (error : Path.NotFound)
  deriving DecidableEq, Repr

def QueryError.message : QueryError → String
  | .malformed error => error.message
  | .notFound error => error.message

def query (text : String) (document : Value) : Except QueryError Selection :=
  match Path.parse text with
  | .error error => .error (.malformed error)
  | .ok path => (path.select document).mapError .notFound

end DocQuery
