/-!
# Engines for patterns

All that a search or a filter needs to know of patterns is which texts are patterns and in which texts a pattern
matches.  Both are up to an engine, and whatever does not depend on how expressions are read is said of every engine.
-/
namespace DocQuery

/-- **A pattern**: the text it was read from, and whether some part of a text matches. -/
structure Pattern where
  source : String
  isMatch : String → Bool

namespace Pattern

/-- **What reads patterns.** -/
class Engine where
  compile? (ignoreCase : Bool) (source : String) : Option Pattern

export Engine (compile?)

end Pattern
end DocQuery
