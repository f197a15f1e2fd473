/-!
# Quoted text

Text between two equal quotes stands for a string.  Between single quotes the only escape is a doubled quote;
between double quotes a backslash escapes the newline, tab, carriage return, quote and backslash, and stands for
itself before any other character.
-/
namespace DocQuery.Quoted

def undouble : List Char → List Char
  | [] => []
  | '\'' :: '\'' :: cs => '\'' :: undouble cs
  | c :: cs => c :: undouble cs

def unescaped : Char → List Char
  | 'n' => ['\n']
  | 't' => ['\t']
  | 'r' => ['\r']
  | '"' => ['"']
  | '\\' => ['\\']
  | c => ['\\', c]

/-- Backslash escapes resolved.  A backslash at the very end stands for itself. -/
def unescape : List Char → List Char
  | [] => []
  | '\\' :: c :: cs => unescaped c ++ unescape cs
  | c :: cs => c :: unescape cs

/-- The text without its quotes, or nothing when it does not begin and end with the same quote. -/
def unquote? : List Char → Option (List Char)
  | [] => none
  | quote :: cs =>
    if cs.getLast? = some quote then
      if quote = '\'' then some (undouble cs.dropLast)
      else if quote = '"' then some (unescape cs.dropLast)
      else none
    else none

end DocQuery.Quoted
