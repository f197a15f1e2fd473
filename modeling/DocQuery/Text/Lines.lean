/-!
# Lines of a text

A line ends with a newline or with a carriage return and a newline; the last line may lack its end, and an
end with nothing behind it opens no further line.  So the text `a⏎b` and the text `a⏎b⏎` have the same lines.
-/
namespace DocQuery.Text

def lines : List Char → List (List Char)
  | [] => []
  | '\n' :: cs => [] :: lines cs
  | '\r' :: '\n' :: cs => [] :: lines cs
  | c :: cs =>
    match lines cs with
    | [] => [[c]]
    | l :: ls => (c :: l) :: ls

def byteLength (cs : List Char) : Nat :=
  cs.foldr (fun c bytes => c.utf8Size + bytes) 0

end DocQuery.Text
