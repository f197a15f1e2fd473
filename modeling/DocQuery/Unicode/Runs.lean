import DocQuery.Text.Hexadecimal
/-!
# Tables of characters

A property that divides the characters into runs is written as the first code point of each run and the mark of the
run, such as `41Lu` for the run of category `Lu` that starts at U+0041.  A run ends where the next one starts.
-/
namespace DocQuery.Unicode

abbrev Runs := Array (Nat × String)

/-- A digit of a code point in a table.  Letters are in lower case, so that a mark may start with a capital. -/
def isTableDigit (c : Char) : Bool :=
  c.isDigit || ('a' ≤ c && c ≤ 'f')

def tableNumber (cs : List Char) : Nat :=
  (Text.hexNumber? cs).getD 0

def tableWords (table : String) : List (List Char) :=
  (table.toList.splitBy fun a b => a.isWhitespace == b.isWhitespace).filter fun w => !w.all Char.isWhitespace

def Runs.ofTable (table : String) : Runs :=
  ((tableWords table).map fun w =>
    (tableNumber (w.takeWhile isTableDigit), String.ofList (w.dropWhile isTableDigit))).toArray

/-- The last position from `low` on, and before `high`, whose run starts at or before a code point; each round halves
the gap. -/
def Runs.bisect (runs : Runs) (code : Nat) : Nat → Nat → Nat → Nat
  | 0, low, _ => low
  | rounds + 1, low, high =>
    if high ≤ low + 1 then low
    else
      let middle := (low + high) / 2
      match runs[middle]? with
      | some (first, _) =>
        if first ≤ code then bisect runs code rounds middle high else bisect runs code rounds low middle
      | none => low

def Runs.find (runs : Runs) (c : Char) : Nat × String :=
  runs[runs.bisect c.toNat 32 0 runs.size]?.getD (0, "")

abbrev Ranges := List (Nat × Nat)

def Ranges.contains (ranges : Ranges) (c : Char) : Bool :=
  ranges.any fun (first, last) => first ≤ c.toNat && c.toNat ≤ last

end DocQuery.Unicode
