import DocQuery.Value.Basic
/-!
# Statistics

Summary figures over all numbers of a value.  The sum stays an integer as long as every number is one and every
partial sum fits in sixty-four bits; the mean is always taken of the floating sum.
-/
namespace DocQuery

mutual

def Value.numbers : Value → List Number
  | .scalar (.number n) => [n]
  | .scalar _ => []
  | .array items => itemNumbers items
  | .object entries => entryNumbers entries

def Value.itemNumbers : List Value → List Number
  | [] => []
  | v :: vs => v.numbers ++ itemNumbers vs

def Value.entryNumbers : List (String × Value) → List Number
  | [] => []
  | (_, v) :: es => v.numbers ++ entryNumbers es

end

/-- **Summary figures of some numbers.** -/
structure Stats where
  count : Nat
  sum : Number
  mean : Double
  min : Number
  max : Number

namespace Stats

/-- A sum that is exact so far, with one more number: lost for good at a float or when it does not fit. -/
def addExact : Option Int64 → Number → Option Int64
  | some sum, .integer i => int64? (sum.toInt + i.toInt)
  | _, _ => none

def ofNumbers (first : Number) (rest : List Number) : Stats :=
  let exact := rest.foldl addExact (addExact (some 0) first)
  let floating := rest.foldl (fun sum n => sum.add n.toDouble) first.toDouble
  let count := rest.length + 1
  { count
    sum := match exact with
      | some i => .integer i
      | none => .float floating
    mean := floating.div (.ofNat count)
    min := rest.foldl (fun least n => if n.lt least then n else least) first
    max := rest.foldl (fun greatest n => if greatest.lt n then n else greatest) first }

def ofValue? (v : Value) : Option Stats :=
  match v.numbers with
  | [] => none
  | first :: rest => some (ofNumbers first rest)

def toValue (s : Stats) : Value :=
  .object [("count", .integer (Int64.ofNat s.count)), ("sum", .number s.sum), ("avg", .number (.float s.mean)),
    ("min", .number s.min), ("max", .number s.max)]

end Stats
end DocQuery
