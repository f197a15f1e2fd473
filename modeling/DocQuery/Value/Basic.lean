import DocQuery.Scalar.Basic
/-!
# Documents as values

Whatever format a document was written in, it is decoded to a tree: scalars at the leaves, arrays in document
order, objects as lists of entries in the order in which their keys first appeared.  Decoders build objects with
`Entries.put` only, which keeps keys unique.
-/
namespace DocQuery

/-- **A decoded document, or any part of one.** -/
inductive Value where
  | scalar (value : Scalar)
  | array (items : List Value)
  | object (entries : List (String × Value))
  deriving Repr

instance : Inhabited Value := ⟨.scalar .null⟩

/-- The entries of an object, in the order in which their keys first appeared. -/
abbrev Entries := List (String × Value)

namespace Entries

/-- Enters a value under a key.  A key that is there keeps its place and takes the new value; a new one goes
to the end. -/
def put (key : String) (value : Value) : Entries → Entries
  | [] => [(key, value)]
  | (k, v) :: rest => if k = key then (k, value) :: rest else (k, v) :: put key value rest

def ofPairs (pairs : List (String × Value)) : Entries :=
  pairs.foldl (fun entries (k, v) => put k v entries) []

def keys (entries : Entries) : List String :=
  entries.map Prod.fst

/-- **The keys after an entry**: a key that is there keeps its place, and a new one comes last. -/
theorem keys_put (key : String) (value : Value) (entries : Entries) :
    keys (put key value entries) = if key ∈ keys entries then keys entries else keys entries ++ [key] := by
  induction entries with
  | nil => simp [put, keys]
  | cons e es ih =>
    obtain ⟨k, v⟩ := e
    simp only [keys] at ih
    by_cases h : k = key
    · simp [put, keys, h]
    · have h' : ¬key = k := fun e => h e.symm
      by_cases hm : key ∈ es.map Prod.fst <;> simp [put, keys, h, h', hm] at ih ⊢ <;> simp_all

theorem put_of_not_mem {key : String} {value : Value} : ∀ {es : Entries}, key ∉ keys es →
    es.put key value = es ++ [(key, value)]
  | [], _ => rfl
  | (k, v) :: es, h => by
    rw [keys, List.map_cons, List.mem_cons, not_or] at h
    simp [put, Ne.symm h.1, put_of_not_mem h.2]

theorem foldl_put : ∀ {pairs : List (String × Value)} {es : Entries}, (keys (es ++ pairs)).Nodup →
    pairs.foldl (fun entries (k, v) => put k v entries) es = es ++ pairs
  | [], es, _ => by rw [List.foldl_nil, List.append_nil]
  | (k, v) :: pairs, es, h => by
    have hnew : k ∉ keys es := by
      rw [keys, List.map_append, List.map_cons, List.nodup_append] at h
      exact fun hk => h.2.2 k hk k List.mem_cons_self rfl
    rw [List.append_cons] at h ⊢
    have hput : es.put k v = es ++ [(k, v)] := put_of_not_mem hnew
    simp only [List.foldl_cons, hput, foldl_put h]

theorem ofPairs_of_nodup {pairs : List (String × Value)} (h : (keys pairs).Nodup) : ofPairs pairs = pairs :=
  @foldl_put pairs [] h

theorem lookup_put (key k : String) (value : Value) (entries : Entries) :
    (put key value entries).lookup k = if k = key then some value else entries.lookup k := by
  induction entries with
  | nil => by_cases h : k = key <;> simp [put, List.lookup_cons, h, beq_eq_false_iff_ne.2]
  | cons e es ih =>
    obtain ⟨k', v⟩ := e
    by_cases h : k' = key
    · by_cases hk : k = key
      · simp [put, h, hk]
      · simp [put, List.lookup_cons, h, hk, beq_eq_false_iff_ne.2 hk]
    · by_cases hk : k = k'
      · simp [put, h, hk]
      · simp [put, List.lookup_cons, h, ih, beq_eq_false_iff_ne.2 hk]

end Entries

namespace Value

def null : Value := .scalar .null
def boolean (b : Bool) : Value := .scalar (.boolean b)
def number (n : Number) : Value := .scalar (.number n)
def string (s : String) : Value := .scalar (.string s)
def integer (i : Int64) : Value := number (.integer i)

/-! ## Looking inside -/

def get? (key : String) : Value → Option Value
  | .object entries => entries.lookup key
  | _ => none

def item? (index : Nat) : Value → Option Value
  | .array items => items[index]?
  | _ => none

def isObject : Value → Bool
  | .object _ => true
  | _ => false

def isArray : Value → Bool
  | .array _ => true
  | _ => false

def isScalar : Value → Bool
  | .scalar _ => true
  | _ => false

def text? : Value → Option String
  | .scalar (.string s) => some s
  | _ => none

def number? : Value → Option Number
  | .scalar (.number n) => some n
  | _ => none

def kindName : Value → String
  | .scalar .null => "null"
  | .scalar (.boolean _) => "boolean"
  | .scalar (.number _) => "number"
  | .scalar (.string _) => "string"
  | .array _ => "array"
  | .object _ => "object"

end Value
end DocQuery
