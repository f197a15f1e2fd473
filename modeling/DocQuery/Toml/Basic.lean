/-!
# Settings tables

The values of a settings file, and the rules by which its lines build one table.  A line assigns a value to a dotted
key, opens a table by its path, or adds a table to a series.  Nothing may be defined twice: a value, a table opened by
a header, or a table that dotted keys have made.
-/
namespace DocQuery.Toml

inductive Value where
  | string (value : String)
  | boolean (value : Bool)
  | number (text : String)
  | dateTime (text : String)
  | array (items : List Value)
  | table (entries : List (String × Value))
  deriving Repr

/-- **How a table came to be**: by a header of its own, by the header of a table inside it, or by dotted keys. -/
inductive Origin where
  | header
  | implied
  | dotted
  deriving DecidableEq, Repr

inductive Node where
  | leaf (value : Value)
  | table (origin : Origin) (entries : List (String × Node))
  | series (elements : List (List (String × Node)))

abbrev Nodes := List (String × Node)

inductive Line where
  | assign (key : List String) (value : Value)
  | header (path : List String)
  | seriesHeader (path : List String)

namespace Nodes

def replace (key : String) (node : Node) : Nodes → Nodes
  | [] => [(key, node)]
  | (k, n) :: rest => if k = key then (k, node) :: rest else (k, n) :: replace key node rest

/-- The nodes with a change made inside the table at a path.  Tables that are missing on the way are made; a value
in the way is a fault.  With `dotted` the way is that of a dotted key: it may not lead into a table with a header, and
it must end in a table that dotted keys have made. -/
def within (dotted : Bool) (change : Nodes → Option Nodes) : List String → Nodes → Option Nodes
  | [], nodes => change nodes
  | k :: ks, nodes =>
    match nodes.lookup k with
    | none => do
      let inner ← within dotted change ks []
      return nodes ++ [(k, .table (if dotted then .dotted else .implied) inner)]
    | some (.leaf _) => none
    | some (.series elements) => do
      if dotted && ks.isEmpty then none
      else
        let last ← elements.getLast?
        let inner ← within dotted change ks last
        return replace k (.series (elements.dropLast ++ [inner])) nodes
    | some (.table origin entries) => do
      if dotted && (origin == .header || (ks.isEmpty && origin != .dotted)) then none
      else
        let inner ← within dotted change ks entries
        return replace k (.table origin inner) nodes

def insertNew (key : String) (node : Node) (nodes : Nodes) : Option Nodes :=
  match nodes.lookup key with
  | none => some (nodes ++ [(key, node)])
  | some _ => none

def assign (key : List String) (value : Value) (nodes : Nodes) : Option Nodes :=
  match key.getLast? with
  | none => none
  | some last => within true (insertNew last (.leaf value)) key.dropLast nodes

/-- A table opened by its path.  It may be there already, if only for the sake of tables inside it. -/
def openTable (path : List String) (nodes : Nodes) : Option Nodes :=
  match path.getLast? with
  | none => none
  | some last => within false (fun inner =>
      match inner.lookup last with
      | none => some (inner ++ [(last, .table .header [])])
      | some (.table .implied entries) => some (replace last (.table .header entries) inner)
      | some _ => none) path.dropLast nodes

def openSeries (path : List String) (nodes : Nodes) : Option Nodes :=
  match path.getLast? with
  | none => none
  | some last => within false (fun inner =>
      match inner.lookup last with
      | none => some (inner ++ [(last, .series [[]])])
      | some (.series elements) => some (replace last (.series (elements ++ [[]])) inner)
      | some _ => none) path.dropLast nodes

def build (current : List String) (nodes : Nodes) : List Line → Option Nodes
  | [] => some nodes
  | .assign key value :: rest => do build current (← within false (assign key value) current nodes) rest
  | .header path :: rest => do build path (← openTable path nodes) rest
  | .seriesHeader path :: rest => do build path (← openSeries path nodes) rest

end Nodes

mutual

def Node.toValue : Node → Value
  | .leaf v => v
  | .table _ entries => .table (entryValues entries)
  | .series elements => .array (elementValues elements)

def entryValues : List (String × Node) → List (String × Value)
  | [] => []
  | (k, n) :: rest => (k, n.toValue) :: entryValues rest

def elementValues : List (List (String × Node)) → List Value
  | [] => []
  | e :: rest => .table (entryValues e) :: elementValues rest

end

end DocQuery.Toml
