import BulkSync.Failure
import BulkSync.Schema

namespace BulkSync

/-- The values of all nodes for one key, node after node in one flat array. -/
structure Column where
  type : ValueType
  cells : Array type.scalar.Cell

/-- The table of node values: one column for each declared key, in the order of declaration. -/
structure ValueStore where
  nodes : Nat
  columns : List (String × Column)

/-- The number of cells a column needs; a number too large to be written down counts as the
largest one that can be. -/
def cellCount (nodes width : Nat) : Nat :=
  if nodes * width < countLimit then nodes * width else countLimit - 1

/-- The bytes a cell takes. -/
def cellSize : Nat := 8

/-- A column of zeros, if there is room for it. -/
def Column.create (memory : Memory) (nodes : Nat) (type : ValueType) : Except Failure Column := do
  let count := cellCount nodes type.width
  memory.reserve .nodeValues nodes count cellSize
  return ⟨type, Array.replicate count type.scalar.zero⟩

namespace ValueStore

def create (memory : Memory) (schema : Schema) (nodes : Nat) : Except Failure ValueStore := do
  let columns ← schema.fields.mapM fun field => do
    let column ← Column.create memory nodes field.type
    return (field.key, column)
  return ⟨nodes, columns⟩

def keys (store : ValueStore) : List String :=
  store.columns.map Prod.fst

def type? (store : ValueStore) (key : String) : Option ValueType :=
  (store.columns.lookup key).map Column.type

/-- The column of a key, for a node that exists. The node is checked before the key. -/
def column (store : ValueStore) (key : String) (node : Nat) : Except Fault Column :=
  if node < store.nodes then
    match store.columns.lookup key with
    | some c => .ok c
    | none => .error (.unknownKey key)
  else .error (.nodeRange node store.nodes)

end ValueStore

/-- The cells of a column that holds one cell of the kind per node. -/
def Column.singles (key : String) : (s : Scalar) → Column → Except Fault (Array s.Cell)
  | .long, ⟨.single .long, cells⟩ => .ok cells
  | .double, ⟨.single .double, cells⟩ => .ok cells
  | _, c => .error (.typeMismatch key c.type)

/-- The cells and the width of a column that holds an array of the kind per node. -/
def Column.arrays (key : String) : (s : Scalar) → Column → Except Fault (Array s.Cell × Nat)
  | .long, ⟨.array .long width, cells⟩ => .ok (cells, width)
  | .double, ⟨.array .double width, cells⟩ => .ok (cells, width)
  | _, c => .error (.typeMismatch key c.type)

/-- The stretch of cells that belongs to a node. -/
def nodeSpan (node width size : Nat) : Except Fault (Nat × Nat) := do
  let lower ← mulCounts node width
  let next ← addCounts node 1
  let upper ← mulCounts next width
  if lower ≤ upper ∧ upper ≤ size then return (lower, upper) else throw .outOfBounds

/-- Writes values into consecutive cells. -/
def putCells {α : Type} (cells : Array α) (start : Nat) : List α → Array α
  | [] => cells
  | x :: xs => putCells (cells.setIfInBounds start x) (start + 1) xs

/-- Replaces the cells of a column that holds the given kind. -/
def Column.mapCells (s : Scalar) (f : Array s.Cell → Array s.Cell) (c : Column) : Column :=
  match s, c with
  | .long, ⟨.single .long, cells⟩ => ⟨.single .long, f cells⟩
  | .double, ⟨.single .double, cells⟩ => ⟨.single .double, f cells⟩
  | .long, ⟨.array .long width, cells⟩ => ⟨.array .long width, f cells⟩
  | .double, ⟨.array .double width, cells⟩ => ⟨.array .double width, f cells⟩
  | _, c => c

/-- Changes the first column of a key. -/
def mapColumn (key : String) (f : Column → Column) :
    List (String × Column) → List (String × Column)
  | [] => []
  | (k, c) :: rest => if key == k then (k, f c) :: rest else (k, c) :: mapColumn key f rest

/-- Collects what a function gives for `count` ids from `id` on, up to the first fault. -/
def collectFrom {α : Type} (f : Nat → Except Fault α) :
    (count id : Nat) → Array α → Except Fault (List α)
  | 0, _, found => .ok found.toList
  | count + 1, id, found =>
    match f id with
    | .ok x => collectFrom f count (id + 1) (found.push x)
    | .error e => .error e

namespace ValueStore

/-- The single cell of a node. -/
def read (s : Scalar) (key : String) (node : Nat) (store : ValueStore) : Except Fault s.Cell := do
  let column ← store.column key node
  let cells ← column.singles key s
  match cells[node]? with
  | some x => return x
  | none => throw .outOfBounds

/-- The array of a node. -/
def readArray (s : Scalar) (key : String) (node : Nat) (store : ValueStore) :
    Except Fault (List s.Cell) := do
  let column ← store.column key node
  let (cells, width) ← column.arrays key s
  let (lower, upper) ← nodeSpan node width cells.size
  return (cells.extract lower upper).toList

/-- Whether one cell may be written at a node. -/
def admits (s : Scalar) (key : String) (node : Nat) (store : ValueStore) : Except Fault Unit := do
  let column ← store.column key node
  let cells ← column.singles key s
  if node < cells.size then return () else throw .outOfBounds

/-- Where an array of some length may be written at a node. -/
def admitsArray (s : Scalar) (key : String) (node length : Nat) (store : ValueStore) :
    Except Fault Nat := do
  let column ← store.column key node
  let (cells, width) ← column.arrays key s
  if length = width then
    let (lower, _) ← nodeSpan node width cells.size
    return lower
  else throw (.arrayLength key length width)

/-- Writes the single cell of a node. -/
def write (s : Scalar) (key : String) (node : Nat) (x : s.Cell) (store : ValueStore) :
    Outcome ValueStore Unit :=
  match store.admits s key node with
  | .error f => .error f store
  | .ok () =>
    let put := Column.mapCells s fun cells => cells.setIfInBounds node x
    .ok () { store with columns := mapColumn key put store.columns }

/-- Writes the array of a node. -/
def writeArray (s : Scalar) (key : String) (node : Nat) (xs : List s.Cell) (store : ValueStore) :
    Outcome ValueStore Unit :=
  match store.admitsArray s key node xs.length with
  | .error f => .error f store
  | .ok start =>
    let put := Column.mapCells s fun cells => putCells cells start xs
    .ok () { store with columns := mapColumn key put store.columns }

/-- The value of a node, of whatever type its key was declared with. -/
def get (key : String) (node : Nat) (store : ValueStore) : Except Fault Value := do
  let column ← store.column key node
  match column.type with
  | .single s => return .single s (← store.read s key node)
  | .array s _ => return .array s (← store.readArray s key node)

/-- Writes a value, which has to be of the declared type. -/
def set (key : String) (node : Nat) (value : Value) (store : ValueStore) :
    Outcome ValueStore Unit :=
  match value with
  | .single s x => store.write s key node x
  | .array s xs => store.writeArray s key node xs

/-- The cells of a key for all nodes in order. There has to be room for them before the first
one is read. -/
def readAll (s : Scalar) (key : String) (store : ValueStore) : Except Fault (List s.Cell) := do
  makeRoom store.nodes cellSize
  collectFrom (fun node => store.read s key node) store.nodes 0 #[]

/-- The values of a key for all nodes in order, with room for them as for single cells. -/
def getAll (key : String) (store : ValueStore) : Except Fault (List Value) := do
  makeRoom store.nodes cellSize
  collectFrom (fun node => store.get key node) store.nodes 0 #[]

/-- The store in one line: its size and its keys. -/
def describe (store : ValueStore) : String :=
  "NodeValueStore \x7b node_count: " ++ toString store.nodes ++ ", keys: " ++
    quotedList store.keys ++ " \x7d"

end ValueStore

end BulkSync
