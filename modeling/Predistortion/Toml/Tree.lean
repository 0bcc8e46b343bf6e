import Predistortion.Form.Value

/-!
# TOML tables

A document builds one tree of tables. A table comes into being by a header, by being on the way to
the table of a header, or by being on the way to a dotted key; the last two make it implicit. What a
later header or key may do with a table depends on how it came into being: a header may not name a
table again that had a header or belongs to a dotted key, and a dotted key may not enter a table
that had a header.
-/

namespace Predistortion.Toml

/-- A part of the tree. -/
inductive Node where
  /-- A value, which is complete. -/
  | value (v : Value)
  /-- A table, with how it came into being. -/
  | table (implicit dotted : Bool) (fields : List (String × Node))
  /-- The tables of an array, the last one first; it is the one that further lines belong to. -/
  | array (last : List (String × Node)) (earlier : List (List (String × Node)))

/-- The fields of a table. -/
abbrev Nodes := List (String × Node)

namespace Nodes

/-- The field with a name. -/
def find? : Nodes → String → Option Node
  | [], _ => none
  | (k, n) :: rest, name => if k = name then some n else find? rest name

/-- The fields with one name set. -/
def insert : Nodes → String → Node → Nodes
  | [], name, n => [(name, n)]
  | (k, old) :: rest, name, n =>
    if k = name then (k, n) :: rest else (k, old) :: insert rest name n

/-- Changes the table at the end of a path, making the tables on the way as needed. `byKey` says
that the path belongs to a dotted key. The change is told whether its table belongs to a dotted
key. -/
def descend (byKey : Bool) (change : Bool → Nodes → Option Nodes) :
    List String → Bool → Nodes → Option Nodes
  | [], dotted, nodes => change dotted nodes
  | name :: path, _, nodes =>
    match nodes.find? name with
    | none => do
      let inner ← descend byKey change path byKey []
      return nodes.insert name (.table true byKey inner)
    | some (.value _) => none
    | some (.table implicit dotted inner) =>
      if byKey && !implicit then
        none
      else do
        let inner ← descend byKey change path dotted inner
        return nodes.insert name (.table implicit dotted inner)
    | some (.array last earlier) => do
      let last ← descend byKey change path false last
      return nodes.insert name (.array last earlier)

/-- Adds a field under a dotted key. The table that gets the field must belong to the key when the
key has a path, and must not when it has none. -/
def addField (nodes : Nodes) (path : List String) (name : String) (v : Value) : Option Nodes :=
  descend true
    (fun dotted inner =>
      if dotted == path.isEmpty then none
      else if (inner.find? name).isSome then none
      else some (inner.insert name (.value v)))
    path false nodes

/-- Opens the table of a header. -/
def openTable (nodes : Nodes) (path : List String) (name : String) : Option Nodes :=
  descend false
    (fun _ inner =>
      match inner.find? name with
      | none => some (inner.insert name (.table false false []))
      | some (.table true false fields) => some (inner.insert name (.table false false fields))
      | some _ => none)
    path false nodes

/-- Opens a new table of the array of a header. -/
def openArray (nodes : Nodes) (path : List String) (name : String) : Option Nodes :=
  descend false
    (fun _ inner =>
      match inner.find? name with
      | none => some (inner.insert name (.array [] []))
      | some (.array last earlier) => some (inner.insert name (.array [] (last :: earlier)))
      | some _ => none)
    path false nodes

/-- Adds a field to the table of the last header. -/
def addUnder (nodes : Nodes) (header path : List String) (name : String) (v : Value) :
    Option Nodes :=
  descend false (fun _ inner => inner.addField path name v) header false nodes

end Nodes

mutual

/-- The value that a part of the tree stands for. -/
def Node.toValue : Node → Value
  | .value v => v
  | .table _ _ fields => .table (Node.fieldsToValue fields)
  | .array last earlier =>
    .list ((Node.tablesToValue earlier).reverse ++ [.table (Node.fieldsToValue last)])

/-- The fields that the nodes of a table stand for. -/
def Node.fieldsToValue : List (String × Node) → List (String × Value)
  | [] => []
  | (name, n) :: rest => (name, n.toValue) :: Node.fieldsToValue rest

/-- The values that the tables of an array stand for. -/
def Node.tablesToValue : List (List (String × Node)) → List Value
  | [] => []
  | fields :: rest => .table (Node.fieldsToValue fields) :: Node.tablesToValue rest

end

end Predistortion.Toml
