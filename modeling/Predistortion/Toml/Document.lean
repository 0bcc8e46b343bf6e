import Predistortion.Toml.Scalar
import Predistortion.Toml.Tree

/-!
# TOML documents

Values with their arrays and inline tables, and documents, which are read line by line: a header, a
field or nothing, then a comment or nothing. `parse?` gives the table that a document stands for, or
nothing when the text breaks a rule.
-/

namespace Predistortion.Toml

/-- The deepest nesting of arrays and inline tables. -/
def maxDepth : Nat := 79

/-- Skips the character `c`. -/
def expect (c : Char) : List Char → Option (List Char) := mark c

mutual

/-- Reads a value; `fuel` bounds the work and `depth` the nesting. -/
def value : Nat → Nat → Reader Value
  | 0, _, _ => none
  | fuel + 1, depth, cs =>
    match cs, depth with
    | '"' :: _, _ | '\'' :: _, _ => (string cs).map fun (s, rest) => (.text s, rest)
    | '[' :: rest, depth + 1 => do
      let (items, rest) ← items fuel depth (skipBlank rest)
      return (.list items, rest)
    | '\x7b' :: rest, depth + 1 => do
      let (nodes, rest) ← inlineFields fuel depth [] (skipSpaces rest)
      return (.table (Node.fieldsToValue nodes), rest)
    | _, _ => scalar cs

/-- Reads the items of an array after its opening, up to the bracket that closes it. An item may be
followed by a comma, and must be when another item follows. -/
def items : Nat → Nat → Reader (List Value)
  | 0, _, _ => none
  | fuel + 1, depth, cs =>
    match cs with
    | ']' :: rest => some ([], rest)
    | _ => do
      let (v, rest) ← value fuel depth cs
      match skipBlank rest with
      | ',' :: rest => do
        let (more, rest) ← items fuel depth (skipBlank rest)
        return (v :: more, rest)
      | ']' :: rest => return ([v], rest)
      | _ => none

/-- Reads the fields of an inline table after its opening, up to the brace that closes it. A comma
stands between two fields and nowhere else. -/
def inlineFields : Nat → Nat → Nodes → Reader Nodes
  | 0, _, _, _ => none
  | fuel + 1, depth, nodes, cs =>
    match nodes, cs with
    | [], '\x7d' :: rest => some ([], rest)
    | _, _ => do
      let (path, rest) ← key cs
      let rest ← expect '=' rest
      let (v, rest) ← value fuel depth (skipSpaces rest)
      let nodes ← Nodes.addField nodes path.dropLast (path.getLastD "") v
      match skipSpaces rest with
      | ',' :: rest => inlineFields fuel depth nodes (skipSpaces rest)
      | '\x7d' :: rest => return (nodes, rest)
      | _ => none

end

/-- A document as far as it has been read: the tree, and the path of the last header. -/
structure Draft where
  /-- The tree. -/
  nodes : Nodes
  /-- The path of the last header; empty before the first. -/
  header : List String

/-- Reads a header. -/
def header (draft : Draft) (cs : List Char) : Option (Draft × List Char) :=
  match cs with
  | '[' :: '[' :: rest => do
    let (path, rest) ← key rest
    let rest ← expect ']' rest
    let rest ← expect ']' rest
    let nodes ← draft.nodes.openArray path.dropLast (path.getLastD "")
    return ({ nodes, header := path }, rest)
  | '[' :: rest => do
    let (path, rest) ← key rest
    let rest ← expect ']' rest
    let nodes ← draft.nodes.openTable path.dropLast (path.getLastD "")
    return ({ nodes, header := path }, rest)
  | _ => none

/-- Reads a field. -/
def field (draft : Draft) (cs : List Char) : Option (Draft × List Char) := do
  let (path, rest) ← key cs
  let rest ← expect '=' rest
  let (v, rest) ← value (rest.length + 1) maxDepth (skipSpaces rest)
  let nodes ← draft.nodes.addUnder draft.header path.dropLast (path.getLastD "") v
  return ({ draft with nodes }, rest)

/-- Reads what a line holds before its comment. -/
def lineContent (draft : Draft) (cs : List Char) : Option (Draft × List Char) :=
  match cs with
  | '[' :: _ => header draft cs
  | [] => some (draft, cs)
  | c :: _ => if c = '#' ∨ c = '\n' ∨ c = '\r' then some (draft, cs) else field draft cs

/-- Reads the lines of a document; `fuel` bounds their count. -/
def lines : Nat → Draft → List Char → Option Draft
  | 0, _, _ => none
  | fuel + 1, draft, cs => do
    let (draft, rest) ← lineContent draft (skipSpaces cs)
    let rest := skipComment (skipSpaces rest)
    match rest with
    | [] => return draft
    | _ => lines fuel draft (← lineEnd? rest)

/-- The fields of the table that a document stands for. A byte-order mark at the start is
skipped. -/
def parse? (s : String) : Option Value.Fields := do
  let cs :=
    match s.toList with
    | '\uFEFF' :: rest => rest
    | cs => cs
  let draft ← lines (cs.length + 1) { nodes := [], header := [] } cs
  return Node.fieldsToValue draft.nodes

end Predistortion.Toml
