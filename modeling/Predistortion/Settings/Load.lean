import Predistortion.Settings.Environment
import Predistortion.Settings.Form
import Predistortion.Settings.Wrapped
import Predistortion.Toml.Document

/-!
# Loading settings

Settings are the defaults, with a document laid over them, with the environment laid over that. What
comes out is read as settings; a document that does not read at all is reported before anything
else.
-/

namespace Predistortion.Settings

/-- Why settings cannot be loaded. -/
inductive LoadError where
  /-- The document does not read. -/
  | malformed
  /-- A value does not fit its field. -/
  | mismatch (m : Mismatch)
deriving DecidableEq

/-- The sections with the count of their fields. -/
def sections : List (String × Nat) :=
  [("clock", 2), ("lut", 2), ("mailbox", 3), ("validation", 2)]

/-- A list in the place of a section gives its fields in order; items left over are dropped. -/
def trimSection (name : String) (v : Value) : Value :=
  match sections.lookup name, v with
  | some count, .list items => .list (items.take count)
  | _, v => v

/-- The settings that several values make, laid over the defaults in order. -/
def ofLayers (layers : List Value) : Except LoadError Settings :=
  let merged :=
    match layers.foldl Value.merge (Form.toValue (default : Settings)) with
    | .table fields => .table (fields.map fun (name, v) => (name, trimSection name v))
    | v => v
  match Form.ofValue merged with
  | .ok s => .ok s
  | .error m => .error (.mismatch m)

/-- The settings of a document, and of the environment if one is given. No document has no
fields. -/
def load (document : Option String) (assignments : List (String × String)) :
    Except LoadError Settings := do
  let fields ←
    match document.map fun s => (Toml.parse? s).bind Value.unwrappedFields? with
    | none => pure []
    | some (some fields) => pure fields
    | some none => throw .malformed
  ofLayers [.table fields, Environment.ofVariables assignments]

end Predistortion.Settings
