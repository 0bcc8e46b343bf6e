import Predistortion.Form.Value

/-!
# Forms

A `Form` says how the values of a type are written as a `Value` and read back. A value that does not
fit is reported as a `Mismatch`: what is wrong, and the path of names to the place. Numbers are held
to the range of their type, enumerations are written by name, and the fields of a record are looked
up by name in a table, or taken in order from a list. Where several fields of a record do not fit,
`Fitted.both` picks the mismatch to report by the order of the paths.
-/

namespace Predistortion

/-! ## Mismatches -/

/-- What can be wrong with a value. -/
inductive MismatchKind where
  /-- A value of another type is needed. -/
  | wrongType
  /-- The number is outside the range of the type. -/
  | outOfRange
  /-- No value of the enumeration has that name. -/
  | unknownName
  /-- A field is missing. -/
  | missing
  /-- The value breaks a rule of the type. -/
  | rejected
deriving DecidableEq

/-- A value that does not fit a type. -/
structure Mismatch where
  /-- What is wrong. -/
  kind : MismatchKind
  /-- The names on the way to the place, from the outside in. -/
  path : List String
deriving DecidableEq

/-- The result of reading a value. -/
abbrev Fitted (α : Type) := Except Mismatch α

namespace Fitted

variable {α : Type}

/-- A mismatch at the value itself. -/
def mismatch (kind : MismatchKind) : Fitted α := .error ⟨kind, []⟩

/-- A result from inside a place. -/
def within (place : String) : Fitted α → Fitted α
  | .ok a => .ok a
  | .error e => .error { e with path := place :: e.path }

/-- Two results together. Of two mismatches the one whose path comes first is reported. -/
def both {β : Type} : Fitted α → Fitted β → Fitted (α × β)
  | .ok a, .ok b => .ok (a, b)
  | .error e, .ok _ => .error e
  | .ok _, .error e => .error e
  | .error e, .error f => .error (if f.path < e.path then f else e)

/-- Two results are fine together when each of them is. -/
theorem both_eq_ok_iff {β : Type} {x : Fitted α} {y : Fitted β} {a : α} {b : β} :
    both x y = .ok (a, b) ↔ x = .ok a ∧ y = .ok b := by
  cases x <;> cases y <;> simp [both]

end Fitted

/-- How a type is written as a value and read back. -/
class Form (α : Type) where
  /-- The value that stands for `a`. -/
  toValue : α → Value
  /-- What a value stands for. -/
  ofValue : Value → Fitted α

/-! ## Plain types -/

namespace Form

/-- A whole number in a range. -/
def intWithin (low high : Int) : Value → Fitted Int
  | .int n => if low ≤ n ∧ n ≤ high then .ok n else .mismatch .outOfRange
  | _ => .mismatch .wrongType

instance : Form Bool where
  toValue := .bool
  ofValue
    | .bool b => .ok b
    | _ => .mismatch .wrongType

instance : Form String where
  toValue := .text
  ofValue
    | .text s => .ok s
    | .char c => .ok (String.singleton c)
    | _ => .mismatch .wrongType

instance : Form UInt8 where
  toValue n := .int n.toNat
  ofValue v := do return UInt8.ofNat (← intWithin 0 0xFF v).toNat

instance : Form UInt16 where
  toValue n := .int n.toNat
  ofValue v := do return UInt16.ofNat (← intWithin 0 0xFFFF v).toNat

instance : Form UInt32 where
  toValue n := .int n.toNat
  ofValue v := do return UInt32.ofNat (← intWithin 0 0xFFFFFFFF v).toNat

instance : Form UInt64 where
  toValue n := .int n.toNat
  ofValue v := do return UInt64.ofNat (← intWithin 0 0xFFFFFFFFFFFFFFFF v).toNat

instance : Form Int16 where
  toValue n := .int n.toInt
  ofValue v := do return Int16.ofInt (← intWithin (-0x8000) 0x7FFF v)

instance {α : Type} [Form α] : Form (List α) where
  toValue items := .list (items.map toValue)
  ofValue
    | .list items =>
      (items.zipIdx).mapM fun (v, i) => Fitted.within (toString i) (ofValue v)
    | _ => .mismatch .wrongType

instance {α : Type} [Form α] {n : Nat} : Form (Vector α n) where
  toValue items := toValue items.toList
  ofValue v := do
    let items : List α ← ofValue v
    if h : items.toArray.size = n then return ⟨items.toArray, h⟩ else .mismatch .rejected

end Form

/-! ## Enumerations -/

/-- A type whose values have names. -/
class Named (α : Type) where
  /-- The names and what they stand for. -/
  names : List (String × α)

namespace Named

variable {α : Type} [Named α]

/-- The name of a value. -/
def nameOf [BEq α] (a : α) : String :=
  match (names (α := α)).find? (·.2 == a) with
  | some entry => entry.1
  | none => ""

/-- The value with a name. -/
def ofName? (name : String) : Option α := (names (α := α)).lookup name

/-- The entry of a table with the least name. -/
def leastField : Value.Fields → Option (String × Value)
  | [] => none
  | entry :: rest =>
    match leastField rest with
    | some other => if other.1 < entry.1 then some other else some entry
    | none => some entry

/-- Reads a name; a table of one name without content stands for the name, too. -/
def ofValue (v : Value) : Fitted α :=
  match v with
  | .text name =>
    match ofName? name with
    | some a => .ok a
    | none => .mismatch .unknownName
  | .table fields =>
    match leastField fields with
    | none => .mismatch .wrongType
    | some (name, content) =>
      match ofName? (α := α) name, content, fields.length with
      | none, _, _ => Fitted.within name (.mismatch .unknownName)
      | some a, .null, 1 => .ok a
      | some _, _, _ => Fitted.within name (.mismatch .wrongType)
  | _ => .mismatch .wrongType

instance [BEq α] : Form α where
  toValue a := .text (nameOf a)
  ofValue := ofValue

end Named

/-! ## Records -/

/-- Looks up the field with a name; also says by what name the place goes. -/
abbrev FieldSource := String → Option (String × Value)

namespace FieldSource

/-- The fields of a record with the given names: those of a table, or the items of a list in the
order of the names. A list with items left over is refused. -/
def ofValue (names : List String) : Value → Fitted FieldSource
  | .table fields => .ok fun name => (Value.find? fields name).map (name, ·)
  | .list items =>
    if items.length > names.length then
      .mismatch .rejected
    else
      .ok fun name => do
        let i ← names.idxOf? name
        let v ← items[i]?
        return (toString i, v)
  | _ => .mismatch .wrongType

/-- Reads a field that must be there. -/
def get (α : Type) [Form α] (source : FieldSource) (name : String) : Fitted α :=
  match source name with
  | some (place, v) => Fitted.within place (Form.ofValue v)
  | none => .error ⟨.missing, [name]⟩

/-- Reads a field that may be left out. -/
def getD {α : Type} [Form α] (source : FieldSource) (name : String) (fallback : α) : Fitted α :=
  match source name with
  | some (place, v) => Fitted.within place (Form.ofValue v)
  | none => .ok fallback

end FieldSource

end Predistortion
