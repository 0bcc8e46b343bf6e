/-!
# Values

A `Value` is data without a type of its own: what a settings file, an environment variable or a
serialized record says. Tables are lists of named fields in which a name occurs once. `merge` lays
one value over another: tables are merged field by field, and anything else replaces what was there.
-/

namespace Predistortion

/-- A value without a type. -/
inductive Value where
  /-- Nothing. -/
  | null
  /-- A truth value. -/
  | bool (b : Bool)
  /-- A whole number. -/
  | int (n : Int)
  /-- A number with a fractional part or an exponent, as it was written. -/
  | real (literal : String)
  /-- A single character. -/
  | char (c : Char)
  /-- A text. -/
  | text (s : String)
  /-- A list. -/
  | list (items : List Value)
  /-- A table of named fields. -/
  | table (fields : List (String × Value))

namespace Value

instance : Inhabited Value := ⟨.null⟩

/-- The fields of a table. -/
abbrev Fields := List (String × Value)

/-- The field with a name. -/
def find? : Fields → String → Option Value
  | [], _ => none
  | (k, v) :: rest, name => if k = name then some v else find? rest name

/-- The fields with the value of one name set. -/
def insert : Fields → String → Value → Fields
  | [], name, v => [(name, v)]
  | (k, old) :: rest, name, v =>
    if k = name then (k, v) :: rest else (k, old) :: insert rest name v

mutual

/-- Lays a value over another. -/
def merge (base top : Value) : Value :=
  match top with
  | .table fields =>
    match base with
    | .table old => .table (mergeFields old fields)
    | _ => .table fields
  | v => v

/-- Lays the fields of a table over those of another. -/
def mergeFields (base top : Fields) : Fields :=
  match top with
  | [] => base
  | (name, v) :: rest =>
    let merged :=
      match find? base name with
      | some old => merge old v
      | none => v
    mergeFields (insert base name merged) rest

end

/-- The table with one value at the end of a path of names. -/
def nest (path : List String) (v : Value) : Value :=
  path.foldr (fun name inner => .table [(name, inner)]) v

/-- Setting a name changes the value of that name only, whether or not it was there before. -/
theorem find?_insert (fields : Fields) (name : String) (v : Value) (k : String) :
    find? (insert fields name v) k = if k = name then some v else find? fields k := by
  fun_induction insert fields name v with
  | case1 name v => simp [find?, eq_comm]
  | case2 old rest name v => by_cases h : k = name <;> simp [find?, Ne.symm, h]
  | case3 n old rest name v hn ih =>
    by_cases hk : k = n
    · subst hk; simp [find?, hn]
    · simp [find?, Ne.symm hk, ih]

end Value

end Predistortion
