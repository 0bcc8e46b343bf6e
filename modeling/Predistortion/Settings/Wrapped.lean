import Predistortion.Form.Value

/-!
# Wrapped values

In a document a table may stand for another value: it holds that value in a field with a name kept
for this purpose, and its other fields do not count. A second name is kept for the origin of a
value, which a document cannot give, so a document that uses it does not read. The fields of the
document itself are not a wrapping.
-/

namespace Predistortion.Value

/-- The name of the field that holds the value for which a table stands. -/
def contentName : String := "___figment_value_value"

/-- The name kept for the origin of a value. -/
def originName : String := "___figment_value_id"

mutual

/-- What a value of a document stands for. -/
def unwrapped? : Value → Option Value
  | .list items => (unwrappedItems? items).map .list
  | .table fields => do
    let inner ← unwrappedFields? fields
    if (find? inner originName).isSome then failure
    return (find? inner contentName).getD (.table inner)
  | v => some v

/-- What the items of a list stand for. -/
def unwrappedItems? : List Value → Option (List Value)
  | [] => some []
  | v :: rest => do
    let first ← unwrapped? v
    return first :: (← unwrappedItems? rest)

/-- The fields of a table with what each of them stands for. -/
def unwrappedFields? : Fields → Option Fields
  | [] => some []
  | (name, v) :: rest => do
    let first ← unwrapped? v
    return (name, first) :: (← unwrappedFields? rest)

end

end Predistortion.Value
