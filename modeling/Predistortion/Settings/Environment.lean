import Predistortion.Text.Blank
import Predistortion.Toml.Text
import Predistortion.Form.Value

/-!
# Settings from the environment

An environment variable whose name starts with `ADRV_DPD_`, in any case, sets one field. The rest of
its name is the path of the field, in lower case, with two underscores or a point between the parts;
a variable with an empty part sets nothing. Its value is a truth value, a number, a text in double
quotes, a character in single quotes, a list in brackets, a table in braces, or else a text; a value
that does not read as a whole is a text as it stands.
-/

namespace Predistortion.Environment

/-! ## Values -/

/-- A character that ends a bare value inside a list or a table. -/
def isSeparator (c : Char) : Bool :=
  c == ',' || c == '[' || c == ']' || c == '\x7b' || c == '\x7d'

/-- A blank around a value. -/
def isSpace (c : Char) : Bool := c == ' ' || c == '\t' || c == '\n' || c == '\x0c' || c == '\r'

/-- Skips blanks. -/
def skipSpaces (cs : List Char) : List Char := cs.dropWhile isSpace

/-- The number that decimal digits write; there must be one. -/
def natural? (cs : List Char) : Option Nat :=
  if cs.isEmpty || !cs.all Char.isDigit then none
  else some (cs.foldl (fun n c => 10 * n + (c.toNat - '0'.toNat)) 0)

/-- A whole number of 64 bits, without sign or with one. -/
def integer? (cs : List Char) : Option Int :=
  match cs with
  | '-' :: rest => ((natural? rest).filter (· ≤ 0x8000000000000000)).map fun n => -(n : Int)
  | '+' :: rest => ((natural? rest).filter (· ≤ 0xFFFFFFFFFFFFFFFF)).map Int.ofNat
  | _ => ((natural? cs).filter (· ≤ 0xFFFFFFFFFFFFFFFF)).map Int.ofNat

/-- A number with a point: digits before or after it, and an exponent or none. -/
def isPointNumber (cs : List Char) : Bool :=
  let unsigned :=
    match cs with
    | '+' :: rest | '-' :: rest => rest
    | _ => cs
  let whole := unsigned.takeWhile Char.isDigit
  match unsigned.drop whole.length with
  | '.' :: rest =>
    let fraction := rest.takeWhile Char.isDigit
    let power :=
      match rest.drop fraction.length with
      | [] => true
      | e :: '+' :: digits | e :: '-' :: digits =>
        (e == 'e' || e == 'E') && (natural? digits).isSome
      | e :: digits => (e == 'e' || e == 'E') && (natural? digits).isSome
    !(whole.isEmpty && fraction.isEmpty) && power
  | _ => false

/-- A value without quotes. -/
def bare (cs : List Char) : Value :=
  let word := Text.trim cs
  if isPointNumber word then .real (String.ofList word)
  else
    match integer? word with
    | some n => .int n
    | none => .text (String.ofList word)

/-- The characters at the start that fit in a number of bytes. -/
def fitting : Nat → List Char → List Char
  | _, [] => []
  | room, c :: rest => if c.utf8Size ≤ room then c :: fitting (room - c.utf8Size) rest else []

/-- Characters of one byte fit in as many bytes as there are, so that a text of them is not cut. -/
theorem fitting_length_of_ascii {cs : List Char} (h : ∀ c ∈ cs, c.utf8Size = 1) :
    fitting cs.length cs = cs := by
  induction cs with
  | nil => rfl
  | cons c rest ih => simp_all [fitting]

/-- Reads a quoted text after its quote. A text without escapes is kept whole. Of what stands before
the first escape, as many bytes are kept as it has characters; in ASCII that is all of it. -/
def quotedRest? (cs : List Char) : Option (String × List Char) :=
  let plain := cs.takeWhile fun c => c != '"' && c != '\\' && !Toml.isControl c
  match cs.drop plain.length with
  | '"' :: rest => some (String.ofList plain, rest)
  | '\\' :: rest =>
    Toml.basicRest (cs.length + 1) (fitting plain.length plain).reverse ('\\' :: rest)
  | _ => none

/-- Reads a name inside a table. -/
def name? (cs : List Char) : Option (String × List Char) :=
  match cs with
  | '"' :: rest => quotedRest? rest
  | _ =>
    let word := cs.takeWhile Toml.isBare
    if word.isEmpty then none else some (String.ofList word, cs.drop word.length)

/-- Skips a word, if it comes next. -/
def word? (word : List Char) (cs : List Char) : Option (List Char) :=
  if cs.take word.length = word then some (cs.drop word.length) else none

mutual

/-- Reads a value with the blanks around it; `fuel` bounds the work. -/
def value : Nat → List Char → Option (Value × List Char)
  | 0, _ => none
  | fuel + 1, cs => do
    let cs := skipSpaces cs
    let (v, rest) ←
      match word? "true".toList cs, word? "false".toList cs, cs with
      | some rest, _, _ => some (.bool true, rest)
      | none, some rest, _ => some (.bool false, rest)
      | none, none, '[' :: rest => (items fuel rest).map fun (vs, rest) => (.list vs, rest)
      | none, none, '\x7b' :: rest => (fields fuel [] rest).map fun (fs, rest) => (.table fs, rest)
      | none, none, '"' :: rest => (quotedRest? rest).map fun (s, rest) => (.text s, rest)
      | none, none, '\'' :: c :: '\'' :: rest => some (.char c, rest)
      | none, none, '\'' :: _ => none
      | none, none, _ =>
        let word := cs.takeWhile (!isSeparator ·)
        some (bare word, cs.drop word.length)
    return (v, skipSpaces rest)

/-- Reads the items of a list up to the bracket that closes it. -/
def items : Nat → List Char → Option (List Value × List Char)
  | 0, _ => none
  | fuel + 1, cs =>
    match cs with
    | ']' :: rest => some ([], rest)
    | _ => do
      let (v, rest) ← value fuel cs
      match rest with
      | ',' :: rest => do
        let (vs, rest) ← items fuel rest
        return (v :: vs, rest)
      | ']' :: rest => return ([v], rest)
      | _ => none

/-- Reads the fields of a table up to the brace that closes it. -/
def fields : Nat → Value.Fields → List Char → Option (Value.Fields × List Char)
  | 0, _, _ => none
  | fuel + 1, done, cs =>
    match cs with
    | '\x7d' :: rest => some (done, rest)
    | _ => do
      let (name, rest) ← name? (skipSpaces cs)
      match skipSpaces rest with
      | '=' :: rest => do
        let (v, rest) ← value fuel rest
        let done := Value.insert done name v
        match rest with
        | ',' :: rest => fields fuel done rest
        | '\x7d' :: rest => return (done, rest)
        | _ => none
      | _ => none

end

/-- The value of a variable. -/
def ofText (s : String) : Value :=
  match value (s.length + 1) s.toList with
  | some (v, []) => v
  | _ => .text s

/-! ## Names -/

/-- What the names of all variables that set a field start with. -/
def commonStart : String := "ADRV_DPD_"

/-- The parts of a name between pairs of underscores or points; `done` holds the start of the first
part, last character first. -/
def pathParts : List Char → List Char → List String
  | done, [] => [String.ofList done.reverse]
  | done, '_' :: '_' :: rest | done, '.' :: rest =>
    String.ofList done.reverse :: pathParts [] rest
  | done, c :: rest => pathParts (c :: done) rest

/-- The path of the field that a variable sets, if it sets one: white space around the name, and
after the common start, does not count, and no part may be empty. -/
def path? (name : String) : Option (List String) := do
  let cs := Text.lowerAscii (Text.trim name.toList)
  let rest ← word? (Text.lowerAscii commonStart.toList) cs
  let path := pathParts [] (Text.trim rest)
  if path.contains "" then failure else return path

/-- The settings that some variables make, as a value. A later variable is laid over an earlier
one. -/
def ofVariables (assignments : List (String × String)) : Value :=
  assignments.foldl
    (fun v (name, text) =>
      match path? name with
      | some path => v.merge (Value.nest path (ofText text))
      | none => v)
    (.table [])

end Predistortion.Environment
