import Predistortion.Form.Value
import Predistortion.Toml.Text

/-!
# TOML scalars

Numbers, truth values and dates. Each is a run of letters, digits and the marks `+ - . : _`, so a
run is taken whole (`word`) and then matched as one of the kinds. Integers are held to 64 bits with
sign; a positive number that is too large for a double-precision float is refused. A date or time is
a table with one field that holds it as it was written.
-/

namespace Predistortion.Toml

/-! ## Digits -/

/-- Digits in groups: single underscores may stand between two digits. Gives the digits. -/
def groupedRest (isDigit : Char → Bool) : List Char → Option (List Char)
  | [] => some []
  | '_' :: d :: rest => if isDigit d then (groupedRest isDigit rest).map (d :: ·) else none
  | d :: rest => if isDigit d then (groupedRest isDigit rest).map (d :: ·) else none

/-- Digits in groups, at least one. -/
def grouped (isDigit : Char → Bool) : List Char → Option (List Char)
  | d :: rest => if isDigit d then (groupedRest isDigit rest).map (d :: ·) else none
  | [] => none

/-- The number that digits write in a base. -/
def number (base : Nat) (digits : List Char) : Nat :=
  digits.foldl (fun n c => base * n + (hexDigit? c).getD 0) 0

/-- Takes a sign off; `true` for a minus. -/
def signed : List Char → Bool × List Char
  | '+' :: rest => (false, rest)
  | '-' :: rest => (true, rest)
  | cs => (false, cs)

/-- Decimal digits without a needless zero in front. -/
def plainDecimal (cs : List Char) : Option (List Char) := do
  let digits ← grouped Char.isDigit cs
  match digits with
  | '0' :: _ :: _ => none
  | _ => return digits

/-! ## Integers -/

/-- The digits of a base that is named by a letter after a zero. -/
def basedDigits? (base : Nat) (cs : List Char) : Option Nat := do
  let digits ← grouped (fun c => match hexDigit? c with
    | some d => d < base
    | none => false) cs
  return number base digits

/-- A whole number. -/
def integer? (cs : List Char) : Option Int :=
  let based : Option Int :=
    match cs with
    | '0' :: 'x' :: rest => (basedDigits? 16 rest).map Int.ofNat
    | '0' :: 'o' :: rest => (basedDigits? 8 rest).map Int.ofNat
    | '0' :: 'b' :: rest => (basedDigits? 2 rest).map Int.ofNat
    | _ =>
      let (negative, rest) := signed cs
      (plainDecimal rest).map fun digits =>
        let n : Int := number 10 digits
        if negative then -n else n
  based.filter fun n => -0x8000000000000000 ≤ n && n < 0x8000000000000000

/-! ## Floats -/

/-- The parts of a float: sign, whole digits, fraction digits, exponent. -/
structure FloatParts where
  /-- The number is negative. -/
  negative : Bool
  /-- The digits before the point. -/
  whole : List Char
  /-- The digits after the point. -/
  fraction : List Char
  /-- The exponent. -/
  exponent : Int

/-- A letter that starts an exponent. -/
def isExponentMark (c : Char) : Bool := c == 'e' || c == 'E'

/-- An exponent after its letter. -/
def exponent? (cs : List Char) : Option Int := do
  let (negative, rest) := signed cs
  let digits ← grouped Char.isDigit rest
  let n : Int := number 10 digits
  return if negative then -n else n

/-- A float with a fraction, an exponent, or both. -/
def floatParts? (cs : List Char) : Option FloatParts := do
  let (negative, rest) := signed cs
  let mantissa := rest.takeWhile (!isExponentMark ·)
  let tail := rest.drop mantissa.length
  let wholePart := mantissa.takeWhile (· != '.')
  let whole ← plainDecimal wholePart
  let fraction ←
    match mantissa.drop wholePart.length with
    | _ :: digits => grouped Char.isDigit digits
    | [] => some []
  let exponent ←
    match tail with
    | _ :: digits => exponent? digits
    | [] => some 0
  if wholePart.length = rest.length then failure
  return { negative, whole, fraction, exponent }

/-- The number rounds to a finite double-precision float. -/
def FloatParts.isFinite (p : FloatParts) : Bool :=
  let digits := p.whole ++ p.fraction
  let n := number 10 digits
  let exponent := p.exponent - p.fraction.length
  let size : Int := (Nat.toDigits 10 n).length + exponent
  let limit := Nat.pow 2 1024 - Nat.pow 2 970
  if n = 0 ∨ size < 300 then true
  else if size > 320 then false
  else if exponent ≥ 0 then n * Nat.pow 10 exponent.toNat < limit
  else n < limit * Nat.pow 10 (-exponent).toNat

/-- An infinity or not-a-number, with or without a sign. -/
def isSpecialFloat (cs : List Char) : Bool :=
  let (_, rest) := signed cs
  rest == "inf".toList || rest == "nan".toList

/-- The run of characters is a float. -/
def isFloat (cs : List Char) : Bool :=
  isSpecialFloat cs ||
    match floatParts? cs with
    | some p => p.negative || p.isFinite
    | none => false

/-! ## Dates and times -/

/-- A number of exactly `width` decimal digits in a range. -/
def digitsWithin (width low high : Nat) (cs : List Char) : Option (Nat × List Char) :=
  let digits := cs.take width
  if digits.length = width ∧ digits.all Char.isDigit then
    let n := number 10 digits
    if low ≤ n ∧ n ≤ high then some (n, cs.drop width) else none
  else
    none

/-- The character `c`. -/
def mark (c : Char) : List Char → Option (List Char)
  | d :: rest => if d = c then some rest else none
  | [] => none

/-- The year has a leap day. -/
def isLeapYear (year : Nat) : Bool := year % 4 == 0 && (year % 100 != 0 || year % 400 == 0)

/-- The days of a month. -/
def daysIn (year month : Nat) : Nat :=
  if month = 2 then (if isLeapYear year then 29 else 28)
  else if month ∈ [4, 6, 9, 11] then 30
  else 31

/-- Skips a date. -/
def date? (cs : List Char) : Option (List Char) := do
  let (year, cs) ← digitsWithin 4 0 9999 cs
  let cs ← mark '-' cs
  let (month, cs) ← digitsWithin 2 1 12 cs
  let cs ← mark '-' cs
  let (_, cs) ← digitsWithin 2 1 (daysIn year month) cs
  return cs

/-- Skips a time of day; a minute may have a leap second. -/
def time? (cs : List Char) : Option (List Char) := do
  let (_, cs) ← digitsWithin 2 0 23 cs
  let cs ← mark ':' cs
  let (_, cs) ← digitsWithin 2 0 59 cs
  let cs ← mark ':' cs
  let (_, cs) ← digitsWithin 2 0 60 cs
  match cs with
  | '.' :: rest =>
    let fraction := rest.takeWhile Char.isDigit
    if fraction.isEmpty then none else some (rest.drop fraction.length)
  | _ => some cs

/-- What may follow a time: nothing, or the distance from universal time. -/
def isOffset : List Char → Bool
  | [] => true
  | ['Z'] | ['z'] => true
  | s :: rest =>
    (s == '+' || s == '-') &&
      match (do
        let (_, cs) ← digitsWithin 2 0 23 rest
        let cs ← mark ':' cs
        digitsWithin 2 0 59 cs) with
      | some (_, []) => true
      | _ => false

/-- The run of characters is a time of day with an optional distance from universal time. -/
def isOffsetTime (cs : List Char) : Bool :=
  match time? cs with
  | some rest => isOffset rest
  | none => false

/-- The run of characters is a date, a time of day, or both joined by a letter. -/
def isDateTime (cs : List Char) : Bool :=
  time? cs == some [] ||
    match date? cs with
    | some [] => true
    | some (t :: rest) => (t == 'T' || t == 't') && isOffsetTime rest
    | none => false

/-- A date or time as a value. -/
def dateValue (literal : List Char) : Value :=
  .table [("$__toml_private_datetime", .text (String.ofList literal))]

/-! ## Scalars -/

/-- A character of a number, a truth value or a date. -/
def isWordChar (c : Char) : Bool :=
  c.isAlphanum || c == '_' || c == '+' || c == '-' || c == '.' || c == ':'

/-- What a run of characters stands for. -/
def ofWord (cs : List Char) : Option Value :=
  if cs = "true".toList then some (.bool true)
  else if cs = "false".toList then some (.bool false)
  else if isDateTime cs then some (dateValue cs)
  else
    match integer? cs with
    | some n => some (.int n)
    | none => if isFloat cs then some (.real (String.ofList cs)) else none

/-- Reads a number, a truth value or a date. A date may be joined to a time by a single blank. -/
def scalar (cs : List Char) : Option (Value × List Char) := do
  let word := cs.takeWhile isWordChar
  let rest := cs.drop word.length
  let v ← ofWord word
  match date? word, rest with
  | some [], ' ' :: next =>
    let time := next.takeWhile isWordChar
    if isOffsetTime time then
      return (dateValue (word ++ ' ' :: time), next.drop time.length)
    else
      return (v, rest)
  | _, _ => return (v, rest)

end Predistortion.Toml
