import Predistortion.Text.Blank

/-!
# TOML text

The smallest parts of a TOML document: blanks, comments and line ends, bare keys, and the four kinds
of strings. A reader takes characters and gives what it read together with the rest; it gives
nothing when the text breaks a rule. Control characters other than tab are allowed nowhere, and a
carriage return stands only before a line feed.
-/

namespace Predistortion.Toml

/-- Reads something at the start of a text and gives the rest. -/
abbrev Reader (α : Type) := List Char → Option (α × List Char)

/-! ## Characters -/

/-- A blank within a line. -/
def isSpace (c : Char) : Bool := c == ' ' || c == '\t'

/-- A control character other than tab. -/
def isControl (c : Char) : Bool := (c.toNat < 0x20 && c != '\t') || c.toNat == 0x7F

/-- A character of a bare key. -/
def isBare (c : Char) : Bool := c.isAlphanum || c == '_' || c == '-'

/-- The value of a hexadecimal digit of either case. -/
def hexDigit? (c : Char) : Option Nat :=
  if c.isDigit then some (c.toNat - '0'.toNat)
  else if 'a' ≤ c ∧ c ≤ 'f' then some (c.toNat - 'a'.toNat + 10)
  else if 'A' ≤ c ∧ c ≤ 'F' then some (c.toNat - 'A'.toNat + 10)
  else none

/-! ## Blanks, comments and line ends -/

/-- Skips blanks within a line. -/
def skipSpaces (cs : List Char) : List Char := cs.dropWhile isSpace

/-- Skips a line end, if there is one. -/
def lineEnd? : List Char → Option (List Char)
  | '\n' :: rest => some rest
  | '\r' :: '\n' :: rest => some rest
  | _ => none

/-- Skips a comment, if there is one, up to the line end. -/
def skipComment (cs : List Char) : List Char :=
  match cs with
  | '#' :: rest => rest.dropWhile (!isControl ·)
  | _ => cs

/-- Skips blanks, comments and line ends, through at most `fuel` lines. -/
def skipLines : Nat → List Char → List Char
  | 0, cs => cs
  | fuel + 1, cs =>
    let rest := skipComment (skipSpaces cs)
    match lineEnd? rest with
    | some next => skipLines fuel next
    | none => rest

/-- Skips blanks, comments and line ends. -/
def skipBlank (cs : List Char) : List Char := skipLines (cs.length + 1) cs

/-! ## Strings -/

/-- Reads the four or eight hexadecimal digits of an escaped character. -/
def escapedCode (digits : Nat) (cs : List Char) : Option (Char × List Char) := do
  let code := cs.take digits
  if code.length < digits then failure
  let n ← code.foldlM (fun n c => (hexDigit? c).map (16 * n + ·)) 0
  if h : n.isValidChar then return (Char.ofNatAux n h, cs.drop digits) else failure

/-- Reads what follows a backslash. -/
def escape : Reader Char
  | 'b' :: rest => some ('\x08', rest)
  | 't' :: rest => some ('\t', rest)
  | 'n' :: rest => some ('\n', rest)
  | 'f' :: rest => some ('\x0c', rest)
  | 'r' :: rest => some ('\r', rest)
  | '"' :: rest => some ('"', rest)
  | '\\' :: rest => some ('\\', rest)
  | 'u' :: rest => escapedCode 4 rest
  | 'U' :: rest => escapedCode 8 rest
  | _ => none

/-- Reads a basic string after its quote; `fuel` bounds the characters. -/
def basicRest : Nat → List Char → Reader String
  | 0, _, _ => none
  | fuel + 1, done, cs =>
    match cs with
    | '"' :: rest => some (String.ofList done.reverse, rest)
    | '\\' :: rest => do
      let (c, rest) ← escape rest
      basicRest fuel (c :: done) rest
    | c :: rest => if isControl c then none else basicRest fuel (c :: done) rest
    | [] => none

/-- Reads a literal string after its quote. -/
def literalRest (cs : List Char) : Option (String × List Char) :=
  let body := cs.takeWhile fun c => c != '\'' && !isControl c
  match cs.drop body.length with
  | '\'' :: rest => some (String.ofList body, rest)
  | _ => none

/-- Drops the line end right after the opening of a string of several lines. -/
def dropFirstLineEnd (cs : List Char) : List Char := (lineEnd? cs).getD cs

/-- Skips blanks and line ends, through at most `fuel` lines. -/
def skipEmptyLines : Nat → List Char → List Char
  | 0, cs => cs
  | fuel + 1, cs =>
    let rest := skipSpaces cs
    match lineEnd? rest with
    | some next => skipEmptyLines fuel next
    | none => rest

/-- Skips the blanks and line ends after a backslash that ends a line; there must be a line end. -/
def continuation? (cs : List Char) : Option (List Char) :=
  (lineEnd? (skipSpaces cs)).map fun rest => skipEmptyLines (rest.length + 1) rest

/-- Takes a run of quotes apart: those that belong to the string, and whether the string ends. Three
quotes end it, and up to two more before them belong to it. -/
def quoteRun (n : Nat) : Nat × Bool := if n < 3 then (n, false) else (min n 5 - 3, true)

/-- Reads a string of several lines after its opening; `quote` ends it, and escapes are read only in
a basic string. Line ends become line feeds. -/
def linesRest (quote : Char) (basic : Bool) : Nat → List Char → Reader String
  | 0, _, _ => none
  | fuel + 1, done, cs =>
    match cs with
    | [] => none
    | c :: rest =>
      if c = quote then
        let run := quoteRun (cs.takeWhile (· == quote)).length
        let done := List.replicate run.1 quote ++ done
        if run.2 then some (String.ofList done.reverse, cs.drop (run.1 + 3))
        else linesRest quote basic fuel done (cs.drop run.1)
      else if c = '\\' ∧ basic then
        match continuation? rest with
        | some rest => linesRest quote basic fuel done rest
        | none => do
          let (c, rest) ← escape rest
          linesRest quote basic fuel (c :: done) rest
      else
        match lineEnd? cs with
        | some rest => linesRest quote basic fuel ('\n' :: done) rest
        | none => if isControl c then none else linesRest quote basic fuel (c :: done) rest

/-- Reads a string of any kind. -/
def string (cs : List Char) : Option (String × List Char) :=
  match cs with
  | '"' :: '"' :: '"' :: rest => linesRest '"' true cs.length [] (dropFirstLineEnd rest)
  | '\'' :: '\'' :: '\'' :: rest => linesRest '\'' false cs.length [] (dropFirstLineEnd rest)
  | '"' :: rest => basicRest cs.length [] rest
  | '\'' :: rest => literalRest rest
  | _ => none

/-! ## Keys -/

/-- Reads one part of a key: bare, or a string on one line. -/
def keyPart (cs : List Char) : Option (String × List Char) :=
  match cs with
  | '"' :: rest => basicRest cs.length [] rest
  | '\'' :: rest => literalRest rest
  | _ =>
    let bare := cs.takeWhile isBare
    if bare.isEmpty then none else some (String.ofList bare, cs.drop bare.length)

/-- Reads the parts of a key, with points between them; `fuel` bounds the parts. -/
def keyParts : Nat → Reader (List String)
  | 0, _ => none
  | fuel + 1, cs => do
    let (part, rest) ← keyPart (skipSpaces cs)
    match skipSpaces rest with
    | '.' :: rest => do
      let (parts, rest) ← keyParts fuel rest
      return (part :: parts, rest)
    | rest => return ([part], rest)

/-- The most parts of a key. -/
def maxKeyParts : Nat := 79

/-- Reads a key with the blanks around it. -/
def key : Reader (List String) := keyParts maxKeyParts

end Predistortion.Toml
