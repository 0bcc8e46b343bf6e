/-!
# Padded numerals

Numbers in messages are written in base ten or in upper-case base sixteen, padded on the left with
zeros to a least width. A number that needs more digits keeps all of them.
-/

namespace Predistortion.Numeral

/-- Pads a digit string on the left with zeros to at least `width` characters. -/
def padZero (width : Nat) (digits : List Char) : String :=
  String.ofList (List.replicate (width - digits.length) '0' ++ digits)

/-- The decimal digits of `n`, at least `width` of them. -/
def decimal (width n : Nat) : String :=
  padZero width (Nat.toDigits 10 n)

/-- The upper-case hexadecimal digits of `n`, at least `width` of them. -/
def hex (width n : Nat) : String :=
  padZero width ((Nat.toDigits 16 n).map Char.toUpper)

end Predistortion.Numeral
