import Predistortion.Text.Numeral

/-!
# The shortest decimal in an interval

A rounded number stands for an interval of reals, those that round to it. Its shortest decimal is
the point of the coarsest decimal grid `10 ^ p` that meets the interval, and of the points of that
grid in the interval the one nearest to the number. All bounds are fractions over one denominator,
so the search is exact.
-/

namespace Predistortion.Shortest

/-- An interval around a number, over a common denominator. -/
structure Interval where
  /-- The numerator of the lower end. -/
  lower : Nat
  /-- The numerator of the number itself. -/
  value : Nat
  /-- The numerator of the upper end. -/
  upper : Nat
  /-- The common denominator. -/
  denominator : Nat
  /-- The ends belong to the interval. -/
  closed : Bool

/-- A decimal `digits * 10 ^ exponent`. -/
structure Decimal where
  /-- The digits. -/
  digits : Nat
  /-- The power of ten of the last digit. -/
  exponent : Int
deriving DecidableEq

namespace Interval

/-- `digits * unit` lies in the interval, where `unit` is a grid step and the interval is scaled to
the same denominator. -/
def holds (lower upper unit : Nat) (closed : Bool) (digits : Nat) : Bool :=
  let point := digits * unit
  if closed then lower ≤ point && point ≤ upper else lower < point && point < upper

/-- The point of the grid `10 ^ p` that is nearest to the number, if one lies in the interval. -/
def onGrid? (i : Interval) (p : Int) : Option Nat :=
  let scale := Nat.pow 10 (-p).toNat
  let unit := i.denominator * Nat.pow 10 p.toNat
  let value := i.value * scale
  let below := value / unit
  let hit := holds (i.lower * scale) (i.upper * scale) unit i.closed
  let rest := value % unit
  match hit below, hit (below + 1) with
  | true, true => some (if 2 * rest < unit then below else below + 1)
  | true, false => some below
  | false, true => some (below + 1)
  | false, false => none

/-- Searches the grids from `10 ^ p` downwards through `fuel` of them. -/
def search (i : Interval) : Nat → Int → Option Decimal
  | 0, _ => none
  | fuel + 1, p =>
    match i.onGrid? p with
    | some digits => some ⟨digits, p⟩
    | none => i.search fuel (p - 1)

end Interval

/-- Writes a decimal without an exponent: zeros fill the places between the digits and the point. -/
def Decimal.positional (d : Decimal) : String :=
  let digits := toString d.digits
  let places := (-d.exponent).toNat
  if d.exponent ≥ 0 then
    digits ++ "".pushn '0' d.exponent.toNat
  else if places < digits.length then
    let chars := digits.toList
    String.ofList (chars.take (chars.length - places)) ++ "." ++
      String.ofList (chars.drop (chars.length - places))
  else
    "0." ++ Numeral.decimal places d.digits

end Predistortion.Shortest
