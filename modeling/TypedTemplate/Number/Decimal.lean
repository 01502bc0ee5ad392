import TypedTemplate.Number.Binary64

/-!
Decimal text of doubles. `shortest` finds the decimal with the fewest digits that
reads back as the same double, and among those the nearest one. Numbers are
printed in positional notation (`Decimal.positional`), or for inspection with an
exponent where they are very large or very small (`inspect`).
-/
namespace TypedTemplate

/-- The number `digits * 10 ^ exponent`. -/
structure Decimal where
  digits : Nat
  exponent : Int
  deriving DecidableEq, Repr

namespace Decimal

/-- The value and the ends of the interval that rounds to it, in units of a power
of ten: all three over one denominator. -/
structure Grid where
  low : Nat
  value : Nat
  high : Nat
  unit : Nat

/-- Scales the interval of `mantissa * 2 ^ exponent` to the grid of `10 ^ power`.
Below a power of two the doubles are twice as dense, so the lower half-gap is
half as wide there. -/
def grid (mantissa : Nat) (exponent power : Int) : Grid :=
  let below := if mantissa = Nat.pow 2 52 ∧ exponent ≠ -1074 then 1 else 2
  let (num, den) := Binary64.ratio 1 (exponent - 2)
  let (up, down) := if power < 0 then (Nat.pow 10 power.natAbs, 1) else (1, Nat.pow 10 power.natAbs)
  let scale := num * up
  { low := (4 * mantissa - below) * scale
    value := 4 * mantissa * scale
    high := (4 * mantissa + 2) * scale
    unit := den * down }

/-- The multiple of the unit that lies in the interval, the nearer of two and the
greater in a tie. The ends belong to the interval of an even mantissa. -/
def Grid.hit (g : Grid) (closed : Bool) : Option Nat :=
  let d := g.value / g.unit
  let lower := if closed then g.low ≤ d * g.unit else g.low < d * g.unit
  let upper := if closed then (d + 1) * g.unit ≤ g.high else (d + 1) * g.unit < g.high
  if lower then
    if upper ∧ g.unit ≤ 2 * (g.value % g.unit) then some (d + 1) else some d
  else if upper then some (d + 1)
  else none

/-- Tries the powers of ten from `power` down until a grid has a point in the interval. -/
def search (mantissa : Nat) (exponent : Int) : Nat → Int → Decimal
  | 0, power => ⟨0, power⟩
  | fuel + 1, power =>
    match (grid mantissa exponent power).hit (mantissa % 2 = 0) with
    | some digits => ⟨digits, power⟩
    | none => search mantissa exponent fuel (power - 1)

/-- The shortest decimal that reads back as the magnitude `mantissa * 2 ^ exponent`. -/
def shortest (mantissa : Nat) (exponent : Int) : Decimal :=
  if mantissa = 0 then ⟨0, 0⟩
  else
    let bits : Int := mantissa.log2 + 1 + exponent
    search mantissa exponent 24 (bits * 30103 / 100000 + 1)

def zeros (n : Nat) : String := String.ofList (List.replicate n '0')

/-- All digits around the point and no exponent; no point before an empty fraction. -/
def positional (d : Decimal) : String :=
  let text := toString d.digits
  if 0 ≤ d.exponent then text ++ zeros d.exponent.toNat
  else
    let places := d.exponent.natAbs
    if places < text.length then
      let cut := text.length - places
      String.ofList (text.toList.take cut) ++ "." ++ String.ofList (text.toList.drop cut)
    else "0." ++ zeros (places - text.length) ++ text

/-- One digit before the point and the power of ten after an `e`. -/
def scientific (d : Decimal) : String :=
  let text := (toString d.digits).toList
  let power := d.exponent + (text.length - 1 : Nat)
  let fraction := text.drop 1
  String.ofList (text.take 1) ++ (if fraction.isEmpty then "" else "." ++ String.ofList fraction)
    ++ "e" ++ toString power

end Decimal

/-- The fewest digits that read back, always positional; `NaN`, `inf`, and `-` also
before a negative zero. -/
def formatNumber (x : Float) : String :=
  match Binary64.decode x with
  | some d =>
    (if d.negative then "-" else "") ++ (Decimal.shortest d.mantissa d.exponent).positional
  | none => if x.isNaN then "NaN" else if x < 0.0 then "-inf" else "inf"

/-- The text of a number in a dump of a syntax tree: an integer keeps `.0`, and an
exponent is used from `1e16` on and below `1e-4`. -/
def inspectNumber (x : Float) : String :=
  match Binary64.decode x with
  | some d =>
    let short := Decimal.shortest d.mantissa d.exponent
    let magnitude := x.abs
    let body :=
      if magnitude ≥ 1e16 || (magnitude != 0.0 && magnitude < 1e-4) then short.scientific
      else if short.exponent < 0 then short.positional
      else short.positional ++ ".0"
    (if d.negative then "-" else "") ++ body
  | none => formatNumber x

end TypedTemplate
