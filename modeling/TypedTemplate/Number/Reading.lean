import TypedTemplate.Number.Binary64

/-!
Reading numbers. `Numeral` is a decimal numeral with a sign and an exponent;
`Numeral.toFloat` is the nearest double. `readNumber?` reads the numerals that
hosts and command lines write, `NaN` and infinities included.
-/
namespace TypedTemplate

/-- The number `±digits * 10 ^ exponent`. -/
structure Numeral where
  negative : Bool
  digits : Nat
  exponent : Int
  deriving DecidableEq, Repr

namespace Numeral

def digitValue (c : Char) : Nat := c.toNat - '0'.toNat

/-- The number that the decimal digits write, after those read so far. -/
def readDigits (soFar : Nat) (digits : List Char) : Nat :=
  digits.foldl (fun n c => 10 * n + digitValue c) soFar

/-- The nearest double. Magnitudes far outside the range of doubles are decided by
their order alone, so that a huge exponent costs nothing. -/
def toFloat (n : Numeral) : Float :=
  let order : Int := (toString n.digits).length + n.exponent
  if n.digits = 0 ∨ order < -400 then Binary64.ofRatio n.negative 0 1
  else if 400 < order then Binary64.ofRatio n.negative (Nat.pow 10 400) 1
  else if n.exponent < 0 then Binary64.ofRatio n.negative n.digits (Nat.pow 10 n.exponent.natAbs)
  else Binary64.ofRatio n.negative (n.digits * Nat.pow 10 n.exponent.natAbs) 1

/-- The numeral made of the digits before and after the point and an exponent. -/
def ofParts (negative : Bool) (whole fraction : List Char) (exponent : Int) : Numeral :=
  ⟨negative, readDigits (readDigits 0 whole) fraction, exponent - fraction.length⟩

end Numeral

/-- Takes a sign off the front; true for a minus. -/
def takeSign : List Char → Bool × List Char
  | '-' :: cs => (true, cs)
  | '+' :: cs => (false, cs)
  | cs => (false, cs)

/-- The exponent that makes up the whole text: nothing, or `e` with a signed integer. -/
def readExponent? : List Char → Option Int
  | [] => some 0
  | e :: cs =>
    if e = 'e' ∨ e = 'E' then
      let (negative, digits) := takeSign cs
      if !digits.isEmpty && digits.all Char.isDigit then
        let n := Numeral.readDigits 0 digits
        some (if negative then -(n : Int) else n)
      else none
    else none

/-- A number: an optional sign, then digits with an optional point among or beside
them and an optional exponent, or `inf`, `infinity` or `nan` in any case. -/
def readNumber? (text : String) : Option Float :=
  let (negative, body) := takeSign text.toList
  let word := String.ofList (body.map Char.toLower)
  if word = "inf" ∨ word = "infinity" then
    some (if negative then -(1.0 / 0.0) else 1.0 / 0.0)
  else if word = "nan" then some (0.0 / 0.0)
  else
    let whole := body.takeWhile Char.isDigit
    let (fraction, rest) := match body.dropWhile Char.isDigit with
      | '.' :: cs => (cs.takeWhile Char.isDigit, cs.dropWhile Char.isDigit)
      | cs => ([], cs)
    if whole.isEmpty && fraction.isEmpty then none
    else (readExponent? rest).map fun e => (Numeral.ofParts negative whole fraction e).toFloat

end TypedTemplate
