import TypedTemplate.Text.Span

/-!
Finite doubles as exact dyadic numbers. `decode` gives the mantissa and the
exponent of two, `ofRatio` rounds an exact ratio of naturals to the nearest
double, a tie going to the even mantissa. Remainders are computed exactly
between the two.
-/
namespace TypedTemplate.Binary64

/-- The magnitude `mantissa * 2 ^ exponent` with a sign. -/
structure Dyadic where
  negative : Bool
  mantissa : Nat
  exponent : Int
  deriving DecidableEq, Repr

/-- The number as a dyadic; nothing for the infinities and for NaN. -/
def decode (x : Float) : Option Dyadic :=
  let bits := x.toBits.toNat
  let negative := bits / Nat.pow 2 63 = 1
  let biased : Nat := bits / Nat.pow 2 52 % Nat.pow 2 11
  let fraction : Nat := bits % Nat.pow 2 52
  if biased = 2047 then none
  else if biased = 0 then some ⟨negative, fraction, -1074⟩
  else some ⟨negative, fraction + Nat.pow 2 52, (biased : Int) - 1075⟩

/-- The numerator and denominator of `n * 2 ^ exponent`. -/
def ratio (n : Nat) (exponent : Int) : Nat × Nat :=
  if exponent < 0 then (n, Nat.pow 2 exponent.natAbs) else (n * Nat.pow 2 exponent.natAbs, 1)

/-- The quotient rounded to the nearest natural, a half going to the even one. -/
def roundHalfEven (n d : Nat) : Nat :=
  let q := n / d
  let twice := 2 * (n % d)
  if twice < d then q
  else if d < twice then q + 1
  else if q % 2 = 0 then q else q + 1

/-- The floor of the binary logarithm of a positive ratio. -/
def logTwo (n d : Nat) : Int :=
  let estimate : Int := (n.log2 : Int) - (d.log2 : Int)
  let (num, den) := ratio 1 estimate
  if num * d ≤ n * den then estimate else estimate - 1

/-- The bits of the double nearest to the ratio; those of infinity past the largest. -/
def magnitudeBits (n d : Nat) : Nat :=
  if n = 0 then 0 else
  let exponent := max (logTwo n d - 52) (-1074)
  let (num, den) := ratio 1 exponent
  let mantissa := roundHalfEven (n * den) (d * num)
  min ((exponent + 1074).toNat * Nat.pow 2 52 + mantissa) (2047 * Nat.pow 2 52)

/-- The double nearest to the ratio `n / d` with the given sign. -/
def ofRatio (negative : Bool) (n d : Nat) : Float :=
  Float.ofBits (UInt64.ofNat (magnitudeBits n d + if negative then Nat.pow 2 63 else 0))

/-- The exact remainder of a division whose quotient is cut towards zero. The
result has the sign of the dividend. -/
def remainder (x y : Float) : Float :=
  match decode x, decode y with
  | some a, some b =>
    if b.mantissa = 0 then 0.0 / 0.0 else
    let low := min a.exponent b.exponent
    let dividend := a.mantissa * Nat.pow 2 (a.exponent - low).toNat
    let divisor := b.mantissa * Nat.pow 2 (b.exponent - low).toNat
    let (n, d) := ratio (dividend % divisor) low
    ofRatio a.negative n d
  | some _, none => if y.isNaN then y else x
  | none, _ => 0.0 / 0.0

/-- The number without its fraction. -/
def truncate (x : Float) : Float :=
  if x < 0.0 then x.ceil else x.floor

/-- The greater number; the other one where one is NaN, and the second of two equals. -/
def greater (x y : Float) : Float :=
  if y.isNaN || y < x then x else y

/-- The lesser number; the other one where one is NaN, and the second of two equals. -/
def lesser (x y : Float) : Float :=
  if y.isNaN || x < y then x else y

end TypedTemplate.Binary64
