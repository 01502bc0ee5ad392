/-!
The inside of a quoted string literal. Escapes are those of JSON: short escapes and
four hexadecimal digits per UTF-16 unit, where the two units of a pair stand side by
side. Control characters and units without a partner are refused.
-/
namespace TypedTemplate.Literal

def hexValue? (c : Char) : Option Nat :=
  if c.isDigit then some (c.toNat - '0'.toNat)
  else if 'a' ≤ c ∧ c ≤ 'f' then some (c.toNat - 'a'.toNat + 10)
  else if 'A' ≤ c ∧ c ≤ 'F' then some (c.toNat - 'A'.toNat + 10)
  else none

/-- The number that hexadecimal digits write. -/
def hexNumber? (digits : List Char) : Option Nat :=
  digits.foldlM (fun n c => (hexValue? c).map (16 * n + ·)) 0

def shortEscape? : Char → Option Char
  | '"' => some '"'
  | '\\' => some '\\'
  | '/' => some '/'
  | 'b' => some '\x08'
  | 'f' => some '\x0c'
  | 'n' => some '\n'
  | 'r' => some '\r'
  | 't' => some '\t'
  | _ => none

def isHighUnit (n : Nat) : Bool := 0xD800 ≤ n && n < 0xDC00

def isLowUnit (n : Nat) : Bool := 0xDC00 ≤ n && n < 0xE000

/-- The character that a pair of UTF-16 units stands for. -/
def pairedChar (high low : Nat) : Char :=
  Char.ofNat (0x10000 + (high - 0xD800) * 0x400 + (low - 0xDC00))

/-- The text that the characters between the quotes stand for. -/
def decode? : List Char → Option (List Char)
  | [] => some []
  | '\\' :: 'u' :: a :: b :: c :: d :: '\\' :: 'u' :: e :: f :: g :: h :: cs => do
    let unit ← hexNumber? [a, b, c, d]
    if isHighUnit unit then
      let low ← hexNumber? [e, f, g, h]
      if isLowUnit low then return pairedChar unit low :: (← decode? cs) else none
    else if isLowUnit unit then none
    else return Char.ofNat unit :: (← decode? ('\\' :: 'u' :: e :: f :: g :: h :: cs))
  | '\\' :: 'u' :: a :: b :: c :: d :: cs => do
    let unit ← hexNumber? [a, b, c, d]
    if isHighUnit unit || isLowUnit unit then none
    else return Char.ofNat unit :: (← decode? cs)
  | '\\' :: c :: cs => do return (← shortEscape? c) :: (← decode? cs)
  | c :: cs => if c = '\\' ∨ c.toNat < 32 then none else do return c :: (← decode? cs)

end TypedTemplate.Literal
