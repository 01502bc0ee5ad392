import TypedTemplate.Number.Reading
import TypedTemplate.Text.Literal
import TypedTemplate.Text.Span
import TypedTemplate.Token

/-!
Splitting text into tokens. At each place blanks are skipped and the longest token
is taken: `munch` reads it off the front and always takes at least one character,
and `lexUntil` repeats that up to a token at which the caller wants to stop. What
is no token becomes an error item, so nothing but blanks is lost.
-/
namespace TypedTemplate

/-- Space, tab, line feed, carriage return, vertical tab and form feed. -/
def isBlank (c : Char) : Bool :=
  c = ' ' || c = '\t' || c = '\n' || c = '\r' || c = '\x0b' || c = '\x0c'

/-- The characters of a name: ASCII letters and digits, `_` and `-`. -/
def isNameChar (c : Char) : Bool := c.isAlphanum || c = '_' || c = '-'

/-- A token, or nothing for an error, with the characters it was read from. -/
structure Lexeme where
  token : Option Token
  source : List Char

namespace Lexer

/-- An optional minus and at least one digit. -/
def takeInteger (cs : List Char) : Option (List Char) :=
  match cs with
  | '-' :: rest => if rest.takeWhile Char.isDigit = [] then none else
      some ('-' :: rest.takeWhile Char.isDigit)
  | _ => if cs.takeWhile Char.isDigit = [] then none else some (cs.takeWhile Char.isDigit)

/-- The digits after a point, if the text goes on with a point and a digit. -/
def takeFraction : List Char → List Char
  | '.' :: cs => cs.takeWhile Char.isDigit
  | _ => []

/-- An exponent with its `e`, its sign and its digits; nothing if a digit is missing. -/
def takeExponent (cs : List Char) : List Char :=
  match cs with
  | e :: s :: rest =>
    if e = 'e' ∨ e = 'E' then
      if s = '+' ∨ s = '-' then
        if rest.takeWhile Char.isDigit = [] then [] else e :: s :: rest.takeWhile Char.isDigit
      else if (s :: rest).takeWhile Char.isDigit = [] then []
      else e :: (s :: rest).takeWhile Char.isDigit
    else []
  | _ => []

/-- A numeral read off the front of a text. -/
structure NumeralParts where
  integer : List Char
  fraction : List Char
  exponent : List Char

namespace NumeralParts

/-- The characters of the numeral; the point stands only before a fraction. -/
def source (n : NumeralParts) : List Char :=
  n.integer ++ (if n.fraction = [] then [] else '.' :: n.fraction) ++ n.exponent

def toFloat (n : NumeralParts) : Float :=
  let (negative, whole) := takeSign n.integer
  (Numeral.ofParts negative whole n.fraction ((readExponent? n.exponent).getD 0)).toFloat

end NumeralParts

/-- The longest numeral at the front: an integer, a fraction if a point and a digit
follow, an exponent if it is complete. -/
def takeNumeral (cs : List Char) : Option NumeralParts :=
  (takeInteger cs).map fun integer =>
    let afterInteger := cs.drop integer.length
    let fraction := takeFraction afterInteger
    let afterFraction :=
      if fraction = [] then afterInteger else afterInteger.drop (fraction.length + 1)
    ⟨integer, fraction, takeExponent afterFraction⟩

/-- How a string literal ends. -/
inductive StringEnd where
  | closed
  | unclosed
  deriving DecidableEq

/-- The characters after the opening quote up to the closing one, which is included.
An unclosed literal ends at the end of the text, or before a backslash that has
nothing or a line feed behind it. -/
def takeString : List Char → StringEnd × List Char
  | [] => (.unclosed, [])
  | '"' :: _ => (.closed, ['"'])
  | '\\' :: c :: cs =>
    if c = '\n' then (.unclosed, [])
    else let (stop, body) := takeString cs; (stop, '\\' :: c :: body)
  | c :: cs =>
    if c = '\\' then (.unclosed, [])
    else let (stop, body) := takeString cs; (stop, c :: body)

def stringLexeme (cs : List Char) : Lexeme :=
  match takeString cs with
  | (.unclosed, body) => ⟨none, '"' :: body⟩
  | (.closed, body) =>
    ⟨(Literal.decode? body.dropLast).map fun text => .text (String.ofList text), '"' :: body⟩

/-- Whether the name is an integer with an `e` behind it, the beginning of a numeral. -/
def isExponentStart (name : List Char) : Bool :=
  match takeInteger name with
  | some integer =>
    let rest := name.drop integer.length
    rest == ['e'] || rest == ['E']
  | none => false

/-- What a run of name characters is, given what follows. A run such as `1e` before
a plus sign is a broken numeral. -/
def nameLexeme (name rest : List Char) : Lexeme :=
  if isExponentStart name && rest.head? == some '+' then ⟨none, name⟩
  else if name = "true".toList then ⟨some .yes, name⟩
  else if name = "false".toList then ⟨some .no, name⟩
  else ⟨some (.ident (String.ofList name)), name⟩

/-- The longer of the name and the numeral at the front, a numeral where both have
the same length. -/
def wordLexeme (cs : List Char) : Lexeme :=
  let name := cs.takeWhile isNameChar
  match takeNumeral cs with
  | some numeral =>
    if name.length ≤ numeral.source.length then ⟨some (.number numeral.toFloat), numeral.source⟩
    else nameLexeme name (cs.drop name.length)
  | none => nameLexeme name (cs.drop name.length)

def punctuation? : Char → Option Token
  | '{' => some .braceOpen
  | '}' => some .braceClose
  | '(' => some .parenOpen
  | ')' => some .parenClose
  | ',' => some .comma
  | ':' => some .colon
  | '|' => some .pipe
  | '=' => some .equals
  | _ => none

/-- The token or error at the front of a text that starts with `c`, no blank. -/
def munch (c : Char) (cs : List Char) : Lexeme :=
  match punctuation? c with
  | some token => ⟨some token, [c]⟩
  | none =>
    if c = '"' then stringLexeme cs
    else if isNameChar c then wordLexeme (c :: cs)
    else ⟨none, [c]⟩

end Lexer

/-- A lexeme at its place in the text. -/
structure Located where
  lexeme : Lexeme
  span : Span

/-- The lexemes of a text whose first character stands at `offset`, up to the first
that has `stop`, which is returned apart with the text behind it. -/
def lexUntil (stop : Token → Bool) (offset : Nat) (cs : List Char) :
    List Located × Option (Located × List Char) :=
  match cs with
  | [] => ([], none)
  | c :: rest =>
    if isBlank c then lexUntil stop (offset + c.utf8Size) rest
    else
      let lexeme := Lexer.munch c rest
      let found : Located := ⟨lexeme, offset, offset + byteLength lexeme.source⟩
      let behind := rest.drop (lexeme.source.length - 1)
      if lexeme.token.any stop then ([], some (found, behind))
      else
        let (items, last) := lexUntil stop found.span.stop behind
        (found :: items, last)
termination_by cs.length
decreasing_by all_goals simp_wf; try omega

/-- The text behind the token at which splitting stopped is shorter than the text. -/
theorem lexUntil_rest_length {stop : Token → Bool} {offset : Nat} {cs : List Char}
    {items : List Located} {last : Located} {rest : List Char}
    (h : lexUntil stop offset cs = (items, some (last, rest))) : rest.length < cs.length := by
  fun_induction lexUntil stop offset cs generalizing items with
  | case1 => simp at h
  | case2 _ _ _ _ ih => exact Nat.lt_succ_of_lt (ih h)
  | case3 _ _ others _ lexeme _ behind =>
    simp only [Prod.mk.injEq, Option.some.injEq] at h
    obtain ⟨-, -, rfl⟩ := h
    have : behind.length ≤ others.length := by simp [behind]
    simp only [List.length_cons]
    omega
  | case4 _ _ others _ lexeme _ behind =>
    rename_i scanned ih
    simp only [Prod.mk.injEq] at h
    obtain ⟨-, rfl⟩ := h
    have := ih scanned
    have : behind.length ≤ others.length := by simp [behind]
    simp only [List.length_cons]
    omega

/-- The lexemes of a whole text. -/
def lex (text : String) : List Located :=
  (lexUntil (fun _ => false) 0 text.toList).1

/-- Whether the whole text is one name token, no literal. -/
def isIdent (text : String) : Bool :=
  match lex text with
  | [item] => match item.lexeme.token with
    | some (.ident _) => item.span = ⟨0, text.utf8ByteSize⟩
    | _ => false
  | _ => false

end TypedTemplate
