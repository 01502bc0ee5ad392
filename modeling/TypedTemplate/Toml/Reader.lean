import TypedTemplate.Number.Reading
import TypedTemplate.Text.Literal
import TypedTemplate.Toml

/-!
Reading TOML. A reader gives what it has read and the rest of the text. Strings come
in four forms, keys bare or quoted. Arrays may go over several lines, inline tables may
not. Integers have 64 bits, brackets have a greatest depth, and arrays of tables are
refused.
-/
namespace TypedTemplate.Toml

namespace Reader

/-! ## Blanks, comments and line ends -/

def isBlank (c : Char) : Bool := c = ' ' || c = '\t'

/-- Whether a character may stand in comments and strings of one line. -/
def isTextChar (c : Char) : Bool := c = '\t' || (32 ≤ c.toNat && c.toNat != 127)

def skipBlanks (cs : List Char) : List Char := cs.dropWhile isBlank

def skipComment : List Char → List Char
  | '#' :: cs => cs.dropWhile isTextChar
  | cs => cs

/-- Skips what may end a line; the line must end there or with the text. -/
def endOfLine? (cs : List Char) : Option (List Char) :=
  match skipComment (skipBlanks cs) with
  | [] => some []
  | '\n' :: rest => some rest
  | '\r' :: '\n' :: rest => some rest
  | _ => none

/-- Skips blanks, line ends and comments. -/
def skipLines (inComment : Bool) : List Char → List Char
  | '\n' :: cs => skipLines false cs
  | '\r' :: '\n' :: cs => skipLines false cs
  | c :: cs =>
    if inComment && isTextChar c then skipLines true cs
    else if !inComment && isBlank c then skipLines false cs
    else if !inComment && c = '#' then skipLines true cs
    else c :: cs
  | [] => []

/-! ## Strings -/

def shortEscape? : Char → Option Char
  | 'b' => some '\x08'
  | 't' => some '\t'
  | 'n' => some '\n'
  | 'f' => some '\x0c'
  | 'r' => some '\r'
  | '"' => some '"'
  | '\\' => some '\\'
  | _ => none

/-- The character with a code point given in hexadecimal digits. -/
def codePoint? (digits : List Char) : Option Char := do
  let n ← Literal.hexNumber? digits
  if Literal.isHighUnit n || Literal.isLowUnit n || n > 0x10FFFF then none else Char.ofNat n

/-- The result with one more character in front. -/
def push (c : Char) (result : Option (List Char × List Char)) : Option (List Char × List Char) :=
  result.map fun (read, rest) => (c :: read, rest)

/-- The inside of a string in double quotes, from behind the first one. -/
def basic : List Char → Option (List Char × List Char)
  | [] => none
  | '"' :: cs => some ([], cs)
  | '\\' :: 'u' :: a :: b :: c :: d :: cs =>
    (codePoint? [a, b, c, d]).bind fun x => push x (basic cs)
  | '\\' :: 'U' :: a :: b :: c :: d :: e :: f :: g :: h :: cs =>
    (codePoint? [a, b, c, d, e, f, g, h]).bind fun x => push x (basic cs)
  | '\\' :: c :: cs => (shortEscape? c).bind fun x => push x (basic cs)
  | c :: cs => if isTextChar c && c != '\\' then push c (basic cs) else none

/-- The inside of a string in single quotes, which has no escapes. -/
def plain : List Char → Option (List Char × List Char)
  | [] => none
  | '\'' :: cs => some ([], cs)
  | c :: cs => if isTextChar c then push c (plain cs) else none

def startsLine (cs : List Char) : Bool :=
  match skipBlanks cs with
  | '\n' :: _ => true
  | '\r' :: '\n' :: _ => true
  | _ => false

/-- One or two quotes in front of the three that end a string belong to the string. -/
def closing (quote : Char) : List Char → List Char × List Char
  | a :: b :: cs =>
    if a = quote ∧ b = quote then ([a, b], cs)
    else if a = quote then ([a], b :: cs) else ([], a :: b :: cs)
  | [a] => if a = quote then ([a], []) else ([], [a])
  | [] => ([], [])

/-- The inside of a string in three double quotes. A backslash at the end of a line
takes away all blanks and line ends behind it; `trim` is set while it does. -/
def basicLines (trim : Bool) : List Char → Option (List Char × List Char)
  | [] => none
  | '"' :: '"' :: '"' :: cs => some (closing '"' cs)
  | '\\' :: 'u' :: a :: b :: c :: d :: cs =>
    (codePoint? [a, b, c, d]).bind fun x => push x (basicLines false cs)
  | '\\' :: 'U' :: a :: b :: c :: d :: e :: f :: g :: h :: cs =>
    (codePoint? [a, b, c, d, e, f, g, h]).bind fun x => push x (basicLines false cs)
  | '\r' :: '\n' :: cs => if trim then basicLines true cs else push '\n' (basicLines false cs)
  | '\n' :: cs => if trim then basicLines true cs else push '\n' (basicLines false cs)
  | '\\' :: c :: cs =>
    if startsLine (c :: cs) then basicLines true (c :: cs)
    else (shortEscape? c).bind fun x => push x (basicLines false cs)
  | c :: cs =>
    if trim && isBlank c then basicLines true cs
    else if isTextChar c && c != '\\' then push c (basicLines false cs)
    else none

/-- The inside of a string in three single quotes. -/
def plainLines : List Char → Option (List Char × List Char)
  | [] => none
  | '\'' :: '\'' :: '\'' :: cs => some (closing '\'' cs)
  | '\r' :: '\n' :: cs => push '\n' (plainLines cs)
  | '\n' :: cs => push '\n' (plainLines cs)
  | c :: cs => if isTextChar c then push c (plainLines cs) else none

/-- A line end right behind three quotes is not part of the string. -/
def dropLineEnd : List Char → List Char
  | '\n' :: cs => cs
  | '\r' :: '\n' :: cs => cs
  | cs => cs

/-- A string in any of its forms. -/
def string? : List Char → Option (String × List Char)
  | '"' :: '"' :: '"' :: cs => toText (basicLines false (dropLineEnd cs))
  | '\'' :: '\'' :: '\'' :: cs => toText (plainLines (dropLineEnd cs))
  | '"' :: cs => toText (basic cs)
  | '\'' :: cs => toText (plain cs)
  | _ => none
where
  toText (result : Option (List Char × List Char)) : Option (String × List Char) :=
    result.map fun (read, rest) => (String.ofList read, rest)

/-! ## Keys -/

/-- How deep brackets may be nested, and of how many parts a key may be. -/
def maxDepth : Nat := 79

def isKeyChar (c : Char) : Bool := c.isAlphanum || c = '_' || c = '-'

def key? : List Char → Option (String × List Char)
  | '"' :: cs => (basic cs).map fun (read, rest) => (String.ofList read, rest)
  | '\'' :: cs => (plain cs).map fun (read, rest) => (String.ofList read, rest)
  | cs =>
    let bare := cs.takeWhile isKeyChar
    if bare.isEmpty then none else some (String.ofList bare, cs.dropWhile isKeyChar)

/-- A key of at most `count` parts with points between them. -/
def parts? (count : Nat) (cs : List Char) : Option (List String × List Char) :=
  match count with
  | 0 => none
  | count + 1 => do
    let (key, cs) ← key? (skipBlanks cs)
    match skipBlanks cs with
    | '.' :: rest =>
      let (keys, rest) ← parts? count rest
      return (key :: keys, rest)
    | rest => return ([key], rest)

/-- A key of one or more parts. -/
def path? (cs : List Char) : Option (List String × List Char) := parts? maxDepth cs

/-! ## Values -/

/-- Digits in groups with single underscores between them. -/
def isDigits (p : Char → Bool) (cs : List Char) : Bool :=
  ((String.ofList cs).splitOn "_").all fun group => !group.isEmpty && group.toList.all p

/-- The number that digits write in a base of at most sixteen. -/
def natural? (base : Nat) (cs : List Char) : Option Nat :=
  if isDigits (fun c => (Literal.hexValue? c).any (· < base)) cs then
    some ((cs.filterMap Literal.hexValue?).foldl (fun n digit => base * n + digit) 0)
  else none

/-- A whole part starts with zero only if it is zero. -/
def isWhole (cs : List Char) : Bool :=
  isDigits Char.isDigit cs && (cs.head? != some '0' || cs.length = 1)

/-- The integer that a word writes, whatever its size. -/
def unbounded? : List Char → Option Int
  | '0' :: 'x' :: cs => (natural? 16 cs).map Int.ofNat
  | '0' :: 'o' :: cs => (natural? 8 cs).map Int.ofNat
  | '0' :: 'b' :: cs => (natural? 2 cs).map Int.ofNat
  | word =>
    let (negative, body) := takeSign word
    if isWhole body then (natural? 10 body).map fun n => if negative then -(n : Int) else n
    else none

/-- An integer of 64 bits. -/
def integer? (word : List Char) : Option Int := do
  let n ← unbounded? word
  if -9223372036854775808 ≤ n ∧ n ≤ 9223372036854775807 then some n else none

/-- An exponent and nothing else. -/
def isExponent : List Char → Bool
  | [] => false
  | e :: cs => (e = 'e' || e = 'E') && isDigits Char.isDigit (takeSign cs).2

/-- A fraction, an exponent, or the one and then the other. -/
def isFractionOrExponent : List Char → Bool
  | '.' :: cs =>
    let digits := cs.takeWhile fun c => c.isDigit || c = '_'
    let rest := cs.drop digits.length
    isDigits Char.isDigit digits && (rest.isEmpty || isExponent rest)
  | cs => isExponent cs

/-- A number with a fraction or an exponent, or a special value. A number may be too far
below zero to be written, but not too far above it. -/
def number? (word : List Char) : Option Float :=
  let (negative, body) := takeSign word
  let whole := body.takeWhile fun c => c.isDigit || c = '_'
  if body = ['i', 'n', 'f'] then some (if negative then -(1.0 / 0.0) else 1.0 / 0.0)
  else if body = ['n', 'a', 'n'] then some (0.0 / 0.0)
  else if isWhole whole && isFractionOrExponent (body.drop whole.length) then
    (readNumber? (String.ofList (word.filter (· != '_')))).filter fun x =>
      negative || x.isFinite
  else none

def isWordChar (c : Char) : Bool := isKeyChar c || c = '+' || c = '.'

/-- A value that is written without quotes or brackets. -/
def word? (cs : List Char) : Option (Toml × List Char) :=
  if Moment.starts cs then (Moment.read? cs).map fun (value, rest) => (.moment value, rest)
  else
    let word := cs.takeWhile isWordChar
    let value? : Option Toml :=
      if word = "true".toList then some (.bool true)
      else if word = "false".toList then some (.bool false)
      else ((integer? word).map Toml.integer).or ((number? word).map Toml.number)
    value?.map fun value => (value, cs.dropWhile isWordChar)

/-- The table of an inline table's entries. -/
def inlineTable? (entries : List (List String × Toml)) : Option Toml :=
  (entries.foldlM (fun (table : Entries) (path, value) => table.insert path value) []).map
    fun entries => .table (Node.entriesToToml entries)

mutual

/-- A value in which brackets are nested to at most `depth`. The fuel bounds the steps,
of which there are no more than characters read. -/
def value? (fuel depth : Nat) (cs : List Char) : Option (Toml × List Char) :=
  match fuel with
  | 0 => none
  | fuel + 1 =>
    match cs, depth with
    | '[' :: _, 0 | '{' :: _, 0 => none
    | '[' :: rest, depth + 1 =>
      (items? fuel depth rest).map fun (items, rest) => (.list items, rest)
    | '{' :: rest, depth + 1 =>
      match skipBlanks rest with
      | '}' :: rest => some (.table [], rest)
      | rest => do
        let (entries, rest) ← entries? fuel depth rest
        return (← inlineTable? entries, rest)
    | '"' :: _, _ | '\'' :: _, _ => (string? cs).map fun (read, rest) => (.text read, rest)
    | _, _ => word? cs

/-- The items of an array up to its closing bracket. -/
def items? (fuel depth : Nat) (cs : List Char) : Option (List Toml × List Char) :=
  match fuel with
  | 0 => none
  | fuel + 1 =>
    match skipLines false cs with
    | ']' :: rest => some ([], rest)
    | start => do
      let (item, rest) ← value? fuel depth start
      match skipLines false rest with
      | ']' :: rest => return ([item], rest)
      | ',' :: rest =>
        let (items, rest) ← items? fuel depth rest
        return (item :: items, rest)
      | _ => none

/-- The entries of an inline table up to its closing brace. -/
def entries? (fuel depth : Nat) (cs : List Char) :
    Option (List (List String × Toml) × List Char) :=
  match fuel with
  | 0 => none
  | fuel + 1 => do
    let (path, rest) ← path? cs
    match skipBlanks rest with
    | '=' :: rest =>
      let (value, rest) ← value? fuel depth (skipBlanks rest)
      match skipBlanks rest with
      | '}' :: rest => return ([(path, value)], rest)
      | ',' :: rest =>
        let (entries, rest) ← entries? fuel depth rest
        return ((path, value) :: entries, rest)
      | _ => none
    | _ => none

end

/-! ## Lines -/

/-- The header of a table, from behind the bracket. -/
def header? (cs : List Char) : Option (Line × List Char) := do
  let (name, rest) ← path? cs
  match skipBlanks rest with
  | ']' :: rest => return (.header name, rest)
  | _ => none

def entry? (fuel : Nat) (cs : List Char) : Option (Line × List Char) := do
  let (path, rest) ← path? cs
  match skipBlanks rest with
  | '=' :: rest =>
    let (value, rest) ← value? fuel maxDepth (skipBlanks rest)
    return (.entry path value, rest)
  | _ => none

/-- The lines of a text of less than `fuel` characters. -/
def lines? (fuel : Nat) (cs : List Char) : Option (List Line) :=
  match fuel with
  | 0 => none
  | fuel + 1 =>
    match skipLines false cs with
    | [] => some []
    | '[' :: rest => do
      let (line, rest) ← header? rest
      return line :: (← lines? fuel (← endOfLine? rest))
    | start => do
      let (line, rest) ← entry? fuel start
      return line :: (← lines? fuel (← endOfLine? rest))

end Reader

/-- The entries of the document that a text writes. A byte order mark in front of it
is skipped. -/
def parse? (text : String) : Option (List (String × Toml)) :=
  let cs := match text.toList with
    | '\ufeff' :: rest => rest
    | cs => cs
  (Reader.lines? (cs.length + 1) cs).bind ofLines

end TypedTemplate.Toml
