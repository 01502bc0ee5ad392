import TypedTemplate.Text.Span

/-!
A cursor in a text. It is a byte position, and nothing keeps it between two characters: where the
text cannot be cut, whatever needs the unread part of it fails. This is the outer `none` of an
operation; what is not found is said by the answer inside. A saved position is a checkpoint.
-/
namespace TypedTemplate

/-- The first `n` bytes of a text as characters and the rest of the text. Nothing if
there are fewer bytes or if the cut would fall inside a character. -/
def splitBytes? : Nat → List Char → Option (List Char × List Char)
  | 0, cs => some ([], cs)
  | _ + 1, [] => none
  | n + 1, c :: cs =>
    if n + 1 < c.utf8Size then none
    else (splitBytes? (n + 1 - c.utf8Size) cs).map fun (taken, rest) => (c :: taken, rest)

/-- The number of bytes before the first of the needles. -/
def bytesBefore? (needles : List Char) : List Char → Option Nat
  | [] => none
  | c :: cs =>
    if needles.contains c then some 0 else (bytesBefore? needles cs).map (c.utf8Size + ·)

/-- A byte position in a text. -/
structure Cursor where
  source : List Char
  position : Nat
  deriving DecidableEq, Repr

/-- A position to which a cursor can be taken back. -/
structure Checkpoint where
  position : Nat
  deriving DecidableEq, Repr

namespace Cursor

def ofText (text : List Char) : Cursor := ⟨text, 0⟩

def atEnd (c : Cursor) : Bool := byteLength c.source ≤ c.position

/-- The unread part of the text. -/
def rest? (c : Cursor) : Option (List Char) := (splitBytes? c.position c.source).map (·.2)

/-- The next `n` bytes, which are not read. Nothing if they are no slice of the text. -/
def peek (c : Cursor) (n : Nat) : Option (List Char) := do
  let rest ← c.rest?
  (splitBytes? n rest).map (·.1)

/-- Moves over so many bytes. -/
def pass (c : Cursor) (bytes : Nat) : Cursor := { c with position := c.position + bytes }

/-- Reads `text` if it is ahead, and says whether it is. -/
def eat? (c : Cursor) (text : List Char) : Option (Bool × Cursor) := do
  let rest ← c.rest?
  return if text.isPrefixOf rest then (true, c.pass (byteLength text)) else (false, c)

/-- Reads up to the nearest of the needles; nothing is read if none is ahead. -/
def readUntil? (c : Cursor) (needles : List Char) : Option (Option (List Char) × Cursor) := do
  let rest ← c.rest?
  match bytesBefore? needles rest with
  | none => return (none, c)
  | some bytes => (splitBytes? bytes rest).map fun (read, _) => (some read, c.pass bytes)

/-- Reads all that is ahead. -/
def readRest? (c : Cursor) : Option (List Char × Cursor) := do
  let rest ← c.rest?
  return (rest, { c with position := byteLength c.source })

/-- Moves forward to a position in the text, which may well be inside a character. It fails for a
position behind the cursor or beyond the end. -/
def advanceTo? (c : Cursor) (position : Nat) : Option Cursor :=
  if c.position ≤ position ∧ position ≤ byteLength c.source then some { c with position } else none

def checkpoint (c : Cursor) : Checkpoint := ⟨c.position⟩

def rewind (c : Cursor) (checkpoint : Checkpoint) : Cursor :=
  { c with position := checkpoint.position }

/-- Runs a reader, and takes the cursor back to where it was if the reader finds nothing. -/
def attempt {α : Type} (c : Cursor) (reader : Cursor → Option (Option α × Cursor)) :
    Option (Option α × Cursor) := do
  let (result, after) ← reader c
  return (result, if result.isNone then after.rewind c.checkpoint else after)

end Cursor

end TypedTemplate
