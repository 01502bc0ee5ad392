import TypedTemplate.Text.CaseTable

/-!
Capital and small forms of text. One character may become several. The Greek
capital sigma has two small forms, and the one that ends a word is taken where a
letter stands before the sigma and none after it.
-/
namespace TypedTemplate

/-- The code point after a move along the run that holds it, if one does. -/
def CaseRun.moved? (run : CaseRun) (code : Nat) : Option Nat :=
  if run.first ≤ code && code ≤ run.last && (code - run.first) % run.stride == 0 then
    some ((code : Int) + run.delta).toNat
  else none

def mapCase (expansions : List (Nat × List Nat)) (runs : List CaseRun) (c : Char) : List Char :=
  match expansions.lookup c.toNat with
  | some codes => codes.map Char.ofNat
  | none => [((runs.findSome? (·.moved? c.toNat)).map Char.ofNat).getD c]

def upperChar (c : Char) : List Char :=
  if c.toNat < 128 then [c.toUpper] else mapCase upperExpansions upperRuns c

def lowerChar (c : Char) : List Char :=
  if c.toNat < 128 then [c.toLower] else mapCase lowerExpansions lowerRuns c

/-- Whether a letter is the first character that is not passed over. -/
def letterNext (cs : List Char) : Bool :=
  match cs.dropWhile fun c => caseIgnorableRanges.contains c.toNat with
  | c :: _ => casedRanges.contains c.toNat
  | [] => false

/-- Small forms of the characters; `before` holds those already read, nearest first. -/
def lowerAfter (before : List Char) : List Char → List Char
  | [] => []
  | c :: cs =>
    (if c = 'Σ' then [if letterNext before && !letterNext cs then 'ς' else 'σ'] else lowerChar c)
      ++ lowerAfter (c :: before) cs

/-- The text in capital letters. -/
def upperCase (text : String) : String :=
  String.ofList (text.toList.flatMap upperChar)

/-- The text in small letters. -/
def lowerCase (text : String) : String :=
  String.ofList (lowerAfter [] text.toList)

end TypedTemplate
