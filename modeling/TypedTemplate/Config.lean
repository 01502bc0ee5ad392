import TypedTemplate.Descriptor

/-!
Settings of rendering: the markers that stand for placeholders without text, and
whether parsed templates are kept.
-/
namespace TypedTemplate

structure Config where
  /-- Stands for a placeholder of which no arm has a path. -/
  unresolvedMarker : String := "\x7bunknownPath:\x7braw\x7d\x7d"
  /-- Stands for a placeholder of which no arm has a value. -/
  nullMarker : String := "\x7bnull:\x7braw\x7d\x7d"
  /-- Stands for the text that displays give for invalid values. -/
  invalidMarker : String := invalidText
  cacheTemplates : Bool := true
  deriving DecidableEq, Repr, Inhabited

namespace Config

/-- Replaces each hole, written `raw` in braces, from left to right. -/
def fillHoles (raw : List Char) : List Char → List Char
  | '{' :: 'r' :: 'a' :: 'w' :: '}' :: rest => raw ++ fillHoles raw rest
  | c :: rest => c :: fillHoles raw rest
  | [] => []

/-- The marker with its holes filled with the names of the calls. -/
def fillMarker (marker raw : String) : String :=
  String.ofList (fillHoles raw.toList marker.toList)

def unresolved (config : Config) (raw : String) : String := fillMarker config.unresolvedMarker raw

def null (config : Config) (raw : String) : String := fillMarker config.nullMarker raw

end Config

end TypedTemplate
