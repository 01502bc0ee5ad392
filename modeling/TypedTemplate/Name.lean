import TypedTemplate.Token.Lexer

/-!
Qualified names. A mapping is registered under a name of several tokens, from the
outermost namespace to the short name; a template may leave tokens out as long as
the short name stays.
-/
namespace TypedTemplate

/-- A name as its tokens, outermost first. Templates write references to names in
the same form. -/
structure Name where
  tokens : List String
  deriving DecidableEq, Repr, Inhabited

namespace Name

/-- The tokens between the colons of a text. -/
def ofString (text : String) : Name := ⟨text.splitOn ":"⟩

/-- The tokens with a colon between them. -/
def toString (name : Name) : String := ":".intercalate name.tokens

instance : ToString Name := ⟨Name.toString⟩

/-- The last token, empty for a name without tokens. -/
def short (name : Name) : String := name.tokens.getLast?.getD ""

/-- Reads the tokens of a name, crossing off the reference's tokens in order. Gives
the number of tokens that were not crossed off and what is left of the reference. -/
def crossOff : List String → List String → Nat × List String
  | [], reference => (0, reference)
  | token :: tokens, reference =>
    match reference with
    | [] => let (skipped, left) := crossOff tokens []; (skipped + 1, left)
    | r :: rest =>
      if r = token then crossOff tokens rest
      else let (skipped, left) := crossOff tokens (r :: rest); (skipped + 1, left)

/-- How many tokens the reference leaves out, if it refers to this name: its tokens
stand in the name in the same order and both end in the same one. -/
def skipped? (name reference : Name) : Option Nat :=
  if reference.tokens.isEmpty || reference.tokens.getLast? != name.tokens.getLast? then none
  else
    match crossOff name.tokens reference.tokens with
    | (skipped, []) => some skipped
    | (_, _ :: _) => none

end Name

/-- Whether a text is one or more name characters. Such a text may still read as a
literal. -/
def isNameToken (token : String) : Bool :=
  !token.isEmpty && token.toList.all isNameChar

end TypedTemplate
