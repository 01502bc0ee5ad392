import TypedTemplate.Text.Span
import TypedTemplate.Token

/-!
Why a text is no template, and how that is said. A `SyntaxError` has a cause and a
place; its `Diagnostic` has the wording.
-/
namespace TypedTemplate

/-- Punctuation that could have stood at the place of an error, or the end of the
placeholder. -/
inductive Expectation where
  | equals
  | colon
  | parenOpen
  | pipe
  | comma
  | parenClose
  | endOfPlaceholder
  deriving DecidableEq, Repr

def Expectation.describe : Expectation → String
  | equals => Token.equals.describe
  | colon => Token.colon.describe
  | parenOpen => Token.parenOpen.describe
  | pipe => Token.pipe.describe
  | comma => Token.comma.describe
  | parenClose => Token.parenClose.describe
  | endOfPlaceholder => "`\x7d`"

inductive SyntaxCause where
  | unmatchedClose
  | unclosedOpen
  | openInside
  | invalidCharacter
  | emptyPlaceholder
  /-- A token, or the end of the placeholder, where the grammar has no place for it. -/
  | unexpected (found : Option Token) (expected : List Expectation)

structure SyntaxError where
  cause : SyntaxCause
  span : Span

/-- A message about a place in a text. -/
structure Diagnostic where
  message : String
  span : Span
  expected : List String
  deriving DecidableEq, Repr

namespace SyntaxCause

def message : SyntaxCause → String
  | unmatchedClose =>
    "unmatched close brace; a literal `\x7d` should be escaped as `\x7d\x7d`"
  | unclosedOpen => "unclosed `\x7b`; a literal `\x7b` should be escaped as `\x7b\x7b`"
  | openInside => "unexpected `\x7b` inside a placeholder"
  | invalidCharacter => "invalid character in placeholder"
  | emptyPlaceholder => "empty placeholder"
  | unexpected (some token) _ => "Unexpected " ++ token.describe
  | unexpected none _ => "Unexpected end of placeholder"

def expected : SyntaxCause → List Expectation
  | unexpected _ expected => expected
  | _ => []

end SyntaxCause

def SyntaxError.diagnostic (e : SyntaxError) : Diagnostic :=
  ⟨e.cause.message, e.span, e.cause.expected.map Expectation.describe⟩

namespace Diagnostic

/-- The message with the place in front. -/
def toLine (d : Diagnostic) : String :=
  s!"Parse error at {d.span.start}..{d.span.stop}: {d.message}"

/-- The message, the source, and a row of carets as wide as the span in bytes, at
least one. A span past the end of the source is brought back to it. -/
def carets (d : Diagnostic) (source : String) : String :=
  let size := source.utf8ByteSize
  let start := min d.span.start size
  let stop := max (start + 1) (min d.span.stop (max size (start + 1)))
  let row := String.ofList (List.replicate start ' ' ++ List.replicate (stop - start) '^')
  s!"{d.message}\n{source}\n{row}"

end Diagnostic

end TypedTemplate
