import TypedTemplate.Number.Decimal
import TypedTemplate.Text.Quoted

/-!
The tokens of a placeholder body.
-/
namespace TypedTemplate

inductive Token where
  | yes
  | no
  | braceOpen
  | braceClose
  | parenOpen
  | parenClose
  | comma
  | colon
  | pipe
  | equals
  | number (value : Float)
  | text (value : String)
  | ident (name : String)
  deriving Inhabited

namespace Token

/-- The token as an error message names it. -/
def describe : Token → String
  | yes => "'true'"
  | no => "'false'"
  | braceOpen => "'\x7b'"
  | braceClose => "'\x7d'"
  | parenOpen => "'('"
  | parenClose => "')'"
  | comma => "','"
  | colon => "':'"
  | pipe => "'|'"
  | equals => "'='"
  | number value => "number " ++ formatNumber value
  | text value => "string " ++ quoted value
  | ident name => "name '" ++ name ++ "'"

end Token

end TypedTemplate
