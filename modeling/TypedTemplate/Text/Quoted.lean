import TypedTemplate.Text.Printable

/-!
Text in double quotes for inspection: in error messages and in dumps. Quotes,
backslashes, line ends, tabs and NUL get short escapes, other characters that are
not printable their code point in braces.
-/
namespace TypedTemplate

def quotedChar (c : Char) : String :=
  match c with
  | '\x00' => "\\0"
  | '\t' => "\\t"
  | '\r' => "\\r"
  | '\n' => "\\n"
  | '"' => "\\\""
  | '\\' => "\\\\"
  | c =>
    if isPrintable c then String.singleton c
    else "\\u\x7b" ++ String.ofList (Nat.toDigits 16 c.toNat) ++ "\x7d"

/-- The text between double quotes, with every character shown or escaped. -/
def quoted (text : String) : String :=
  "\"" ++ String.join (text.toList.map quotedChar) ++ "\""

end TypedTemplate
