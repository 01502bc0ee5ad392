import TypedTemplate.Proofs.Token.Lexer
import TypedTemplate.Template.Reader

/-!
Templates as text. Braces of raw text are doubled; a placeholder is written with one
space between calls, a bar between spaces between arms, and a comma and a space between
arguments. Not every template can be written: tokens of names have to read as names, raw
texts of literals as these literals, and neighbouring texts would be read as one.
-/
namespace TypedTemplate

/-! ## Printing -/

mutual

def Call.print : Call → List Char
  | .bare name _ => name.toString.toList
  | .applied name args _ => name.toString.toList ++ '(' :: (args.print ++ [')'])

def Args.print : Args → List Char
  | .nil => []
  | .cons arg rest => arg.print ++ rest.printNext

/-- The arguments that stand behind another. -/
def Args.printNext : Args → List Char
  | .nil => []
  | .cons arg rest => ',' :: ' ' :: (arg.print ++ rest.printNext)

def Arg.print : Arg → List Char
  | .mk none value _ => value.print
  | .mk (some label) value _ => label.toList ++ ' ' :: '=' :: ' ' :: value.print

def ArgValue.print : ArgValue → List Char
  | .literal literal => literal.raw.toList
  | .expr expr => expr.print

def Chain.print : Chain → List Char
  | .first call => call.print
  | .next parent call => parent.print ++ ' ' :: call.print

def Expr.print : Expr → List Char
  | .arm main => main.print
  | .orElse main others => main.print ++ ' ' :: '|' :: ' ' :: others.print

end

def doubleBrace (c : Char) : List Char := if Reader.isBraceChar c then [c, c] else [c]

def Element.print : Element → List Char
  | .text raw _ => raw.toList.flatMap doubleBrace
  | .placeholder expr _ => '{' :: (expr.print ++ ['}'])

/-- The text that a template is written as. -/
def Template.print (template : Template) : String :=
  String.ofList (template.elements.flatMap Element.print)

/-! ## Templates that can be written -/

/-- Whether a text reads as a name where a template refers to one. -/
def IsWord (token : String) : Prop := isNameToken token = true ∧ isIdent token = true

instance (token : String) : Decidable (IsWord token) :=
  inferInstanceAs (Decidable (_ ∧ _))

structure Name.IsPrintable (name : Name) : Prop where
  nonempty : name.tokens ≠ []
  words : ∀ token ∈ name.tokens, IsWord token

def LiteralValue.token : LiteralValue → Token
  | .bool true => .yes
  | .bool false => .no
  | .number value => .number value
  | .text value => .text value

/-- Whether the raw text is by itself one token, that of the value. -/
def Literal.IsPrintable (literal : Literal) : Prop :=
  ∃ item, lex literal.raw = [item] ∧ item.lexeme.token = some literal.value.token

mutual

def Call.IsPrintable : Call → Prop
  | .bare name _ => name.IsPrintable
  | .applied name args _ => name.IsPrintable ∧ args.IsPrintable

def Args.IsPrintable : Args → Prop
  | .nil => True
  | .cons arg rest => arg.IsPrintable ∧ rest.IsPrintable

def Arg.IsPrintable : Arg → Prop
  | .mk none value _ => value.IsPrintable
  | .mk (some label) value _ => IsWord label ∧ value.IsPrintable

def ArgValue.IsPrintable : ArgValue → Prop
  | .literal literal => literal.IsPrintable
  | .expr expr => expr.IsPrintable

def Chain.IsPrintable : Chain → Prop
  | .first call => call.IsPrintable
  | .next parent call => parent.IsPrintable ∧ call.IsPrintable

def Expr.IsPrintable : Expr → Prop
  | .arm main => main.IsPrintable
  | .orElse main others => main.IsPrintable ∧ others.IsPrintable

end

def Element.IsPrintable : Element → Prop
  | .text raw _ => raw ≠ ""
  | .placeholder expr _ => expr.IsPrintable

structure Template.IsPrintable (template : Template) : Prop where
  elements : ∀ element ∈ template.elements, element.IsPrintable
  apart : template.elements.IsChain fun element next => ¬ (element.isText ∧ next.isText)

/-! ## Templates without places -/

def Span.none : Span := ⟨0, 0⟩

mutual

def Call.erase : Call → Call
  | .bare name _ => .bare name .none
  | .applied name args _ => .applied name args.erase .none

def Args.erase : Args → Args
  | .nil => .nil
  | .cons arg rest => .cons arg.erase rest.erase

def Arg.erase : Arg → Arg
  | .mk label value _ => .mk label value.erase .none

def ArgValue.erase : ArgValue → ArgValue
  | .literal literal => .literal literal
  | .expr expr => .expr expr.erase

def Chain.erase : Chain → Chain
  | .first call => .first call.erase
  | .next parent call => .next parent.erase call.erase

def Expr.erase : Expr → Expr
  | .arm main => .arm main.erase
  | .orElse main others => .orElse main.erase others.erase

end

def Element.erase : Element → Element
  | .text raw _ => .text raw .none
  | .placeholder expr _ => .placeholder expr.erase .none

/-- The template apart from where its parts stand. -/
def Template.erase (template : Template) : Template := ⟨template.elements.map Element.erase⟩

/-! ## Literals without blanks around them -/

def Literal.strip (literal : Literal) : Literal :=
  { literal with raw := String.ofList (stripBlanks literal.raw.toList) }

mutual

def Call.strip : Call → Call
  | .bare name span => .bare name span
  | .applied name args span => .applied name args.strip span

def Args.strip : Args → Args
  | .nil => .nil
  | .cons arg rest => .cons arg.strip rest.strip

def Arg.strip : Arg → Arg
  | .mk label value span => .mk label value.strip span

def ArgValue.strip : ArgValue → ArgValue
  | .literal literal => .literal literal.strip
  | .expr expr => .expr expr.strip

def Chain.strip : Chain → Chain
  | .first call => .first call.strip
  | .next parent call => .next parent.strip call.strip

def Expr.strip : Expr → Expr
  | .arm main => .arm main.strip
  | .orElse main others => .orElse main.strip others.strip

end

def Element.strip : Element → Element
  | .text raw span => .text raw span
  | .placeholder expr span => .placeholder expr.strip span

/-- The template with the raw texts of its literals freed of blanks around them. -/
def Template.strip (template : Template) : Template := ⟨template.elements.map Element.strip⟩

end TypedTemplate
