import TypedTemplate.Number.Decimal
import TypedTemplate.Template

/-!
The outline of a template: a dump of all its parts, with every part on a line of its
own and indented by its depth.
-/
namespace TypedTemplate

inductive Outline where
  | word (text : String)
  /-- A constructor with unnamed parts. -/
  | tuple (name : String) (parts : List Outline)
  /-- A constructor with named parts. -/
  | record (name : String) (fields : List (String × Outline))
  | list (items : List Outline)

namespace Outline

def indentation (depth : Nat) : String := String.ofList (List.replicate (4 * depth) ' ')

/-- Lines between brackets, which stand together if there are no lines. -/
def bracketed (depth : Nat) (left right : String) (lines : List String) : String :=
  if lines.isEmpty then left ++ right
  else
    left ++ "\n" ++ String.join (lines.map fun line => indentation (depth + 1) ++ line ++ ",\n")
      ++ indentation depth ++ right

mutual

def pretty (depth : Nat) : Outline → String
  | word text => text
  | tuple name parts => name ++ bracketed depth "(" ")" (prettyAll (depth + 1) parts)
  | record name fields =>
    name ++ " " ++ bracketed depth "\x7b" "\x7d" (prettyFields (depth + 1) fields)
  | list items => bracketed depth "[" "]" (prettyAll (depth + 1) items)

def prettyAll (depth : Nat) : List Outline → List String
  | [] => []
  | item :: items => pretty depth item :: prettyAll depth items

def prettyFields (depth : Nat) : List (String × Outline) → List String
  | [] => []
  | (name, value) :: fields => (name ++ ": " ++ pretty depth value) :: prettyFields depth fields

end

/-- A text in quotes. -/
def text (raw : String) : Outline := word (quoted raw)

def optional : Option Outline → Outline
  | none => word "None"
  | some value => tuple "Some" [value]

/-- A part with its place in the text. -/
def placed (node : Outline) (span : Span) : Outline :=
  record "Spanned" [("node", node), ("span", word s!"{span.start}..{span.stop}")]

end Outline

namespace LiteralValue

def outline : LiteralValue → Outline
  | bool value => .tuple "Bool" [.word (toString value)]
  | number value => .tuple "Number" [.word (inspectNumber value)]
  | text value => .tuple "String" [.text value]

end LiteralValue

def Literal.outline (literal : Literal) : Outline :=
  .record "Literal" [("value", literal.value.outline), ("raw", .text literal.raw)]

def Name.outline (name : Name) : Outline :=
  .record "QualifiedRef" [("tokens", .list (name.tokens.map Outline.text))]

mutual

def Call.outline : Call → Outline
  | .bare name span =>
    .placed (.record "MappingCall" [("name", name.outline), ("args", .optional none)]) span
  | .applied name args span =>
    .placed (.record "MappingCall"
      [("name", name.outline), ("args", .optional (some (.list args.outlines)))]) span

def Args.outlines : Args → List Outline
  | .nil => []
  | .cons (.mk label value span) rest =>
    .placed (.record "Arg" [("name", .optional (label.map Outline.text)), ("value", value.outline)])
      span :: rest.outlines

def ArgValue.outline : ArgValue → Outline
  | .literal literal => .tuple "Literal" [literal.outline]
  | .expr expr => .tuple "Expr" [expr.outline]

def Chain.outline : Chain → Outline
  | .first call => .record "CallChain" [("parent", .optional none), ("call", call.outline)]
  | .next parent call =>
    .record "CallChain" [("parent", .optional (some parent.outline)), ("call", call.outline)]

def Expr.outline : Expr → Outline
  | .arm main => .record "Expr" [("main", main.outline), ("else_", .optional none)]
  | .orElse main others =>
    .record "Expr" [("main", main.outline), ("else_", .optional (some others.outline))]

end

def Element.outline : Element → Outline
  | .text raw span => .placed (.tuple "RawText" [.text raw]) span
  | .placeholder expr span => .placed (.tuple "Expr" [expr.outline]) span

def Template.outline (template : Template) : Outline :=
  .record "Template" [("elements", .list (template.elements.map Element.outline))]

end TypedTemplate
