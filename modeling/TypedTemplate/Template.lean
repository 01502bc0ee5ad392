import TypedTemplate.Name

/-!
Parsed templates. A template is raw text and placeholders; a placeholder holds one
or more arms, each a chain of calls. Calls may take arguments, which are literals or
again expressions. Every call and argument keeps its place in the text.
-/
namespace TypedTemplate

inductive LiteralValue where
  | bool (value : Bool)
  | number (value : Float)
  | text (value : String)
  deriving Inhabited

/-- A literal with the text it was written as. -/
structure Literal where
  value : LiteralValue
  raw : String
  deriving Inhabited

mutual

/-- A reference to a mapping, with an argument list if parentheses were written. -/
inductive Call where
  | bare (name : Name) (span : Span)
  | applied (name : Name) (args : Args) (span : Span)

inductive Args where
  | nil
  | cons (arg : Arg) (rest : Args)

/-- An argument, named if written `name = value`. -/
inductive Arg where
  | mk (label : Option String) (value : ArgValue) (span : Span)

inductive ArgValue where
  | literal (literal : Literal)
  | expr (expr : Expr)

/-- One or more calls, each applied to the result of its parent. -/
inductive Chain where
  | first (call : Call)
  | next (parent : Chain) (call : Call)

/-- One or more arms; an arm is tried when those before it have no value. -/
inductive Expr where
  | arm (main : Chain)
  | orElse (main : Chain) (others : Expr)

end

instance : Inhabited Call := ⟨.bare default default⟩
instance : Inhabited Chain := ⟨.first default⟩
instance : Inhabited Expr := ⟨.arm default⟩

namespace Call

def name : Call → Name
  | bare name _ => name
  | applied name _ _ => name

def span : Call → Span
  | bare _ span => span
  | applied _ _ span => span

/-- The arguments, none at all for a call without parentheses. -/
def args? : Call → Option Args
  | bare _ _ => none
  | applied _ args _ => some args

end Call

namespace Args

def toList : Args → List Arg
  | nil => []
  | cons arg rest => arg :: rest.toList

def ofList : List Arg → Args
  | [] => nil
  | arg :: rest => cons arg (ofList rest)

@[simp] theorem toList_ofList (args : List Arg) : (ofList args).toList = args := by
  induction args with
  | nil => rfl
  | cons arg rest ih => simp [ofList, toList, ih]

end Args

namespace Arg

def label : Arg → Option String
  | mk label _ _ => label

def value : Arg → ArgValue
  | mk _ value _ => value

def span : Arg → Span
  | mk _ _ span => span

end Arg

namespace Chain

/-- The calls in the order in which they are written. -/
def calls : Chain → List Call
  | first call => [call]
  | next parent call => parent.calls ++ [call]

def last : Chain → Call
  | first call => call
  | next _ call => call

def parent? : Chain → Option Chain
  | first _ => none
  | next parent _ => some parent

/-- The chain with one more call, or of one call where there was no chain. -/
def extend (chain : Option Chain) (call : Call) : Chain :=
  match chain with
  | none => first call
  | some parent => next parent call

/-- The chain of the calls, if there are any. -/
def ofCalls? (calls : List Call) : Option Chain :=
  calls.foldl (fun chain call => some (extend chain call)) none

/-- The names of the calls with spaces between them, without arguments. -/
def names (chain : Chain) : String :=
  " ".intercalate (chain.calls.map fun call => call.name.toString)

end Chain

namespace Expr

def main : Expr → Chain
  | arm main => main
  | orElse main _ => main

def others? : Expr → Option Expr
  | arm _ => none
  | orElse _ others => some others

/-- The arms in the order in which they are tried. -/
def arms : Expr → List Chain
  | arm main => [main]
  | orElse main others => main :: others.arms

/-- The expression of the arms, if there are any. -/
def ofArms? : List Chain → Option Expr
  | [] => none
  | [main] => some (arm main)
  | main :: others => (ofArms? others).map (orElse main)

end Expr

/-- A piece of a template. -/
inductive Element where
  | text (text : String) (span : Span)
  | placeholder (expr : Expr) (span : Span)

namespace Element

def span : Element → Span
  | text _ span => span
  | placeholder _ span => span

def isText : Element → Bool
  | text _ _ => true
  | placeholder _ _ => false

end Element

structure Template where
  elements : List Element

/-- Whether the template has no placeholders. -/
def Template.isStatic (template : Template) : Bool :=
  template.elements.all Element.isText

end TypedTemplate
