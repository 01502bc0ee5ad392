import TypedTemplate.Template
import TypedTemplate.Template.SyntaxError

/-!
The grammar of placeholder bodies, read by a machine that takes one token at a time:

    expr  := chain ('|' chain)*        call := name args?
    chain := call call*                name := ident (':' ident)*
    args  := '(' (arg (',' arg)* ','?)? ')'
    arg   := (ident '=')? (literal | expr)

The state of the machine holds what has been read of the innermost expression and,
one `Open` for each parenthesis, what waits around it. A token is in error exactly
where `State.advance` refuses it, and `State.expected` lists the punctuation that
would not be refused.
-/
namespace TypedTemplate

/-- A valid token with its place and the text it was read from. -/
structure Piece where
  token : Token
  span : Span
  raw : String

namespace Grammar

/-- The part of an expression that has been read: its finished arms, last first, and
the finished calls of the arm that is being read. -/
structure Level where
  arms : List Chain
  chain : Option Chain

def Level.empty : Level := ⟨[], none⟩

/-- An argument list that is being read. -/
structure Open where
  /-- The expression around the call that takes the arguments. -/
  outer : Level
  name : Name
  start : Nat
  /-- The finished arguments, last first. -/
  done : List Arg
  /-- The parameter name of the argument that is being read. -/
  label : Option String
  argStart : Nat

/-- Where in the innermost expression the machine stands. -/
inductive Place where
  /-- At the start of an arm. -/
  | armStart
  /-- At the start of an argument. -/
  | argStart
  /-- Behind the `=` of a named argument. -/
  | valueStart
  /-- Behind a colon in a name. -/
  | segment (tokens : List String) (start : Nat)
  /-- Behind a name, which may turn out to be a parameter name if `mayLabel` is set. -/
  | named (tokens : List String) (span : Span) (mayLabel : Bool)
  /-- Behind a call with an argument list. -/
  | called
  /-- Behind a literal argument. -/
  | valued (literal : Literal) (span : Span)

structure State where
  place : Place
  level : Level
  opened : List Open

def State.initial : State := ⟨.armStart, .empty, []⟩

/-- The literal that a token stands for. -/
def literal? (piece : Piece) : Option Literal :=
  match piece.token with
  | .yes => some ⟨.bool true, piece.raw⟩
  | .no => some ⟨.bool false, piece.raw⟩
  | .number value => some ⟨.number value, piece.raw⟩
  | .text value => some ⟨.text value, piece.raw⟩
  | _ => none

namespace Level

def push (level : Level) (call : Call) : Level :=
  { level with chain := some (Chain.extend level.chain call) }

/-- The expression as far as it has been read, if its last arm has a call. -/
def toExpr? (level : Level) : Option Expr :=
  level.chain.map fun last =>
    level.arms.foldl (fun others main => Expr.orElse main others) (Expr.arm last)

end Level

namespace Open

def finish (o : Open) (value : ArgValue) (stop : Nat) : Open :=
  { o with done := .mk o.label value ⟨o.argStart, stop⟩ :: o.done, label := none }

/-- The expression around the list once the list is closed. -/
def close (o : Open) (stop : Nat) : Level :=
  o.outer.push (.applied o.name (Args.ofList o.done.reverse) ⟨o.start, stop⟩)

end Open

/-- Takes a token that follows a finished call. -/
def afterCall (level : Level) (opened : List Open) (piece : Piece) : Option State :=
  match piece.token, opened with
  | .ident token, _ => some ⟨.named [token] piece.span false, level, opened⟩
  | .pipe, _ =>
    level.chain.map fun chain => ⟨.armStart, ⟨chain :: level.arms, none⟩, opened⟩
  | .comma, o :: rest => do
    let expr ← level.toExpr?
    let last ← level.chain
    return ⟨.argStart, .empty, o.finish (.expr expr) last.last.span.stop :: rest⟩
  | .parenClose, o :: rest => do
    let expr ← level.toExpr?
    let last ← level.chain
    return ⟨.called, (o.finish (.expr expr) last.last.span.stop).close piece.span.stop, rest⟩
  | _, _ => none

/-- Takes a token that follows a name. -/
def afterName (tokens : List String) (span : Span) (mayLabel : Bool) (level : Level)
    (opened : List Open) (piece : Piece) : Option State :=
  match piece.token, opened with
  | .colon, _ => some ⟨.segment tokens span.start, level, opened⟩
  | .parenOpen, _ =>
    some ⟨.argStart, .empty,
      ⟨level, ⟨tokens⟩, span.start, [], none, piece.span.stop⟩ :: opened⟩
  | .equals, o :: rest =>
    if mayLabel then
      tokens.head?.map fun label => ⟨.valueStart, level, { o with label := some label } :: rest⟩
    else none
  | _, _ => afterCall (level.push (.bare ⟨tokens⟩ span)) opened piece

/-- Takes a token that follows a literal argument. -/
def afterLiteral (literal : Literal) (span : Span) (opened : List Open) (piece : Piece) :
    Option State :=
  match piece.token, opened with
  | .comma, o :: rest => some ⟨.argStart, .empty, o.finish (.literal literal) span.stop :: rest⟩
  | .parenClose, o :: rest =>
    some ⟨.called, (o.finish (.literal literal) span.stop).close piece.span.stop, rest⟩
  | _, _ => none

/-- Takes a token at the start of an argument. -/
def startArg (opened : List Open) (piece : Piece) : Option State :=
  match opened with
  | [] => none
  | o :: rest =>
    let started := { o with argStart := piece.span.start } :: rest
    match piece.token, literal? piece with
    | .ident token, _ => some ⟨.named [token] piece.span true, .empty, started⟩
    | .parenClose, _ => some ⟨.called, o.close piece.span.stop, rest⟩
    | _, some literal => some ⟨.valued literal piece.span, .empty, started⟩
    | _, none => none

/-- The state after one more token, if the token can stand here. -/
def State.advance (s : State) (piece : Piece) : Option State :=
  match s.place with
  | .armStart =>
    match piece.token with
    | .ident token => some { s with place := .named [token] piece.span false }
    | _ => none
  | .segment tokens start =>
    match piece.token with
    | .ident token =>
      some { s with place := .named (tokens ++ [token]) ⟨start, piece.span.stop⟩ false }
    | _ => none
  | .valueStart =>
    match piece.token, literal? piece with
    | .ident token, _ => some { s with place := .named [token] piece.span false }
    | _, some literal => some { s with place := .valued literal piece.span }
    | _, none => none
  | .argStart => startArg s.opened piece
  | .named tokens span mayLabel => afterName tokens span mayLabel s.level s.opened piece
  | .called => afterCall s.level s.opened piece
  | .valued literal span => afterLiteral literal span s.opened piece

/-- What may follow a finished call, apart from another call. -/
def expectedAfterCall (opened : List Open) : List Expectation :=
  .pipe :: if opened.isEmpty then [.endOfPlaceholder] else [.comma, .parenClose]

/-- The punctuation that can stand here, in the order in which it is tried. Places
for a name or a literal add nothing. -/
def State.expected (s : State) : List Expectation :=
  match s.place with
  | .armStart | .valueStart | .segment _ _ => []
  | .argStart => [.parenClose]
  | .named _ _ mayLabel =>
    (if mayLabel then [.equals] else []) ++ [.colon, .parenOpen] ++ expectedAfterCall s.opened
  | .called => expectedAfterCall s.opened
  | .valued _ _ => [.comma, .parenClose]

/-- The expression that has been read, if the body may end here. -/
def State.finish (s : State) : Option Expr :=
  if s.opened.isEmpty then
    match s.place with
    | .named tokens span _ => (s.level.push (.bare ⟨tokens⟩ span)).toExpr?
    | .called => s.level.toExpr?
    | _ => none
  else none

/-- Reads the pieces of a body from a state; `close` is where the closing brace
stands and `last` where the last piece ended. The first refused token is in error. -/
def run (close : Nat) (last : Nat) (s : State) : List Piece → Except SyntaxError Expr
  | [] =>
    match s.finish with
    | some expr => .ok expr
    | none => .error ⟨.unexpected none s.expected, ⟨close, last⟩⟩
  | piece :: rest =>
    match s.advance piece with
    | some next => run close piece.span.stop next rest
    | none => .error ⟨.unexpected (some piece.token) s.expected, piece.span⟩

/-- The expression that the pieces of a body spell. -/
def parse (close : Nat) (pieces : List Piece) : Except SyntaxError Expr :=
  run close close .initial pieces

end Grammar

end TypedTemplate
