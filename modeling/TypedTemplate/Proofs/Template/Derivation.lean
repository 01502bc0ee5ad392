import TypedTemplate.Template.Grammar

/-!
Derivations by the grammar of placeholder bodies. A derivation is a tree with the pieces of
the body at its leaves:

    expr  := chain ('|' chain)*        call := name args?
    chain := call call*                name := ident (':' ident)*
    args  := '(' (arg (',' arg)* ','?)? ')'
    arg   := (ident '=')? (literal | expr)

A part of a derivation is told from what can stand behind it by one token: what follows
does not begin with a token that would go on with the part (`Ends`).
-/
namespace TypedTemplate

namespace Grammar

/-- A punctuation mark with its place and text. -/
structure Mark where
  span : Span
  raw : String

def Mark.piece (mark : Mark) (token : Token) : Piece := ⟨token, mark.span, mark.raw⟩

/-- An identifier with its place and text. -/
structure Word where
  text : String
  span : Span
  raw : String

def Word.piece (word : Word) : Piece := ⟨.ident word.text, word.span, word.raw⟩

/-- A piece that stands for a literal. -/
structure LiteralLeaf where
  piece : Piece
  literal : Literal
  reads : literal? piece = some literal

/-- An identifier, and further ones behind colons. -/
structure NameTree where
  first : Word
  more : List (Mark × Word)

mutual

inductive ExprTree where
  | arm (main : ChainTree)
  | orElse (main : ChainTree) (bar : Mark) (others : ExprTree)

inductive ChainTree where
  | last (call : CallTree)
  | cons (call : CallTree) (rest : ChainTree)

inductive CallTree where
  | bare (name : NameTree)
  | applied (name : NameTree) (start : Mark) (args : ArgsTree)

/-- An argument list behind its opening parenthesis. -/
inductive ArgsTree where
  | empty (stop : Mark)
  | cons (arg : ArgTree) (more : MoreArgsTree)

/-- An argument list behind one of its arguments. -/
inductive MoreArgsTree where
  | done (stop : Mark)
  | trailing (comma stop : Mark)
  | cons (comma : Mark) (arg : ArgTree) (more : MoreArgsTree)

inductive ArgTree where
  | unnamed (value : ValueTree)
  | named (label : Word) (equals : Mark) (value : ValueTree)

inductive ValueTree where
  | literal (leaf : LiteralLeaf)
  | expr (expr : ExprTree)

end

/-! ## Leaves -/

namespace NameTree

def morePieces (more : List (Mark × Word)) : List Piece :=
  more.flatMap fun (colon, word) => [colon.piece .colon, word.piece]

def pieces (name : NameTree) : List Piece := name.first.piece :: morePieces name.more

end NameTree

mutual

/-- The pieces at the leaves, from left to right. -/
def ExprTree.pieces : ExprTree → List Piece
  | .arm main => main.pieces
  | .orElse main bar others => main.pieces ++ bar.piece .pipe :: others.pieces

def ChainTree.pieces : ChainTree → List Piece
  | .last call => call.pieces
  | .cons call rest => call.pieces ++ rest.pieces

def CallTree.pieces : CallTree → List Piece
  | .bare name => name.pieces
  | .applied name start args => name.pieces ++ start.piece .parenOpen :: args.pieces

def ArgsTree.pieces : ArgsTree → List Piece
  | .empty stop => [stop.piece .parenClose]
  | .cons arg more => arg.pieces ++ more.pieces

def MoreArgsTree.pieces : MoreArgsTree → List Piece
  | .done stop => [stop.piece .parenClose]
  | .trailing comma stop => [comma.piece .comma, stop.piece .parenClose]
  | .cons comma arg more => comma.piece .comma :: (arg.pieces ++ more.pieces)

def ArgTree.pieces : ArgTree → List Piece
  | .unnamed value => value.pieces
  | .named label equals value => label.piece :: equals.piece .equals :: value.pieces

def ValueTree.pieces : ValueTree → List Piece
  | .literal leaf => [leaf.piece]
  | .expr inner => inner.pieces

end

/-! ## Expressions -/

namespace NameTree

def toName (name : NameTree) : Name := ⟨name.first.text :: name.more.map fun entry => entry.2.text⟩

/-- From the first identifier to the last one. -/
def span (name : NameTree) : Span :=
  ⟨name.first.span.start, name.more.foldl (fun _ entry => entry.2.span.stop) name.first.span.stop⟩

end NameTree

/-- The identifier that a call starts with. -/
def CallTree.first : CallTree → Word
  | .bare name | .applied name _ _ => name.first

def ChainTree.first : ChainTree → Word
  | .last call | .cons call _ => call.first

def ExprTree.first : ExprTree → Word
  | .arm main | .orElse main _ _ => main.first

def ValueTree.start : ValueTree → Nat
  | .literal leaf => leaf.piece.span.start
  | .expr inner => inner.first.span.start

def MoreArgsTree.stop : MoreArgsTree → Nat
  | .done stop | .trailing _ stop => stop.span.stop
  | .cons _ _ more => more.stop

def ArgsTree.stop : ArgsTree → Nat
  | .empty stop => stop.span.stop
  | .cons _ more => more.stop

def CallTree.stop : CallTree → Nat
  | .bare name => name.span.stop
  | .applied _ _ args => args.stop

def ChainTree.stop : ChainTree → Nat
  | .last call => call.stop
  | .cons _ rest => rest.stop

def ExprTree.stop : ExprTree → Nat
  | .arm main => main.stop
  | .orElse _ _ others => others.stop

def ValueTree.stop : ValueTree → Nat
  | .literal leaf => leaf.piece.span.stop
  | .expr inner => inner.stop

mutual

/-- The expression that has been derived. -/
def ExprTree.toExpr : ExprTree → Expr
  | .arm main => .arm (main.toChain none)
  | .orElse main _ others => .orElse (main.toChain none) others.toExpr

/-- The calls behind those of a chain. -/
def ChainTree.toChain (before : Option Chain) : ChainTree → Chain
  | .last call => .extend before call.toCall
  | .cons call rest => rest.toChain (some (.extend before call.toCall))

def CallTree.toCall : CallTree → Call
  | .bare name => .bare name.toName name.span
  | .applied name _ args => .applied name.toName args.toArgs ⟨name.span.start, args.stop⟩

def ArgsTree.toArgs : ArgsTree → Args
  | .empty _ => .nil
  | .cons arg more => .cons arg.toArg more.toArgs

def MoreArgsTree.toArgs : MoreArgsTree → Args
  | .done _ | .trailing _ _ => .nil
  | .cons _ arg more => .cons arg.toArg more.toArgs

def ArgTree.toArg : ArgTree → Arg
  | .unnamed value => .mk none value.toValue ⟨value.start, value.stop⟩
  | .named label _ value => .mk (some label.text) value.toValue ⟨label.span.start, value.stop⟩

def ValueTree.toValue : ValueTree → ArgValue
  | .literal leaf => .literal leaf.literal
  | .expr inner => .expr inner.toExpr

end

/-! ## Beginnings and ends -/

/-- Whether both are the same punctuation mark. -/
def isMark : Token → Token → Bool
  | .parenOpen, .parenOpen | .parenClose, .parenClose | .comma, .comma => true
  | .colon, .colon | .pipe, .pipe | .equals, .equals => true
  | _, _ => false

/-- Whether pieces do not begin with a token that would go on with what is before them. -/
def Ends (more : Token → Bool) (rest : List Piece) : Prop :=
  ∀ piece ∈ rest.head?, more piece.token = false

def goesOnCall : Token → Bool
  | .colon | .parenOpen => true
  | _ => false

def goesOnChain : Token → Bool
  | .colon | .parenOpen | .ident _ => true
  | _ => false

def goesOnExpr : Token → Bool
  | .colon | .parenOpen | .ident _ | .pipe => true
  | _ => false

def goesOnArg : Token → Bool
  | .colon | .parenOpen | .ident _ | .pipe | .equals => true
  | _ => false

theorem ends_nil (more : Token → Bool) : Ends more [] := nofun

theorem ends_cons {more : Token → Bool} {piece : Piece} {rest : List Piece} :
    Ends more (piece :: rest) ↔ more piece.token = false := by
  simp [Ends]

theorem Ends.mono {more fewer : Token → Bool} {rest : List Piece} (ends : Ends more rest)
    (sub : ∀ token, more token = false → fewer token = false) : Ends fewer rest :=
  fun piece member => sub _ (ends piece member)

theorem Ends.append {more : Token → Bool} {first rest : List Piece} (ends : Ends more first)
    (ends' : Ends more rest) : Ends more (first ++ rest) := by
  cases first with
  | nil => exact ends'
  | cons piece others => exact ends

theorem CallTree.pieces_eq_cons (call : CallTree) :
    ∃ tail, call.pieces = call.first.piece :: tail ∧ Ends (isMark .equals) tail := by
  have ends : ∀ more, Ends (isMark .equals) (NameTree.morePieces more) := by
    rintro (_ | ⟨entry, more⟩)
    · exact ends_nil _
    · exact ends_cons.mpr rfl
  cases call with
  | bare name => exact ⟨_, rfl, ends name.more⟩
  | applied name start args => exact ⟨_, rfl, (ends name.more).append (ends_cons.mpr rfl)⟩

theorem ChainTree.pieces_eq_cons (chain : ChainTree) :
    ∃ tail, chain.pieces = chain.first.piece :: tail ∧ Ends (isMark .equals) tail := by
  match chain with
  | .last call => exact call.pieces_eq_cons
  | .cons call rest =>
    obtain ⟨tail, split, ends⟩ := call.pieces_eq_cons
    obtain ⟨others, behind, -⟩ := rest.pieces_eq_cons
    refine ⟨tail ++ rest.pieces, by rw [pieces, split]; rfl, ends.append ?_⟩
    rw [behind]
    exact ends_cons.mpr rfl

theorem ExprTree.pieces_eq_cons (expr : ExprTree) :
    ∃ tail, expr.pieces = expr.first.piece :: tail ∧ Ends (isMark .equals) tail := by
  cases expr with
  | arm main => exact main.pieces_eq_cons
  | orElse main bar others =>
    obtain ⟨tail, split, ends⟩ := main.pieces_eq_cons
    refine ⟨tail ++ bar.piece .pipe :: others.pieces, ?_, ends.append (ends_cons.mpr rfl)⟩
    rw [pieces, split]
    rfl

theorem Ends.not_cons {more : Token → Bool} {rest tail : List Piece} {piece : Piece}
    (ends : Ends more rest) (same : rest = piece :: tail) (goesOn : more piece.token = true) :
    False := by
  rw [same, ends_cons, goesOn] at ends
  cases ends

theorem Ends.call {rest : List Piece} (ends : Ends goesOnChain rest) : Ends goesOnCall rest :=
  ends.mono fun token => by cases token <;> simp [goesOnChain, goesOnCall]

theorem Ends.chain {rest : List Piece} (ends : Ends goesOnExpr rest) : Ends goesOnChain rest :=
  ends.mono fun token => by cases token <;> simp [goesOnExpr, goesOnChain]

theorem Ends.label {rest : List Piece} (ends : Ends goesOnArg rest) : Ends (isMark .equals) rest :=
  ends.mono fun token => by cases token <;> simp [goesOnArg, isMark]

theorem Ends.expr {rest : List Piece} (ends : Ends goesOnArg rest) : Ends goesOnExpr rest :=
  ends.mono fun token => by cases token <;> simp [goesOnArg, goesOnExpr]

theorem Ends.name {rest : List Piece} (ends : Ends goesOnCall rest) : Ends (isMark .colon) rest :=
  ends.mono fun token => by cases token <;> simp [goesOnCall, isMark]

theorem Ends.parenOpen {rest : List Piece} (ends : Ends goesOnCall rest) :
    Ends (isMark .parenOpen) rest :=
  ends.mono fun token => by cases token <;> simp [goesOnCall, isMark]

theorem Ends.pipe {rest : List Piece} (ends : Ends goesOnExpr rest) : Ends (isMark .pipe) rest :=
  ends.mono fun token => by cases token <;> simp [goesOnExpr, isMark]

/-- Calls begin with identifiers, which do not go on with a call. -/
theorem CallTree.ends_call (call : CallTree) (rest : List Piece) :
    Ends goesOnCall (call.pieces ++ rest) := by
  obtain ⟨tail, split, -⟩ := call.pieces_eq_cons
  rw [split, List.cons_append, ends_cons]
  rfl

theorem MoreArgsTree.ends_arg (more : MoreArgsTree) (rest : List Piece) :
    Ends goesOnArg (more.pieces ++ rest) := by
  cases more <;> exact ends_cons.mpr rfl

/-- Arguments do not begin with a closing parenthesis. -/
theorem ArgTree.pieces_ne_close (arg : ArgTree) (stop : Mark) (rest tail : List Piece) :
    arg.pieces ++ rest ≠ stop.piece .parenClose :: tail := by
  intro same
  rcases arg with (leaf | inner) | ⟨label, equals, value⟩
  · have token := congrArg literal? (List.cons.inj same).1
    rw [leaf.reads] at token
    cases token
  · obtain ⟨others, split, -⟩ := inner.pieces_eq_cons
    rw [pieces, ValueTree.pieces, split] at same
    cases congrArg Piece.token (List.cons.inj same).1
  · cases congrArg Piece.token (List.cons.inj same).1

/-- A literal is no identifier. -/
theorem LiteralLeaf.piece_ne_word (leaf : LiteralLeaf) (word : Word) :
    leaf.piece ≠ word.piece := by
  intro same
  have token := leaf.reads
  rw [same] at token
  cases token

/-- A value is no label with an equals sign behind it. -/
theorem ValueTree.pieces_ne_label (value : ValueTree) {rest : List Piece}
    (ends : Ends goesOnArg rest) (label : Word) (equals : Mark) (tail : List Piece) :
    value.pieces ++ rest ≠ label.piece :: equals.piece .equals :: tail := by
  intro same
  cases value with
  | literal leaf => exact leaf.piece_ne_word label (List.cons.inj same).1
  | expr inner =>
    obtain ⟨others, split, behind⟩ := inner.pieces_eq_cons
    rw [pieces, split] at same
    exact (behind.append ends.label).not_cons (List.cons.inj same).2 rfl

end Grammar

end TypedTemplate
