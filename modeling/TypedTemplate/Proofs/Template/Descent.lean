import TypedTemplate.Proofs.Template.Acceptance

/-!
The grammar as recursive descent: choice is ordered, repetition takes as many items as it
can, and a part that fails is tried again in the next way from where it began. No choice
of these cuts off a derivation, so descent finds the derivation of every body that has one
(`descend_eq_some`), and the machine gives the same expressions.
-/
namespace TypedTemplate

namespace Grammar

/-- Reads from the front of the pieces and gives what is left of them, or fails. -/
abbrev Parser (α : Type) := List Piece → Option (α × List Piece)

def ArgTree.ofLabel : Option (Word × Mark) → ValueTree → ArgTree
  | none, value => .unnamed value
  | some (label, equals), value => .named label equals value

def MoreArgsTree.ofArgs (trailing : Option Mark) (stop : Mark) :
    List (Mark × ArgTree) → MoreArgsTree
  | [] => match trailing with
    | none => .done stop
    | some comma => .trailing comma stop
  | (comma, arg) :: others => .cons comma arg (ofArgs trailing stop others)

def ArgsTree.ofArgs (stop : Mark) :
    Option ((ArgTree × List (Mark × ArgTree)) × Option Mark) → ArgsTree
  | none => .empty stop
  | some ((arg, others), trailing) => .cons arg (.ofArgs trailing stop others)

def CallTree.ofParts (name : NameTree) : Option (Mark × ArgsTree) → CallTree
  | none => .bare name
  | some (start, args) => .applied name start args

def ChainTree.ofCalls (first : CallTree) : List CallTree → ChainTree
  | [] => .last first
  | next :: others => .cons first (ofCalls next others)

def ExprTree.ofArms (main : ChainTree) : List (Mark × ChainTree) → ExprTree
  | [] => .arm main
  | (bar, next) :: others => .orElse main bar (ofArms next others)

namespace Parser

variable {α β : Type}

def select (read : Piece → Option α) : Parser α
  | [] => none
  | piece :: rest => (read piece).map fun a => (a, rest)

def map (f : α → β) (parser : Parser α) : Parser β := fun pieces =>
  (parser pieces).map fun (a, rest) => (f a, rest)

def andThen (first : Parser α) (second : Parser β) : Parser (α × β) := fun pieces =>
  (first pieces).bind fun (a, rest) => (second rest).map fun (b, rest) => ((a, b), rest)

/-- The second parser is tried only where the first one fails. -/
def orElse (first second : Parser α) : Parser α := fun pieces =>
  (first pieces).or (second pieces)

def optional (parser : Parser α) : Parser (Option α) := fun pieces =>
  ((parser pieces).map fun (a, rest) => (some a, rest)).or (some (none, pieces))

/-- As many items as there are, and what is left behind them. -/
def takeAll (item : Parser α) (pieces : List Piece) : List α × List Piece :=
  match item pieces with
  | none => ([], pieces)
  | some (a, rest) =>
    if rest.length < pieces.length then
      let (others, behind) := item.takeAll rest
      (a :: others, behind)
    else ([], pieces)
termination_by pieces.length

def repeated (item : Parser α) : Parser (List α) := fun pieces => some (item.takeAll pieces)

/-- At least one item. A separator is taken only together with the item behind it. -/
def separatedBy (item : Parser α) (separator : Parser β) : Parser (α × List (β × α)) :=
  item.andThen (separator.andThen item).repeated

/-! ## Descent -/

/-- Reads one punctuation mark. -/
def just (token : Token) : Parser Mark :=
  select fun piece => if isMark token piece.token then some ⟨piece.span, piece.raw⟩ else none

def word : Parser Word :=
  select fun
    | ⟨.ident text, span, raw⟩ => some ⟨text, span, raw⟩
    | _ => none

def literal : Parser LiteralLeaf :=
  select fun piece =>
    match reads : literal? piece with
    | some literal => some ⟨piece, literal, reads⟩
    | none => none

def name : Parser NameTree :=
  (word.separatedBy (just .colon)).map fun (first, more) => ⟨first, more⟩

section

variable (expr : Parser ExprTree)

def value : Parser ValueTree := (literal.map .literal).orElse (expr.map .expr)

def arg : Parser ArgTree :=
  ((word.andThen (just .equals)).optional.andThen expr.value).map fun (label, value) =>
    .ofLabel label value

def args : Parser ArgsTree :=
  (((expr.arg.separatedBy (just .comma)).andThen (just .comma).optional).optional.andThen
    (just .parenClose)).map fun (inner, stop) => .ofArgs stop inner

def call : Parser CallTree :=
  (name.andThen ((just .parenOpen).andThen expr.args).optional).map fun (name, args) =>
    .ofParts name args

def chain : Parser ChainTree :=
  (expr.call.andThen expr.call.repeated).map fun (first, others) => .ofCalls first others

/-- Reads an expression, given how to read the expressions in its arguments. -/
def arms : Parser ExprTree :=
  (expr.chain.separatedBy (just .pipe)).map fun (main, others) => .ofArms main others

end

/-- Reads expressions with fewer argument lists inside one another than `depth`. -/
def exprWithin : Nat → Parser ExprTree
  | 0 => fun _ => none
  | depth + 1 => arms (exprWithin depth)

end Parser

/-- The derivation of a whole body that descent finds. No body nests deeper than it is long. -/
def descend (body : List Piece) : Option ExprTree :=
  match Parser.exprWithin body.length body with
  | some (tree, []) => some tree
  | _ => none

/-! ## What has been read -/

namespace Parser

variable {α β : Type}

/-- Whether what the parser gives stands for the pieces that it takes. -/
def Spells (parser : Parser α) (spell : α → List Piece) : Prop :=
  ∀ (pieces rest : List Piece) (a : α), parser pieces = some (a, rest) → spell a ++ rest = pieces

theorem Spells.map {parser : Parser α} {spell : α → List Piece} {spell' : β → List Piece}
    {f : α → β} (spells : parser.Spells spell) (same : ∀ a, spell' (f a) = spell a) :
    (parser.map f).Spells spell' := by
  intro pieces rest b read
  obtain ⟨⟨a, behind⟩, first, given⟩ := Option.map_eq_some_iff.mp read
  obtain ⟨rfl, rfl⟩ := Prod.mk.inj given
  rw [same]
  exact spells pieces behind a first

theorem Spells.andThen {first : Parser α} {second : Parser β} {spell : α → List Piece}
    {spell' : β → List Piece} (spells : first.Spells spell) (spells' : second.Spells spell') :
    (first.andThen second).Spells fun (a, b) => spell a ++ spell' b := by
  intro pieces rest both read
  obtain ⟨⟨a, between⟩, front, read⟩ := Option.bind_eq_some_iff.mp read
  obtain ⟨⟨b, behind⟩, back, given⟩ := Option.map_eq_some_iff.mp read
  obtain ⟨rfl, rfl⟩ := Prod.mk.inj given
  rw [List.append_assoc, spells' between behind b back, spells pieces between a front]

theorem Spells.orElse {first second : Parser α} {spell : α → List Piece}
    (spells : first.Spells spell) (spells' : second.Spells spell) :
    (first.orElse second).Spells spell := by
  intro pieces rest a read
  obtain front | ⟨-, back⟩ := Option.or_eq_some_iff.mp read
  · exact spells pieces rest a front
  · exact spells' pieces rest a back

/-- The pieces of what may be missing. -/
def spellOption (spell : α → List Piece) : Option α → List Piece
  | none => []
  | some a => spell a

theorem Spells.optional {parser : Parser α} {spell : α → List Piece}
    (spells : parser.Spells spell) : parser.optional.Spells (spellOption spell) := by
  intro pieces rest found read
  obtain present | ⟨-, absent⟩ := Option.or_eq_some_iff.mp read
  · obtain ⟨⟨a, behind⟩, first, given⟩ := Option.map_eq_some_iff.mp present
    obtain ⟨rfl, rfl⟩ := Prod.mk.inj given
    exact spells pieces behind a first
  · obtain ⟨rfl, rfl⟩ := Prod.mk.inj (Option.some.inj absent)
    rfl

theorem Spells.takeAll {item : Parser α} {spell : α → List Piece} (spells : item.Spells spell)
    (pieces : List Piece) :
    (item.takeAll pieces).1.flatMap spell ++ (item.takeAll pieces).2 = pieces := by
  fun_induction item.takeAll pieces with
  | case1 pieces stops => rfl
  | case2 pieces a rest first shorter others behind taken ih =>
    rw [taken] at ih
    rw [List.flatMap_cons, List.append_assoc, ih]
    exact spells pieces rest a first
  | case3 => rfl

theorem Spells.repeated {item : Parser α} {spell : α → List Piece} (spells : item.Spells spell) :
    item.repeated.Spells (List.flatMap spell) := by
  intro pieces rest as read
  have whole := spells.takeAll pieces
  rw [Option.some.inj read] at whole
  exact whole

theorem spells_just (token : Token) : (just token).Spells fun mark => [mark.piece token] := by
  rintro (_ | ⟨⟨token', span, raw⟩, others⟩) rest mark read
  · cases read
  · obtain ⟨found, taken, given⟩ := Option.map_eq_some_iff.mp read
    obtain ⟨rfl, rfl⟩ := Prod.mk.inj given
    cases token <;> cases token' <;> cases taken <;> rfl

theorem spells_word : word.Spells fun word => [word.piece] := by
  rintro (_ | ⟨⟨token, span, raw⟩, others⟩) rest found read
  · cases read
  · cases token <;> cases read
    rfl

theorem spells_literal : literal.Spells fun leaf => [leaf.piece] := by
  rintro (_ | ⟨piece, others⟩) rest leaf read
  · cases read
  · obtain ⟨found, taken, given⟩ := Option.map_eq_some_iff.mp read
    obtain ⟨rfl, rfl⟩ := Prod.mk.inj given
    dsimp only at taken
    split at taken
    · obtain rfl := Option.some.inj taken
      rfl
    · cases taken

theorem Spells.separatedBy {item : Parser α} {separator : Parser β} {spell : α → List Piece}
    {spell' : β → List Piece} (spells : item.Spells spell) (spells' : separator.Spells spell') :
    (item.separatedBy separator).Spells fun (first, others) =>
      spell first ++ others.flatMap fun (mark, a) => spell' mark ++ spell a :=
  spells.andThen (spells'.andThen spells).repeated

theorem spells_name : name.Spells NameTree.pieces :=
  (spells_word.separatedBy (spells_just .colon)).map fun _ => rfl

end Parser

/-! ### Pieces of derivations that are put together -/

def spellArg (entry : Mark × ArgTree) : List Piece := [entry.1.piece .comma] ++ entry.2.pieces

def spellTrailing (trailing : Option Mark) : List Piece :=
  Parser.spellOption (fun comma => [comma.piece .comma]) trailing

def spellArm (entry : Mark × ChainTree) : List Piece := [entry.1.piece .pipe] ++ entry.2.pieces

theorem ArgTree.pieces_ofLabel (label : Option (Word × Mark)) (value : ValueTree) :
    (ofLabel label value).pieces =
      Parser.spellOption (fun (word, equals) => [word.piece] ++ [equals.piece .equals]) label ++
        value.pieces := by
  cases label <;> rfl

theorem MoreArgsTree.pieces_ofArgs (trailing : Option Mark) (stop : Mark)
    (others : List (Mark × ArgTree)) :
    (ofArgs trailing stop others).pieces =
      others.flatMap spellArg ++ (spellTrailing trailing ++ [stop.piece .parenClose]) := by
  induction others with
  | nil => cases trailing <;> rfl
  | cons entry others ih =>
    rw [ofArgs, pieces, ih, List.flatMap_cons, List.append_assoc]
    rfl

theorem ArgsTree.pieces_ofArgs (stop : Mark)
    (inner : Option ((ArgTree × List (Mark × ArgTree)) × Option Mark)) :
    (ofArgs stop inner).pieces =
      Parser.spellOption (fun ((arg, others), trailing) =>
        (arg.pieces ++ others.flatMap spellArg) ++ spellTrailing trailing) inner ++
          [stop.piece .parenClose] := by
  cases inner with
  | none => rfl
  | some inner =>
    obtain ⟨⟨arg, others⟩, trailing⟩ := inner
    rw [ofArgs, pieces, MoreArgsTree.pieces_ofArgs, ← List.append_assoc, ← List.append_assoc]
    rfl

theorem CallTree.pieces_ofParts (name : NameTree) (args : Option (Mark × ArgsTree)) :
    (ofParts name args).pieces =
      name.pieces ++
        Parser.spellOption (fun (start, args) => [start.piece .parenOpen] ++ args.pieces) args := by
  cases args with
  | none => exact (List.append_nil _).symm
  | some => rfl

theorem ChainTree.pieces_ofCalls (first : CallTree) (others : List CallTree) :
    (ofCalls first others).pieces = first.pieces ++ others.flatMap CallTree.pieces := by
  induction others generalizing first with
  | nil => exact (List.append_nil _).symm
  | cons next others ih => rw [ofCalls, pieces, ih, List.flatMap_cons]

theorem ExprTree.pieces_ofArms (main : ChainTree) (others : List (Mark × ChainTree)) :
    (ofArms main others).pieces = main.pieces ++ others.flatMap spellArm := by
  induction others generalizing main with
  | nil => exact (List.append_nil _).symm
  | cons entry others ih =>
    rw [ofArms, pieces, ih, List.flatMap_cons]
    rfl

namespace Parser

section

variable {expr : Parser ExprTree} (spells : expr.Spells ExprTree.pieces)

include spells

theorem spells_value : expr.value.Spells ValueTree.pieces :=
  (spells_literal.map fun _ => rfl).orElse (spells.map fun _ => rfl)

theorem spells_arg : expr.arg.Spells ArgTree.pieces :=
  ((spells_word.andThen (spells_just .equals)).optional.andThen (spells_value spells)).map
    fun (label, value) => ArgTree.pieces_ofLabel label value

theorem spells_args : expr.args.Spells ArgsTree.pieces :=
  ((((spells_arg spells).separatedBy (spells_just .comma)).andThen
    (spells_just .comma).optional).optional.andThen (spells_just .parenClose)).map
      fun (inner, stop) => ArgsTree.pieces_ofArgs stop inner

theorem spells_call : expr.call.Spells CallTree.pieces :=
  (spells_name.andThen ((spells_just .parenOpen).andThen (spells_args spells)).optional).map
    fun (name, args) => CallTree.pieces_ofParts name args

theorem spells_chain : expr.chain.Spells ChainTree.pieces :=
  ((spells_call spells).andThen (spells_call spells).repeated).map
    fun (first, others) => ChainTree.pieces_ofCalls first others

theorem spells_arms : expr.arms.Spells ExprTree.pieces :=
  ((spells_chain spells).separatedBy (spells_just .pipe)).map
    fun (main, others) => ExprTree.pieces_ofArms main others

end

end Parser

/-! ## Derivations are found -/

namespace Parser

variable {α β : Type}

theorem map_eq {parser : Parser α} {pieces rest : List Piece} {a : α}
    (read : parser pieces = some (a, rest)) (f : α → β) :
    parser.map f pieces = some (f a, rest) := by
  rw [map, read]
  rfl

theorem map_none {parser : Parser α} {pieces : List Piece} (fails : parser pieces = none)
    (f : α → β) : parser.map f pieces = none := by
  rw [map, fails]
  rfl

theorem andThen_eq {first : Parser α} {second : Parser β} {pieces between rest : List Piece}
    {a : α} {b : β} (front : first pieces = some (a, between))
    (back : second between = some (b, rest)) :
    first.andThen second pieces = some ((a, b), rest) := by
  simp [andThen, front, back]

theorem andThen_none {first : Parser α} {pieces : List Piece} (fails : first pieces = none)
    (second : Parser β) : first.andThen second pieces = none := by
  rw [andThen, fails]
  rfl

theorem andThen_none' {first : Parser α} {second : Parser β} {pieces between : List Piece} {a : α}
    (front : first pieces = some (a, between)) (fails : second between = none) :
    first.andThen second pieces = none := by
  simp [andThen, front, fails]

theorem optional_eq {parser : Parser α} {pieces rest : List Piece} {a : α}
    (read : parser pieces = some (a, rest)) : parser.optional pieces = some (some a, rest) := by
  rw [optional, read]
  rfl

theorem optional_none {parser : Parser α} {pieces : List Piece} (fails : parser pieces = none) :
    parser.optional pieces = some (none, pieces) := by
  rw [optional, fails]
  rfl

theorem length_le_flatMap (spell : α → List Piece) {items : List α} {a : α} (member : a ∈ items) :
    (spell a).length ≤ (items.flatMap spell).length :=
  (List.infix_of_mem_flatten (List.mem_map_of_mem member)).length_le

theorem follows_flatMap {Follows : List Piece → Prop} {spell : α → List Piece} {rest : List Piece}
    (follows : Follows rest) (leads : ∀ a behind, Follows (spell a ++ behind)) (items : List α) :
    Follows (items.flatMap spell ++ rest) := by
  cases items with
  | nil => exact follows
  | cons next others =>
    rw [List.flatMap_cons, List.append_assoc]
    exact leads next _

/-- Repetition takes items that are read in front of whatever an item can start with, and
stops where no item can be read. -/
theorem repeated_eq {item : Parser α} (spell : α → List Piece) {rest : List Piece}
    (Follows : List Piece → Prop) (follows : Follows rest) (stops : item rest = none)
    (items : List α)
    (reads : ∀ a ∈ items, ∀ behind, Follows behind → item (spell a ++ behind) = some (a, behind))
    (leads : ∀ a behind, Follows (spell a ++ behind)) (takes : ∀ a, spell a ≠ []) :
    item.repeated (items.flatMap spell ++ rest) = some (items, rest) := by
  refine congrArg some ?_
  induction items with
  | nil =>
    rw [List.flatMap_nil, List.nil_append, takeAll, stops]
  | cons a items ih =>
    have behind := follows_flatMap follows leads items
    have shorter := List.length_pos_iff.mpr (takes a)
    rw [List.flatMap_cons, List.append_assoc, takeAll, reads a (List.mem_cons_self ..) _ behind]
    dsimp only
    rw [if_pos (by simpa using shorter),
      ih fun next member => reads next (List.mem_cons_of_mem _ member)]

theorem just_eq (token : Token) (mark : Mark) (rest : List Piece)
    (punctuation : isMark token token = true) :
    just token (mark.piece token :: rest) = some (mark, rest) := by
  rw [just, select, Mark.piece, punctuation]
  rfl

theorem just_none (token : Token) {rest : List Piece} (ends : Ends (isMark token) rest) :
    just token rest = none := by
  cases rest with
  | nil => rfl
  | cons piece rest =>
    rw [just, select, ends_cons.mp ends]
    rfl

theorem word_eq (found : Word) (rest : List Piece) :
    word (found.piece :: rest) = some (found, rest) := rfl

theorem literal_eq (leaf : LiteralLeaf) (rest : List Piece) :
    literal (leaf.piece :: rest) = some (leaf, rest) := by
  obtain ⟨piece, value, reads⟩ := leaf
  simp only [literal, select]
  split
  · rename_i other reads'
    cases reads.symm.trans reads'
    rfl
  · rename_i reads'
    cases reads.symm.trans reads'

theorem name_eq (found : NameTree) {rest : List Piece} (ends : Ends (isMark .colon) rest) :
    name (found.pieces ++ rest) = some (found, rest) := by
  have more := repeated_eq (fun entry : Mark × Word => [entry.1.piece .colon, entry.2.piece])
    (fun _ => True) trivial (andThen_none (just_none .colon ends) word) found.more
    (fun entry _ behind _ =>
      andThen_eq (just_eq .colon entry.1 _ rfl) (word_eq entry.2 behind))
    (fun _ _ => trivial) (fun _ => by simp)
  exact map_eq (andThen_eq (word_eq found.first _) more) _

/-- A parser fails in front of pieces that none of its results stands for. -/
theorem Spells.eq_none {parser : Parser α} {spell : α → List Piece} (spells : parser.Spells spell)
    {pieces : List Piece} (differs : ∀ a rest, spell a ++ rest ≠ pieces) : parser pieces = none :=
  Option.eq_none_iff_forall_ne_some.mpr fun (a, rest) read => differs a rest (spells _ _ _ read)

end Parser

/-! ### Parts of derivations as lists -/

theorem MoreArgsTree.exists_ofArgs : ∀ more : MoreArgsTree,
    ∃ trailing stop others, ofArgs trailing stop others = more
  | .done stop => ⟨none, stop, [], rfl⟩
  | .trailing comma stop => ⟨some comma, stop, [], rfl⟩
  | .cons comma arg more => by
    obtain ⟨trailing, stop, others, rfl⟩ := more.exists_ofArgs
    exact ⟨trailing, stop, (comma, arg) :: others, rfl⟩

theorem ChainTree.exists_ofCalls : ∀ chain : ChainTree, ∃ first others, ofCalls first others = chain
  | .last call => ⟨call, [], rfl⟩
  | .cons call rest => by
    obtain ⟨next, others, rfl⟩ := rest.exists_ofCalls
    exact ⟨call, next :: others, rfl⟩

theorem ExprTree.exists_ofArms : ∀ expr : ExprTree, ∃ main others, ofArms main others = expr
  | .arm main => ⟨main, [], rfl⟩
  | .orElse main bar others => by
    obtain ⟨next, others, rfl⟩ := others.exists_ofArms
    exact ⟨main, (bar, next) :: others, rfl⟩

namespace Parser

/-- Whether the parser finds the derivations of expressions with fewer than so many pieces. -/
structure FindsBelow (limit : Nat) (expr : Parser ExprTree) : Prop where
  spells : expr.Spells ExprTree.pieces
  finds : ∀ tree : ExprTree, tree.pieces.length < limit → ∀ rest, Ends goesOnExpr rest →
    expr (tree.pieces ++ rest) = some (tree, rest)

namespace FindsBelow

variable {limit : Nat} {expr : Parser ExprTree} (below : expr.FindsBelow limit)

include below

theorem value_eq (found : ValueTree) (short : found.pieces.length < limit) {rest : List Piece}
    (ends : Ends goesOnExpr rest) : expr.value (found.pieces ++ rest) = some (found, rest) := by
  cases found with
  | literal leaf =>
    have read := map_eq (literal_eq leaf rest) ValueTree.literal
    rw [value, orElse, ValueTree.pieces, List.singleton_append, read]
    rfl
  | expr inner =>
    have noLiteral : literal (inner.pieces ++ rest) = none := by
      obtain ⟨tail, split, -⟩ := inner.pieces_eq_cons
      rw [split]
      rfl
    rw [value, orElse, ValueTree.pieces, map_none noLiteral, Option.none_or]
    exact map_eq (below.finds inner short rest ends) ValueTree.expr

theorem arg_eq (found : ArgTree) (short : found.pieces.length < limit) {rest : List Piece}
    (ends : Ends goesOnArg rest) : expr.arg (found.pieces ++ rest) = some (found, rest) := by
  cases found with
  | unnamed value =>
    have noLabel : word.andThen (just .equals) (value.pieces ++ rest) = none :=
      (spells_word.andThen (spells_just .equals)).eq_none fun (label, equals) behind same =>
        value.pieces_ne_label ends label equals behind same.symm
    exact map_eq (andThen_eq (optional_none noLabel) (below.value_eq value short ends.expr)) _
  | named label equals value =>
    have labelled :=
      andThen_eq (word_eq label _) (just_eq .equals equals (value.pieces ++ rest) rfl)
    have shorter : value.pieces.length < limit := by
      simp only [ArgTree.pieces, List.length_cons] at short
      omega
    exact map_eq (andThen_eq (optional_eq labelled) (below.value_eq value shorter ends.expr)) _

theorem arg_close (stop : Mark) (rest : List Piece) :
    expr.arg (stop.piece .parenClose :: rest) = none :=
  (spells_arg below.spells).eq_none fun arg behind => arg.pieces_ne_close stop behind rest

/-- Behind the last argument there is no further one, with or without a comma. -/
theorem noMoreArgs (trailing : Option Mark) (stop : Mark) (rest : List Piece) :
    (just .comma).andThen expr.arg (spellTrailing trailing ++ stop.piece .parenClose :: rest) =
      none := by
  cases trailing with
  | none => exact andThen_none rfl expr.arg
  | some comma => exact andThen_none' (just_eq .comma comma _ rfl) (below.arg_close stop rest)

theorem args_eq (found : ArgsTree) (short : found.pieces.length ≤ limit) (rest : List Piece) :
    expr.args (found.pieces ++ rest) = some (found, rest) := by
  cases found with
  | empty stop =>
    have noArg := andThen_none (andThen_none (below.arg_close stop rest)
      ((just .comma).andThen expr.arg).repeated) (just .comma).optional
    exact map_eq (andThen_eq (optional_none noArg) (just_eq .parenClose stop rest rfl)) _
  | cons arg more =>
    obtain ⟨trailing, stop, others, rfl⟩ := more.exists_ofArgs
    -- Every argument is shorter than the list, which has a closing parenthesis besides.
    have ends := (MoreArgsTree.ofArgs trailing stop others).ends_arg rest
    rw [ArgsTree.pieces, MoreArgsTree.pieces_ofArgs] at short
    simp only [List.length_append, List.length_singleton] at short
    rw [MoreArgsTree.pieces_ofArgs, List.append_assoc, List.append_assoc,
      List.singleton_append] at ends
    rw [ArgsTree.pieces, MoreArgsTree.pieces_ofArgs, List.append_assoc, List.append_assoc,
      List.append_assoc, List.singleton_append]
    have behind : Ends goesOnArg (spellTrailing trailing ++ stop.piece .parenClose :: rest) := by
      cases trailing <;> exact ends_cons.mpr rfl
    have items := repeated_eq spellArg (Ends goesOnArg) behind
      (below.noMoreArgs trailing stop rest) others
      (fun (comma, arg) member behind ends => by
        have within := length_le_flatMap spellArg member
        have shorter : arg.pieces.length < limit := by
          simp only [spellArg, List.length_append, List.length_singleton] at within
          omega
        exact andThen_eq (just_eq .comma comma _ rfl) (below.arg_eq arg shorter ends))
      (fun _ _ => ends_cons.mpr rfl) (fun _ => by simp [spellArg])
    have first := below.arg_eq arg (by omega) ends
    have comma : (just .comma).optional (spellTrailing trailing ++ stop.piece .parenClose :: rest) =
        some (trailing, stop.piece .parenClose :: rest) := by
      cases trailing <;> rfl
    have inner := optional_eq (andThen_eq (andThen_eq first items) comma)
    exact map_eq (andThen_eq inner (just_eq .parenClose stop rest rfl)) _

theorem call_eq (found : CallTree) (short : found.pieces.length ≤ limit) {rest : List Piece}
    (ends : Ends goesOnCall rest) : expr.call (found.pieces ++ rest) = some (found, rest) := by
  cases found with
  | bare name =>
    have noArgs := andThen_none (just_none .parenOpen ends.parenOpen) expr.args
    exact map_eq (andThen_eq (name_eq name ends.name) (optional_none noArgs)) _
  | applied name start args =>
    rw [CallTree.pieces, List.length_append, List.length_cons] at short
    rw [CallTree.pieces, List.append_assoc]
    have shorter : args.pieces.length ≤ limit := by omega
    have applied := andThen_eq (just_eq .parenOpen start _ rfl) (below.args_eq args shorter rest)
    exact map_eq (andThen_eq (name_eq name (ends_cons.mpr rfl)) (optional_eq applied)) _

theorem chain_eq (found : ChainTree) (short : found.pieces.length ≤ limit) {rest : List Piece}
    (ends : Ends goesOnChain rest) : expr.chain (found.pieces ++ rest) = some (found, rest) := by
  obtain ⟨first, others, rfl⟩ := found.exists_ofCalls
  rw [ChainTree.pieces_ofCalls, List.length_append] at short
  rw [ChainTree.pieces_ofCalls, List.append_assoc]
  have noCall : expr.call rest = none :=
    (spells_call below.spells).eq_none fun call behind same => by
      obtain ⟨tail, split, -⟩ := call.pieces_eq_cons
      rw [split] at same
      exact ends.not_cons same.symm rfl
  have items := repeated_eq CallTree.pieces (Ends goesOnCall) ends.call noCall others
    (fun call member behind ends => by
      have within := length_le_flatMap CallTree.pieces member
      exact below.call_eq call (by omega) ends)
    CallTree.ends_call fun call => by
      obtain ⟨tail, split, -⟩ := call.pieces_eq_cons
      rw [split]
      exact List.cons_ne_nil _ _
  have follows := follows_flatMap ends.call CallTree.ends_call others
  exact map_eq (andThen_eq (below.call_eq first (by omega) follows) items) _

theorem arms_eq (found : ExprTree) (short : found.pieces.length ≤ limit) {rest : List Piece}
    (ends : Ends goesOnExpr rest) : expr.arms (found.pieces ++ rest) = some (found, rest) := by
  obtain ⟨main, others, rfl⟩ := found.exists_ofArms
  rw [ExprTree.pieces_ofArms, List.length_append] at short
  rw [ExprTree.pieces_ofArms, List.append_assoc]
  have begins (entry : Mark × ChainTree) (behind : List Piece) :
      Ends goesOnChain (spellArm entry ++ behind) := ends_cons.mpr rfl
  have noArm : (just .pipe).andThen expr.chain rest = none :=
    andThen_none (just_none .pipe ends.pipe) expr.chain
  have items := repeated_eq spellArm (Ends goesOnChain) ends.chain noArm others
    (fun (bar, chain) member behind ends => by
      have within := length_le_flatMap spellArm member
      have shorter : chain.pieces.length ≤ limit := by
        simp only [spellArm, List.length_append, List.length_singleton] at within
        omega
      exact andThen_eq (just_eq .pipe bar _ rfl) (below.chain_eq chain shorter ends))
    begins (fun _ => by simp [spellArm])
  have follows := follows_flatMap ends.chain begins others
  exact map_eq (andThen_eq (below.chain_eq main (by omega) follows) items) _

end FindsBelow

theorem findsBelow_exprWithin (depth : Nat) : (exprWithin depth).FindsBelow (depth + 1) := by
  induction depth with
  | zero =>
    refine ⟨nofun, fun tree short => ?_⟩
    obtain ⟨tail, split, -⟩ := tree.pieces_eq_cons
    rw [split] at short
    simp at short
  | succ depth ih =>
    exact ⟨spells_arms ih.spells, fun tree short rest ends =>
      ih.arms_eq tree (Nat.le_of_lt_succ short) ends⟩

end Parser

theorem descend_eq_some {body : List Piece} {tree : ExprTree} :
    descend body = some tree ↔ tree.pieces = body := by
  have below := Parser.findsBelow_exprWithin body.length
  constructor
  · intro found
    unfold descend at found
    split at found
    · rename_i found' read
      obtain rfl := Option.some.inj found
      have whole := below.spells _ _ _ read
      rwa [List.append_nil] at whole
    · cases found
  · rintro rfl
    have read := below.finds tree (Nat.lt_succ_self _) [] (ends_nil _)
    rw [List.append_nil] at read
    rw [descend, read]

/-- The placeholder parser accepts exactly the bodies that the grammar derives. A derivation
of a body is its only one, its expression is what the parser returns, and ordered choice and
greedy repetition find it. -/
theorem parse_iff_derives (close : Nat) (body : List Piece) :
    ((∃ expr, parse close body = .ok expr) ↔ ∃ tree : ExprTree, tree.pieces = body) ∧
      (∀ tree : ExprTree, tree.pieces = body →
        parse close body = .ok tree.toExpr ∧
          ∀ other : ExprTree, other.pieces = body → other = tree) ∧
      ∀ tree : ExprTree, descend body = some tree ↔ tree.pieces = body := by
  have returns : ∀ tree : ExprTree, tree.pieces = body → parse close body = .ok tree.toExpr := by
    rintro tree rfl
    exact parse_pieces close tree
  refine ⟨⟨?_, ?_⟩, fun tree derives => ⟨returns tree derives, fun other derives' => ?_⟩,
    fun tree => descend_eq_some⟩
  · rintro ⟨expr, accepted⟩
    exact derives_of_parse accepted
  · rintro ⟨tree, derives⟩
    exact ⟨tree.toExpr, returns tree derives⟩
  · -- Descent gives one answer, and each derivation of the body is that answer.
    have found := descend_eq_some.mpr derives
    have found' := descend_eq_some.mpr derives'
    exact Option.some.inj (found'.symm.trans found)

end Grammar

end TypedTemplate
