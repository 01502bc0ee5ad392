import TypedTemplate.Proofs.Template.Derivation
import TypedTemplate.Proofs.Template.Machine

/-!
The machine accepts exactly the bodies that the grammar derives. It reads the pieces of each
part of a derivation from wherever the part can begin to wherever the part can end
(`read_expr` and its siblings). And whatever it goes on to accept from a state, the state
has room for: from the last piece back to the first, parts of derivations come together
(`State.Accepts`).
-/
namespace TypedTemplate

namespace Grammar

/-! ## Derived bodies are read -/

theorem CallTree.span_toCall (call : CallTree) :
    call.toCall.span = ⟨call.first.span.start, call.stop⟩ := by
  cases call <;> rfl

theorem ChainTree.last_toChain (before : Option Chain) :
    ∀ chain : ChainTree, (chain.toChain before).last.span.stop = chain.stop
  | .last call => by
    have stop := congrArg Span.stop call.span_toCall
    cases before <;> exact stop
  | .cons call rest => rest.last_toChain _

section

variable {expr : Expr}

theorem read_segments {level : Level} {opened : List Open} {rest : List Piece}
    {more : List (Mark × Word)} {tokens : List String} {start stop : Nat}
    (onward : ∀ mayLabel,
      read ⟨.named (tokens ++ more.map fun entry => entry.2.text)
        ⟨start, more.foldl (fun _ entry => entry.2.span.stop) stop⟩ mayLabel, level, opened⟩
        rest = some expr)
    (mayLabel : Bool) :
    read ⟨.named tokens ⟨start, stop⟩ mayLabel, level, opened⟩
      (NameTree.morePieces more ++ rest) = some expr := by
  induction more generalizing tokens stop mayLabel with
  | nil =>
    rw [List.map_nil, List.append_nil] at onward
    exact onward mayLabel
  | cons entry more ih =>
    obtain ⟨colon, word⟩ := entry
    have next := @ih (tokens ++ [word.text]) word.span.stop (by
      intro mayLabel
      rw [List.append_assoc]
      exact onward mayLabel) false
    exact next

theorem read_name (name : NameTree) {s : State} {level : Level} {opened : List Open}
    {rest : List Piece} (enters : s.Enters name.first.span.start level opened)
    (onward : ∀ mayLabel,
      read ⟨.named name.toName.tokens name.span mayLabel, level, opened⟩ rest = some expr) :
    read s (name.pieces ++ rest) = some expr := by
  obtain ⟨mayLabel, taken⟩ := enters name.first.text name.first.span name.first.raw rfl
  rw [NameTree.pieces, List.cons_append, read_cons, Word.piece, taken]
  exact @read_segments expr level opened rest name.more [name.first.text]
    name.first.span.start name.first.span.stop onward mayLabel

mutual

/-- A call is read where a word may begin one. -/
theorem read_call : ∀ (call : CallTree) {s : State} {level : Level} {opened : List Open}
    {rest : List Piece}, s.Enters call.first.span.start level opened →
      (∀ t : State, t.IsBehind (level.push call.toCall) opened → read t rest = some expr) →
      read s (call.pieces ++ rest) = some expr
  | .bare name, s, level, opened, rest, enters, onward =>
    read_name name enters fun mayLabel => onward _ (.named mayLabel rfl)
  | .applied name start args, s, level, opened, rest, enters, onward => by
    rw [CallTree.pieces, List.append_assoc]
    refine read_name name enters fun mayLabel => ?_
    refine read_args args level name.toName name.span.start [] _ ?_
    rw [List.reverse_nil, List.nil_append, ofList_toList]
    exact onward

/-- Arguments are added behind those that have been read, up to the closing parenthesis. -/
theorem read_args : ∀ (args : ArgsTree) (outer : Level) (name : Name) (start : Nat)
    (done : List Arg) (argStart : Nat) {opened : List Open} {rest : List Piece},
      (∀ t : State, t.IsBehind (outer.push (.applied name
        (.ofList (done.reverse ++ args.toArgs.toList)) ⟨start, args.stop⟩)) opened →
          read t rest = some expr) →
      read ⟨.argStart, .empty, ⟨outer, name, start, done, none, argStart⟩ :: opened⟩
        (args.pieces ++ rest) = some expr
  | .empty stop, outer, name, start, done, argStart, opened, rest, onward => by
    have complete := onward ⟨.called, _, opened⟩ .called
    rw [ArgsTree.toArgs, Args.toList, List.append_nil] at complete
    exact complete
  | .cons arg more, outer, name, start, done, argStart, opened, rest, onward => by
    rw [ArgsTree.pieces, List.append_assoc]
    refine read_arg arg outer name start done argStart fun t argStart past => ?_
    refine read_more more outer name start (arg.toArg :: done) argStart past ?_
    rw [List.reverse_cons, List.append_assoc]
    exact onward

/-- The rest of an argument list is read behind an argument. -/
theorem read_more : ∀ (more : MoreArgsTree) (outer : Level) (name : Name) (start : Nat)
    (done : List Arg) (argStart : Nat) {opened : List Open} {rest : List Piece} {s : State},
      s.IsPastArg ⟨outer, name, start, done, none, argStart⟩ opened →
      (∀ t : State, t.IsBehind (outer.push (.applied name
        (.ofList (done.reverse ++ more.toArgs.toList)) ⟨start, more.stop⟩)) opened →
          read t rest = some expr) →
      read s (more.pieces ++ rest) = some expr
  | .done stop, outer, name, start, done, argStart, opened, rest, s, past, onward => by
    have complete := onward ⟨.called, _, opened⟩ .called
    rw [MoreArgsTree.toArgs, Args.toList, List.append_nil] at complete
    rw [MoreArgsTree.pieces, List.singleton_append, read_cons, Mark.piece, past.close]
    exact complete
  | .trailing comma stop, outer, name, start, done, argStart, opened, rest, s, past, onward => by
    have complete := onward ⟨.called, _, opened⟩ .called
    rw [MoreArgsTree.toArgs, Args.toList, List.append_nil] at complete
    rw [MoreArgsTree.pieces, List.cons_append, read_cons, Mark.piece, past.comma]
    exact complete
  | .cons comma arg more, outer, name, start, done, argStart, opened, rest, s, past, onward => by
    rw [MoreArgsTree.pieces, List.cons_append, List.append_assoc, read_cons, Mark.piece,
      past.comma]
    refine read_arg arg outer name start done argStart fun t argStart past => ?_
    refine read_more more outer name start (arg.toArg :: done) argStart past ?_
    rw [List.reverse_cons, List.append_assoc]
    exact onward

theorem read_arg : ∀ (arg : ArgTree) (outer : Level) (name : Name) (start : Nat)
    (done : List Arg) (argStart : Nat) {opened : List Open} {rest : List Piece},
      (∀ (t : State) (argStart : Nat),
        t.IsPastArg ⟨outer, name, start, arg.toArg :: done, none, argStart⟩ opened →
          read t rest = some expr) →
      read ⟨.argStart, .empty, ⟨outer, name, start, done, none, argStart⟩ :: opened⟩
        (arg.pieces ++ rest) = some expr
  | .unnamed value, outer, name, start, done, argStart, opened, _, onward =>
    read_value value (takesValue_argStart value.start
      ⟨outer, name, start, done, none, argStart⟩ opened) fun t past => onward t value.start past
  | .named label _ value, outer, name, start, done, _, opened, _, onward =>
    read_value value (takesValue_valueStart value.start
      ⟨outer, name, start, done, some label.text, label.span.start⟩ opened)
      fun t past => onward t label.span.start past

theorem read_value : ∀ (value : ValueTree) {o : Open} {opened : List Open} {s : State}
    {rest : List Piece}, s.TakesValue value.start o opened →
      (∀ t : State, t.IsPastArg (o.finish value.toValue value.stop) opened →
        read t rest = some expr) →
      read s (value.pieces ++ rest) = some expr
  | .literal leaf, o, opened, s, rest, takes, onward => by
    rw [ValueTree.pieces, List.singleton_append, read_cons, takes.literal leaf.reads rfl]
    exact onward _ (isPastArg_valued leaf.literal leaf.piece.span .empty o opened)
  | .expr inner, o, opened, s, rest, takes, onward =>
    read_expr inner [] takes.enters fun level read last chain stop t stands => by
      have past := stands.isPastArg read chain
      rw [stop] at past
      exact onward t past

/-- The calls of an arm are read behind calls that have been read. -/
theorem read_chain : ∀ (chain : ChainTree) (before : Option Chain) {s : State}
    {arms : List Chain} {opened : List Open} {rest : List Piece},
      s.Enters chain.first.span.start ⟨arms, before⟩ opened →
      (∀ t : State, t.IsBehind ⟨arms, some (chain.toChain before)⟩ opened →
        read t rest = some expr) →
      read s (chain.pieces ++ rest) = some expr
  | .last call, before, s, arms, opened, rest, enters, onward => read_call call enters onward
  | .cons call others, before, s, arms, opened, rest, enters, onward => by
    rw [ChainTree.pieces, List.append_assoc]
    refine read_call call enters fun t stands => ?_
    exact read_chain others _ (stands.enters _) onward

/-- The arms of an expression are read behind arms that have been read. -/
theorem read_expr : ∀ (value : ExprTree) (arms : List Chain) {s : State} {opened : List Open}
    {rest : List Piece}, s.Enters value.first.span.start ⟨arms, none⟩ opened →
      (∀ level : Level, level.toExpr? = some (withArms arms value.toExpr) →
        ∀ last : Chain, level.chain = some last → last.last.span.stop = value.stop →
          ∀ t : State, t.IsBehind level opened → read t rest = some expr) →
      read s (value.pieces ++ rest) = some expr
  | .arm main, arms, s, opened, rest, enters, onward =>
    read_chain main none enters (onward _ rfl _ rfl (main.last_toChain none))
  | .orElse main bar others, arms, s, opened, rest, enters, onward => by
    rw [ExprTree.pieces, List.append_assoc]
    refine read_chain main none enters fun t stands => ?_
    rw [List.cons_append, read_cons, Mark.piece, stands.pipe rfl]
    exact read_expr others (main.toChain none :: arms) (fun _ _ _ _ => ⟨false, rfl⟩) onward

end

end

theorem read_pieces (tree : ExprTree) : read .initial tree.pieces = some tree.toExpr := by
  have whole := @read_expr tree.toExpr tree [] .initial [] []
    (fun _ _ _ _ => ⟨false, rfl⟩) fun level spelled _ _ _ t stands => stands.finish.trans spelled
  rw [List.append_nil] at whole
  exact whole

/-! ## Accepted bodies are derived -/

theorem read_of_run {close last : Nat} {s : State} {pieces : List Piece} {expr : Expr}
    (accepted : run close last s pieces = .ok expr) : read s pieces = some expr := by
  induction pieces generalizing s last with
  | nil =>
    rw [run] at accepted
    split at accepted
    · rename_i finished
      rw [← Except.ok.inj accepted]
      exact finished
    · cases accepted
  | cons piece rest ih =>
    rw [run] at accepted
    rw [read_cons]
    split at accepted
    · rename_i next taken
      rw [taken]
      exact ih accepted
    · cases accepted

mutual

/-- The pieces that can stand behind an expression with so many argument lists around it. -/
inductive Closes : Nat → List Piece → Prop
  | body : Closes 0 []
  | list {depth : Nat} {rest : List Piece} (more : MoreArgsTree)
      (follows : FollowsCall depth rest) : Closes (depth + 1) (more.pieces ++ rest)

/-- The pieces that can stand behind a call. -/
inductive FollowsCall : Nat → List Piece → Prop
  | done {depth : Nat} {rest : List Piece} (closes : Closes depth rest) : FollowsCall depth rest
  | pipe {depth : Nat} {rest : List Piece} (bar : Mark) (others : ExprTree)
      (closes : Closes depth rest) :
      FollowsCall depth (bar.piece .pipe :: (others.pieces ++ rest))
  | call {depth : Nat} {rest : List Piece} (call : CallTree) (follows : FollowsCall depth rest) :
      FollowsCall depth (call.pieces ++ rest)

end

/-- The pieces that can stand behind an identifier of a name. -/
inductive FollowsWord (depth : Nat) : List Piece → Prop
  | bare {rest : List Piece} (follows : FollowsCall depth rest) : FollowsWord depth rest
  | args {rest : List Piece} (start : Mark) (args : ArgsTree) (follows : FollowsCall depth rest) :
      FollowsWord depth (start.piece .parenOpen :: (args.pieces ++ rest))
  | colon {rest : List Piece} (colon : Mark) (word : Word) (follows : FollowsWord depth rest) :
      FollowsWord depth (colon.piece .colon :: word.piece :: rest)

/-- Whether there is room for the pieces behind a state. -/
def State.Accepts (s : State) (pieces : List Piece) : Prop :=
  let depth := s.opened.length
  match s.place with
  | .armStart => ∃ (expr : ExprTree) (rest : List Piece),
      pieces = expr.pieces ++ rest ∧ Closes depth rest
  | .argStart => ∃ (args : ArgsTree) (rest : List Piece) (outer : Nat),
      depth = outer + 1 ∧ pieces = args.pieces ++ rest ∧ FollowsCall outer rest
  | .valueStart => ∃ (value : ValueTree) (rest : List Piece),
      pieces = value.pieces ++ rest ∧ Closes depth rest
  | .segment _ _ => ∃ (word : Word) (rest : List Piece),
      pieces = word.piece :: rest ∧ FollowsWord depth rest
  | .named _ _ mayLabel => FollowsWord depth pieces ∨ mayLabel = true ∧
      ∃ (equals : Mark) (value : ValueTree) (rest : List Piece),
        pieces = equals.piece .equals :: (value.pieces ++ rest) ∧ Closes depth rest
  | .called => FollowsCall depth pieces
  | .valued _ _ => Closes depth pieces

/-! ### One more piece in front -/

/-- The derivation with one more identifier in front of its name. -/
def CallTree.consWord (word : Word) (colon : Mark) : CallTree → CallTree
  | .bare name => .bare ⟨word, (colon, name.first) :: name.more⟩
  | .applied name start args => .applied ⟨word, (colon, name.first) :: name.more⟩ start args

theorem CallTree.pieces_consWord (word : Word) (colon : Mark) (call : CallTree) :
    (call.consWord word colon).pieces = word.piece :: colon.piece .colon :: call.pieces := by
  cases call <;> rfl

/-- The derivation with one more call in front. -/
def ExprTree.consCall (call : CallTree) : ExprTree → ExprTree
  | .arm main => .arm (.cons call main)
  | .orElse main bar others => .orElse (.cons call main) bar others

theorem ExprTree.pieces_consCall (call : CallTree) (expr : ExprTree) :
    (expr.consCall call).pieces = call.pieces ++ expr.pieces := by
  cases expr with
  | arm main => rfl
  | orElse main bar others => exact List.append_assoc _ _ _

/-- Arguments behind a comma. -/
def ArgsTree.behind (comma : Mark) : ArgsTree → MoreArgsTree
  | .empty stop => .trailing comma stop
  | .cons arg more => .cons comma arg more

theorem ArgsTree.pieces_behind (comma : Mark) (args : ArgsTree) :
    (args.behind comma).pieces = comma.piece .comma :: args.pieces := by
  cases args <;> rfl

theorem FollowsWord.call {depth : Nat} {rest : List Piece} (follows : FollowsWord depth rest)
    (word : Word) : ∃ (call : CallTree) (behind : List Piece),
      word.piece :: rest = call.pieces ++ behind ∧ FollowsCall depth behind := by
  induction follows generalizing word with
  | bare follows => exact ⟨.bare ⟨word, []⟩, _, rfl, follows⟩
  | args start args follows => exact ⟨.applied ⟨word, []⟩ start args, _, rfl, follows⟩
  | colon colon next _ ih =>
    obtain ⟨call, behind, split, follows⟩ := ih next
    refine ⟨call.consWord word colon, behind, ?_, follows⟩
    rw [split, CallTree.pieces_consWord]
    rfl

theorem FollowsCall.expr {depth : Nat} {rest : List Piece} (follows : FollowsCall depth rest)
    (call : CallTree) : ∃ (expr : ExprTree) (behind : List Piece),
      call.pieces ++ rest = expr.pieces ++ behind ∧ Closes depth behind := by
  match follows with
  | .done closes => exact ⟨.arm (.last call), _, rfl, closes⟩
  | .pipe bar others closes =>
    refine ⟨.orElse (.last call) bar others, _, ?_, closes⟩
    rw [ExprTree.pieces, List.append_assoc]
    rfl
  | .call next follows =>
    obtain ⟨expr, behind, split, closes⟩ := follows.expr next
    refine ⟨expr.consCall call, behind, ?_, closes⟩
    rw [split, ExprTree.pieces_consCall, List.append_assoc]

theorem FollowsWord.expr {depth : Nat} {rest : List Piece} (follows : FollowsWord depth rest)
    (word : Word) : ∃ (expr : ExprTree) (behind : List Piece),
      word.piece :: rest = expr.pieces ++ behind ∧ Closes depth behind := by
  obtain ⟨call, behind, split, follows⟩ := follows.call word
  rw [split]
  exact follows.expr call

/-- A call behind a call. -/
theorem FollowsWord.followsCall {depth : Nat} {rest : List Piece}
    (follows : FollowsWord depth rest) (word : Word) : FollowsCall depth (word.piece :: rest) := by
  obtain ⟨call, behind, split, follows⟩ := follows.call word
  rw [split]
  exact .call call follows

/-! ### One step -/

/-- A comma behind an argument leads to where the next argument can begin. -/
theorem closes_comma {s : State} {span : Span} {raw : String} {rest : List Piece} {depth : Nat}
    (place : s.place = .argStart) (opened : s.opened.length = depth + 1)
    (accepts : s.Accepts rest) : Closes (depth + 1) (⟨.comma, span, raw⟩ :: rest) := by
  rw [State.Accepts, place] at accepts
  obtain ⟨args, behind, outer, around, rfl, follows⟩ := accepts
  obtain rfl : depth = outer := Nat.succ.inj (opened.symm.trans around)
  have closes := Closes.list (args.behind ⟨span, raw⟩) follows
  rw [ArgsTree.pieces_behind] at closes
  exact closes

theorem followsWord_of_accepts {tokens : List String} {span : Span} {level : Level}
    {opened : List Open} {rest : List Piece}
    (accepts : State.Accepts ⟨.named tokens span false, level, opened⟩ rest) :
    FollowsWord opened.length rest := by
  obtain follows | ⟨mayLabel, -⟩ := accepts
  · exact follows
  · cases mayLabel

theorem accepts_afterCall {level : Level} {opened : List Open} {piece : Piece} {next : State}
    {rest : List Piece} (taken : afterCall level opened piece = some next)
    (accepts : next.Accepts rest) : FollowsCall opened.length (piece :: rest) := by
  obtain ⟨token, span, raw⟩ := piece
  cases token with
  | ident text =>
    obtain rfl := Option.some.inj taken
    exact (followsWord_of_accepts accepts).followsCall ⟨text, span, raw⟩
  | pipe =>
    obtain ⟨chain, -, rfl⟩ := Option.map_eq_some_iff.mp taken
    obtain ⟨others, behind, rfl, closes⟩ := accepts
    exact .pipe ⟨span, raw⟩ others closes
  | comma =>
    cases opened with
    | nil => cases taken
    | cons o around =>
      obtain ⟨expr, -, taken⟩ := Option.bind_eq_some_iff.mp taken
      obtain ⟨last, -, taken⟩ := Option.bind_eq_some_iff.mp taken
      obtain rfl := Option.some.inj taken
      exact .done (closes_comma rfl rfl accepts)
  | parenClose =>
    cases opened with
    | nil => cases taken
    | cons o around =>
      obtain ⟨expr, -, taken⟩ := Option.bind_eq_some_iff.mp taken
      obtain ⟨last, -, taken⟩ := Option.bind_eq_some_iff.mp taken
      obtain rfl := Option.some.inj taken
      exact .done (.list (.done ⟨span, raw⟩) accepts)
  | _ => cases opened <;> cases taken

theorem accepts_afterLiteral {literal : Literal} {place : Span} {opened : List Open}
    {piece : Piece} {next : State} {rest : List Piece}
    (taken : afterLiteral literal place opened piece = some next) (accepts : next.Accepts rest) :
    Closes opened.length (piece :: rest) := by
  obtain ⟨token, span, raw⟩ := piece
  cases opened with
  | nil => cases token <;> cases taken
  | cons o around =>
    cases token with
    | comma =>
      obtain rfl := Option.some.inj taken
      exact closes_comma rfl rfl accepts
    | parenClose =>
      obtain rfl := Option.some.inj taken
      exact .list (.done ⟨span, raw⟩) accepts
    | _ => cases taken

theorem accepts_afterName {tokens : List String} {place : Span} {mayLabel : Bool} {level : Level}
    {opened : List Open} {piece : Piece} {next : State} {rest : List Piece}
    (taken : afterName tokens place mayLabel level opened piece = some next)
    (accepts : next.Accepts rest) :
    State.Accepts ⟨.named tokens place mayLabel, level, opened⟩ (piece :: rest) := by
  obtain ⟨token, span, raw⟩ := piece
  cases token with
  | colon =>
    obtain rfl := Option.some.inj taken
    obtain ⟨word, behind, rfl, follows⟩ := accepts
    exact .inl (.colon ⟨span, raw⟩ word follows)
  | parenOpen =>
    obtain rfl := Option.some.inj taken
    obtain ⟨args, behind, outer, around, rfl, follows⟩ := accepts
    obtain rfl : opened.length = outer := Nat.succ.inj around
    exact .inl (.args ⟨span, raw⟩ args follows)
  | equals =>
    cases opened with
    | nil => cases taken
    | cons o around =>
      cases mayLabel with
      | false => cases taken
      | true =>
        obtain ⟨label, -, rfl⟩ := Option.map_eq_some_iff.mp taken
        obtain ⟨value, behind, rfl, closes⟩ := accepts
        exact .inr ⟨rfl, ⟨span, raw⟩, value, behind, rfl, closes⟩
  | _ =>
    exact .inl (.bare
      (@accepts_afterCall (level.push (.bare ⟨tokens⟩ place)) opened _ next rest taken accepts))

/-- The rest of an argument list behind an argument and what closes it. -/
theorem Closes.args {depth : Nat} {rest : List Piece} (closes : Closes (depth + 1) rest)
    (arg : ArgTree) : ∃ (args : ArgsTree) (behind : List Piece),
      arg.pieces ++ rest = args.pieces ++ behind ∧ FollowsCall depth behind := by
  cases closes with
  | list more follows => exact ⟨.cons arg more, _, (List.append_assoc ..).symm, follows⟩

theorem accepts_startArg {level : Level} {opened : List Open} {piece : Piece} {next : State}
    {rest : List Piece} (taken : startArg opened piece = some next)
    (accepts : next.Accepts rest) : State.Accepts ⟨.argStart, level, opened⟩ (piece :: rest) := by
  cases opened with
  | nil => cases taken
  | cons o around =>
    -- It is enough to find an argument, and what follows an argument list behind it.
    have found {arg : ArgTree} {behind : List Piece} (split : piece :: rest = arg.pieces ++ behind)
        (closes : Closes (around.length + 1) behind) :
        State.Accepts ⟨.argStart, level, o :: around⟩ (piece :: rest) := by
      obtain ⟨args, others, whole, follows⟩ := closes.args arg
      exact ⟨args, others, around.length, rfl, split.trans whole, follows⟩
    obtain ⟨token, span, raw⟩ := piece
    cases token with
    | ident text =>
      obtain rfl := Option.some.inj taken
      obtain follows | ⟨-, equals, value, behind, rfl, closes⟩ := accepts
      · obtain ⟨expr, behind, split, closes⟩ := follows.expr ⟨text, span, raw⟩
        exact @found (.unnamed (.expr expr)) behind split closes
      · exact @found (.named ⟨text, span, raw⟩ equals value) behind rfl closes
    | parenClose =>
      obtain rfl := Option.some.inj taken
      exact ⟨.empty ⟨span, raw⟩, rest, around.length, rfl, rfl, accepts⟩
    | yes | no | number | text =>
      obtain rfl := Option.some.inj taken
      exact @found (.unnamed (.literal ⟨_, _, rfl⟩)) rest rfl accepts
    | _ => cases taken

theorem accepts_advance {s next : State} {piece : Piece} {rest : List Piece}
    (taken : s.advance piece = some next) (accepts : next.Accepts rest) :
    s.Accepts (piece :: rest) := by
  obtain ⟨place, level, opened⟩ := s
  cases place with
  | argStart => exact accepts_startArg taken accepts
  | named tokens span mayLabel => exact accepts_afterName taken accepts
  | called => exact accepts_afterCall taken accepts
  | valued literal span => exact accepts_afterLiteral taken accepts
  | armStart =>
    obtain ⟨token, span, raw⟩ := piece
    cases token with
    | ident text =>
      obtain rfl := Option.some.inj taken
      exact (followsWord_of_accepts accepts).expr ⟨text, span, raw⟩
    | _ => cases taken
  | segment tokens start =>
    obtain ⟨token, span, raw⟩ := piece
    cases token with
    | ident text =>
      obtain rfl := Option.some.inj taken
      exact ⟨⟨text, span, raw⟩, rest, rfl, followsWord_of_accepts accepts⟩
    | _ => cases taken
  | valueStart =>
    obtain ⟨token, span, raw⟩ := piece
    cases token with
    | ident text =>
      obtain rfl := Option.some.inj taken
      obtain ⟨expr, behind, split, closes⟩ :=
        (followsWord_of_accepts accepts).expr ⟨text, span, raw⟩
      exact ⟨.expr expr, behind, split, closes⟩
    | yes | no | number | text =>
      obtain rfl := Option.some.inj taken
      exact ⟨.literal ⟨_, _, rfl⟩, rest, rfl, accepts⟩
    | _ => cases taken

theorem accepts_of_read {s : State} {pieces : List Piece} {expr : Expr}
    (spelled : read s pieces = some expr) : s.Accepts pieces := by
  induction pieces generalizing s with
  | nil =>
    have finished : s.finish = some expr := spelled
    obtain ⟨place, level, _ | ⟨o, opened⟩⟩ := s
    · cases place with
      | named => exact .inl (.bare (.done .body))
      | called => exact .done .body
      | _ => cases finished
    · cases finished
  | cons piece rest ih =>
    rw [read_cons] at spelled
    obtain ⟨next, taken, spelled⟩ := Option.bind_eq_some_iff.mp spelled
    exact accepts_advance taken (ih spelled)

/-! ## Acceptance -/

theorem parse_pieces (close : Nat) (tree : ExprTree) :
    parse close tree.pieces = .ok tree.toExpr :=
  run_of_read (read_pieces tree) close close

theorem derives_of_parse {close : Nat} {body : List Piece} {expr : Expr}
    (accepted : parse close body = .ok expr) : ∃ tree : ExprTree, tree.pieces = body := by
  obtain ⟨tree, behind, split, closes⟩ := accepts_of_read (read_of_run accepted)
  cases closes with
  | body =>
    rw [List.append_nil] at split
    exact ⟨tree, split.symm⟩

end Grammar

end TypedTemplate
