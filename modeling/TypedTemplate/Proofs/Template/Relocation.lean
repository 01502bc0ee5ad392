import TypedTemplate.Proofs.Template.Elements

/-!
Places do not matter. Nothing that is read depends on where it stands: moving the pieces of a
body by any function on positions moves the expression, or the error, and changes nothing else
(`Grammar.run_relocate`). So a text that stands further behind is read as if it stood by itself,
with all spans shifted (`Reader.elements_shift`).
-/
namespace TypedTemplate

/-! ## Moving trees -/

def Span.relocate (f : Nat → Nat) (span : Span) : Span := ⟨f span.start, f span.stop⟩

mutual

def Call.relocate (f : Nat → Nat) : Call → Call
  | .bare name span => .bare name (span.relocate f)
  | .applied name args span => .applied name (args.relocate f) (span.relocate f)

def Args.relocate (f : Nat → Nat) : Args → Args
  | .nil => .nil
  | .cons arg rest => .cons (arg.relocate f) (rest.relocate f)

def Arg.relocate (f : Nat → Nat) : Arg → Arg
  | .mk label value span => .mk label (value.relocate f) (span.relocate f)

def ArgValue.relocate (f : Nat → Nat) : ArgValue → ArgValue
  | .literal literal => .literal literal
  | .expr expr => .expr (expr.relocate f)

def Chain.relocate (f : Nat → Nat) : Chain → Chain
  | .first call => .first (call.relocate f)
  | .next parent call => .next (parent.relocate f) (call.relocate f)

def Expr.relocate (f : Nat → Nat) : Expr → Expr
  | .arm main => .arm (main.relocate f)
  | .orElse main others => .orElse (main.relocate f) (others.relocate f)

end

def SyntaxError.relocate (f : Nat → Nat) (e : SyntaxError) : SyntaxError :=
  { e with span := e.span.relocate f }

def Piece.relocate (f : Nat → Nat) (piece : Piece) : Piece :=
  { piece with span := piece.span.relocate f }

def Element.relocate (f : Nat → Nat) : Element → Element
  | .text raw span => .text raw (span.relocate f)
  | .placeholder expr span => .placeholder (expr.relocate f) (span.relocate f)

/-- The result of reading something that has been moved. -/
def relocated {α : Type} (f : Nat → Nat) (move : α → α) (result : Except SyntaxError α) :
    Except SyntaxError α :=
  (result.map move).mapError (SyntaxError.relocate f)

namespace Grammar

def Level.relocate (f : Nat → Nat) (level : Level) : Level :=
  ⟨level.arms.map (Chain.relocate f), level.chain.map (Chain.relocate f)⟩

def Open.relocate (f : Nat → Nat) (o : Open) : Open :=
  ⟨o.outer.relocate f, o.name, f o.start, o.done.map (Arg.relocate f), o.label, f o.argStart⟩

def Place.relocate (f : Nat → Nat) : Place → Place
  | .armStart => .armStart
  | .argStart => .argStart
  | .valueStart => .valueStart
  | .segment tokens start => .segment tokens (f start)
  | .named tokens span mayLabel => .named tokens (span.relocate f) mayLabel
  | .called => .called
  | .valued literal span => .valued literal (span.relocate f)

def State.relocate (f : Nat → Nat) (s : State) : State :=
  ⟨s.place.relocate f, s.level.relocate f, s.opened.map (Open.relocate f)⟩

variable (f : Nat → Nat)

/-! ## Parts of the state -/

theorem args_relocate_ofList (args : List Arg) :
    (Args.ofList args).relocate f = Args.ofList (args.map (Arg.relocate f)) := by
  induction args with
  | nil => rfl
  | cons arg rest ih => simp [Args.ofList, Args.relocate, ih]

theorem last_relocate (chain : Chain) : (chain.relocate f).last = chain.last.relocate f := by
  cases chain <;> rfl

theorem call_span_relocate (call : Call) : (call.relocate f).span = call.span.relocate f := by
  cases call <;> rfl

theorem push_relocate (level : Level) (call : Call) :
    (level.push call).relocate f = (level.relocate f).push (call.relocate f) := by
  obtain ⟨arms, chain⟩ := level
  cases chain <;> rfl

theorem toExpr?_relocate (level : Level) :
    (level.relocate f).toExpr? = level.toExpr?.map (Expr.relocate f) := by
  obtain ⟨arms, chain⟩ := level
  have fold : ∀ first : Expr,
      (arms.map (Chain.relocate f)).foldl (fun others main => .orElse main others)
          (first.relocate f) =
        (arms.foldl (fun others main => .orElse main others) first).relocate f := by
    induction arms with
    | nil => exact fun _ => rfl
    | cons arm others ih => exact fun first => ih (.orElse arm first)
  cases chain with
  | none => rfl
  | some last => exact congrArg some (fold (.arm last))

theorem close_relocate (o : Open) (stop : Nat) :
    (o.relocate f).close (f stop) = (o.close stop).relocate f := by
  rw [Open.close, Open.close, push_relocate, Call.relocate, args_relocate_ofList,
    List.map_reverse]
  rfl

/-! ## Steps -/

theorem afterCall_comma {level : Level} {expr : Expr} {last : Chain}
    (read : level.toExpr? = some expr) (chain : level.chain = some last) (o : Open)
    (rest : List Open) (span : Span) (raw : String) :
    afterCall level (o :: rest) ⟨.comma, span, raw⟩ =
      some ⟨.argStart, .empty, o.finish (.expr expr) last.last.span.stop :: rest⟩ := by
  simp [afterCall, read, chain]

theorem afterCall_parenClose {level : Level} {expr : Expr} {last : Chain}
    (read : level.toExpr? = some expr) (chain : level.chain = some last) (o : Open)
    (rest : List Open) (span : Span) (raw : String) :
    afterCall level (o :: rest) ⟨.parenClose, span, raw⟩ =
      some ⟨.called, (o.finish (.expr expr) last.last.span.stop).close span.stop, rest⟩ := by
  simp [afterCall, read, chain]

theorem afterCall_relocate (level : Level) (opened : List Open) (piece : Piece) :
    afterCall (level.relocate f) (opened.map (Open.relocate f)) (piece.relocate f) =
      (afterCall level opened piece).map (State.relocate f) := by
  obtain ⟨token, span, raw⟩ := piece
  obtain ⟨arms, _ | last⟩ := level
  · cases token <;> cases opened <;> rfl
  · have read : ∃ expr, Level.toExpr? ⟨arms, some last⟩ = some expr := ⟨_, rfl⟩
    obtain ⟨expr, read⟩ := read
    have moved := toExpr?_relocate f ⟨arms, some last⟩
    rw [read, Option.map_some] at moved
    have chain : (Level.relocate f ⟨arms, some last⟩).chain = some (last.relocate f) := rfl
    have place : (last.relocate f).last.span.stop = f last.last.span.stop := by
      rw [last_relocate, call_span_relocate]
      rfl
    cases token with
    | comma =>
      cases opened with
      | nil => rfl
      | cons o rest =>
        rw [afterCall_comma read rfl, Piece.relocate, List.map_cons, afterCall_comma moved chain,
          place]
        rfl
    | parenClose =>
      cases opened with
      | nil => rfl
      | cons o rest =>
        rw [afterCall_parenClose read rfl, Piece.relocate, List.map_cons,
          afterCall_parenClose moved chain, place, Option.map_some, State.relocate,
          ← close_relocate]
        rfl
    | _ => cases opened <;> rfl

theorem afterLiteral_relocate (literal : Literal) (span : Span) (opened : List Open)
    (piece : Piece) :
    afterLiteral literal (span.relocate f) (opened.map (Open.relocate f)) (piece.relocate f) =
      (afterLiteral literal span opened piece).map (State.relocate f) := by
  obtain ⟨token, place, raw⟩ := piece
  cases token with
  | parenClose =>
    cases opened with
    | nil => rfl
    | cons o rest =>
      have closed := close_relocate f (o.finish (.literal literal) span.stop) place.stop
      exact congrArg
        (fun level => some (State.mk .called level (rest.map (Open.relocate f)))) closed
  | _ => cases opened <;> rfl

theorem afterName_relocate (tokens : List String) (span : Span) (mayLabel : Bool) (level : Level)
    (opened : List Open) (piece : Piece) :
    afterName tokens (span.relocate f) mayLabel (level.relocate f)
        (opened.map (Open.relocate f)) (piece.relocate f) =
      (afterName tokens span mayLabel level opened piece).map (State.relocate f) := by
  have called := afterCall_relocate f (level.push (.bare ⟨tokens⟩ span)) opened piece
  rw [push_relocate] at called
  obtain ⟨token, place, raw⟩ := piece
  cases token with
  | colon => rfl
  | parenOpen => rfl
  | equals =>
    cases opened with
    | nil => exact called
    | cons o rest => cases mayLabel <;> cases tokens <;> rfl
  | _ => exact called

theorem startArg_relocate (opened : List Open) (piece : Piece) :
    startArg (opened.map (Open.relocate f)) (piece.relocate f) =
      (startArg opened piece).map (State.relocate f) := by
  obtain ⟨token, place, raw⟩ := piece
  cases opened with
  | nil => rfl
  | cons o rest =>
    cases token with
    | parenClose =>
      exact congrArg (fun level => some (State.mk .called level (rest.map (Open.relocate f))))
        (close_relocate f o place.stop)
    | _ => rfl

theorem advance_relocate (s : State) (piece : Piece) :
    (s.relocate f).advance (piece.relocate f) = (s.advance piece).map (State.relocate f) := by
  obtain ⟨place, level, opened⟩ := s
  cases place with
  | argStart => exact startArg_relocate f opened piece
  | named tokens span mayLabel => exact afterName_relocate f tokens span mayLabel level opened piece
  | called => exact afterCall_relocate f level opened piece
  | valued literal span => exact afterLiteral_relocate f literal span opened piece
  | _ =>
    obtain ⟨token, span, raw⟩ := piece
    cases token <;> rfl

theorem finish_relocate (s : State) :
    (s.relocate f).finish = s.finish.map (Expr.relocate f) := by
  obtain ⟨place, level, opened⟩ := s
  cases opened with
  | cons o rest => rfl
  | nil =>
    cases place with
    | named tokens span mayLabel =>
      have read := toExpr?_relocate f (level.push (.bare ⟨tokens⟩ span))
      rw [push_relocate] at read
      exact read
    | called => exact toExpr?_relocate f level
    | _ => rfl

theorem expected_relocate (s : State) : (s.relocate f).expected = s.expected := by
  obtain ⟨place, level, opened⟩ := s
  cases place <;> cases opened <;> rfl

/-! ## Bodies -/

theorem run_relocate (close last : Nat) (s : State) (pieces : List Piece) :
    run (f close) (f last) (s.relocate f) (pieces.map (Piece.relocate f)) =
      relocated f (Expr.relocate f) (run close last s pieces) := by
  induction pieces generalizing s last with
  | nil =>
    rw [List.map_nil, run, run, finish_relocate, expected_relocate]
    cases s.finish <;> rfl
  | cons piece rest ih =>
    rw [List.map_cons, run, run, advance_relocate, expected_relocate]
    cases s.advance piece with
    | none => rfl
    | some next => exact ih piece.span.stop next

end Grammar

/-! ## Texts -/

def Located.relocate (f : Nat → Nat) (item : Located) : Located :=
  { item with span := item.span.relocate f }

theorem lexUntil_shift (stop : Token → Bool) (n offset : Nat) (cs : List Char) :
    lexUntil stop (offset + n) cs =
      ((lexUntil stop offset cs).1.map (Located.relocate (· + n)),
        (lexUntil stop offset cs).2.map fun last => (last.1.relocate (· + n), last.2)) := by
  fun_induction lexUntil stop offset cs with
  | case1 offset =>
    rw [lexUntil]
    rfl
  | case2 offset c rest blank ih =>
    rw [lexUntil, if_pos blank, Nat.add_right_comm]
    exact ih
  | case3 offset c rest solid lexeme found behind stops =>
    have place : offset + n + byteLength lexeme.source = offset + byteLength lexeme.source + n :=
      Nat.add_right_comm _ _ _
    rw [lexUntil, if_neg solid]
    dsimp only
    rw [if_pos stops, place]
    rfl
  | case4 offset c rest solid lexeme found behind goes items last scanned ih =>
    have place : offset + n + byteLength lexeme.source = offset + byteLength lexeme.source + n :=
      Nat.add_right_comm _ _ _
    rw [lexUntil, if_neg solid]
    dsimp only
    rw [if_neg goes, place, ih, scanned]
    rfl

namespace Reader

theorem pieces_relocate (f : Nat → Nat) (items : List Located) :
    pieces (items.map (Located.relocate f)) =
      ((pieces items).map (List.map (Piece.relocate f))).mapError (Span.relocate f) := by
  induction items with
  | nil => rfl
  | cons item rest ih =>
    obtain ⟨⟨token, source⟩, span⟩ := item
    rw [List.map_cons, pieces, pieces, ih]
    cases token with
    | none => rfl
    | some token => cases pieces rest <;> rfl

def Placeholder.relocate (f : Nat → Nat) (p : Placeholder) : Placeholder :=
  { p with expr := p.expr.relocate f, stop := f p.stop }

theorem placeholder_shift (n start : Nat) (cs : List Char) :
    placeholder (start + n) cs =
      relocated (· + n) (Placeholder.relocate (· + n)) (placeholder start cs) := by
  have place : start + n + 1 = start + 1 + n := Nat.add_right_comm _ _ _
  unfold placeholder
  rw [place, lexUntil_shift]
  rcases lexUntil isBrace (start + 1) cs with ⟨items, _ | ⟨⟨⟨token, source⟩, span⟩, rest⟩⟩
  · have length : start + 1 + n + byteLength cs = start + 1 + byteLength cs + n :=
      Nat.add_right_comm _ _ _
    dsimp only [Option.map_none]
    rw [length]
    rfl
  · dsimp only [Option.map_some]
    rw [pieces_relocate]
    cases pieces items with
    | error span => rfl
    | ok body =>
      cases token with
      | none => rfl
      | some token =>
        cases token with
        | braceClose =>
          cases body with
          | nil => rfl
          | cons piece others =>
            have parsed : Grammar.parse (span.relocate (· + n)).start
                ((piece :: others).map (Piece.relocate (· + n))) =
                  relocated (· + n) (Expr.relocate (· + n))
                    (Grammar.parse span.start (piece :: others)) :=
              Grammar.run_relocate (· + n) span.start span.start .initial (piece :: others)
            simp only [Except.map, Except.mapError, Located.relocate, List.map_cons,
              List.isEmpty_cons, Bool.false_eq_true, if_false] at parsed ⊢
            rw [parsed]
            cases Grammar.parse span.start (piece :: others) <;> rfl
        | _ => rfl

theorem consText_relocate (f : Nat → Nat) (text : String) (span : Span) (found : List Element) :
    (consText text span found).map (Element.relocate f) =
      consText text (span.relocate f) (found.map (Element.relocate f)) := by
  match found with
  | [] => rfl
  | .text _ _ :: _ => rfl
  | .placeholder _ _ :: _ => rfl

/-- A text that stands further behind is read as if it stood by itself. -/
theorem elements_shift (n offset : Nat) (cs : List Char) :
    elements (offset + n) cs =
      relocated (· + n) (List.map (Element.relocate (· + n))) (elements offset cs) := by
  induction offset, cs using text_induction with
  | nil offset =>
    rw [elements_nil, elements_nil]
    rfl
  | double offset c rest brace ih =>
    rw [elements_double brace, elements_double brace, Nat.add_right_comm, ih]
    cases elements (offset + 2) rest with
    | error e => rfl
    | ok found =>
      exact congrArg Except.ok
        (consText_relocate (· + n) (String.singleton c) ⟨offset, offset + 2⟩ found).symm
  | unmatched offset rest single =>
    rw [elements_unmatched single, elements_unmatched single, Nat.add_right_comm]
    rfl
  | placeholder offset rest single ih =>
    rw [elements_placeholder single, elements_placeholder single, placeholder_shift]
    cases read : placeholder offset rest with
    | error e => rfl
    | ok p =>
      have others := ih p read
      simp only [relocated, Except.map, Except.mapError, Except.bind, Placeholder.relocate]
        at others ⊢
      rw [others]
      cases elements p.stop p.rest <;> rfl
  | plain offset c rest plain ih =>
    rw [elements_plain plain, elements_plain plain, Nat.add_right_comm, ih]
    cases elements (offset + c.utf8Size) rest with
    | error e => rfl
    | ok found =>
      exact congrArg Except.ok
        (consText_relocate (· + n) (String.singleton c) ⟨offset, offset + c.utf8Size⟩ found).symm

end Reader

end TypedTemplate
