import Mathlib.Data.List.Nodup
import TypedTemplate.Proofs.Template.Acceptance

/-!
What can still become a body. The machine takes a token exactly if the grammar derives a body
that begins with the tokens up to this one: each state that it reaches is sound
(`State.IsSound`), and from a sound state a body can be completed (`State.IsSound.exists_read`).
So the first token that it refuses is the first impossible one, and the punctuation that a sound
state expects is the punctuation that can follow (`isFault_of_parse`).
-/
namespace TypedTemplate

namespace Grammar

/-! ## Sound states -/

/-- Whether the place of a state fits what is around it: arguments stand in argument lists, and
behind a call there is one. -/
def State.IsSound (s : State) : Prop :=
  match s.place with
  | .armStart | .segment _ _ => True
  | .argStart | .valueStart | .valued _ _ => s.opened ≠ []
  | .named tokens _ mayLabel => mayLabel = true → s.opened ≠ [] ∧ tokens ≠ []
  | .called => s.level.chain.isSome = true

theorem isSound_initial : State.initial.IsSound := trivial

section

variable {level : Level} {opened : List Open} {piece : Piece} {next : State}

theorem isSound_afterCall (taken : afterCall level opened piece = some next) : next.IsSound := by
  obtain ⟨token, span, raw⟩ := piece
  cases token with
  | ident text =>
    obtain rfl := Option.some.inj taken
    exact nofun
  | pipe =>
    obtain ⟨chain, -, rfl⟩ := Option.map_eq_some_iff.mp taken
    exact trivial
  | comma | parenClose =>
    cases opened with
    | nil => cases taken
    | cons o around =>
      obtain ⟨expr, -, taken⟩ := Option.bind_eq_some_iff.mp taken
      obtain ⟨last, -, taken⟩ := Option.bind_eq_some_iff.mp taken
      obtain rfl := Option.some.inj taken
      first | exact List.cons_ne_nil _ _ | rfl
  | _ => cases opened <;> cases taken

theorem isSound_afterName {tokens : List String} {place : Span} {mayLabel : Bool}
    (taken : afterName tokens place mayLabel level opened piece = some next) : next.IsSound := by
  have behind := @isSound_afterCall (level.push (.bare ⟨tokens⟩ place)) opened piece next
  obtain ⟨token, span, raw⟩ := piece
  cases token with
  | colon =>
    obtain rfl := Option.some.inj taken
    exact trivial
  | parenOpen =>
    obtain rfl := Option.some.inj taken
    exact List.cons_ne_nil _ _
  | equals =>
    cases opened with
    | nil => cases taken
    | cons o around =>
      cases mayLabel with
      | false => cases taken
      | true =>
        obtain ⟨label, -, rfl⟩ := Option.map_eq_some_iff.mp taken
        exact List.cons_ne_nil _ _
  | _ => exact behind taken

theorem isSound_afterLiteral {literal : Literal} {place : Span}
    (taken : afterLiteral literal place opened piece = some next) : next.IsSound := by
  obtain ⟨token, span, raw⟩ := piece
  cases opened with
  | nil => cases token <;> cases taken
  | cons o around =>
    cases token with
    | comma =>
      obtain rfl := Option.some.inj taken
      exact List.cons_ne_nil _ _
    | parenClose =>
      obtain rfl := Option.some.inj taken
      rfl
    | _ => cases taken

theorem isSound_startArg (taken : startArg opened piece = some next) : next.IsSound := by
  obtain ⟨token, span, raw⟩ := piece
  cases opened with
  | nil => cases taken
  | cons o around =>
    cases token with
    | ident text =>
      obtain rfl := Option.some.inj taken
      exact fun _ => ⟨List.cons_ne_nil _ _, List.cons_ne_nil _ _⟩
    | parenClose =>
      obtain rfl := Option.some.inj taken
      rfl
    | yes | no | number | text =>
      obtain rfl := Option.some.inj taken
      exact List.cons_ne_nil _ _
    | _ => cases taken

end

theorem State.IsSound.advance {s next : State} {piece : Piece} (sound : s.IsSound)
    (taken : s.advance piece = some next) : next.IsSound := by
  obtain ⟨place, level, opened⟩ := s
  cases place with
  | argStart => exact isSound_startArg taken
  | named tokens span mayLabel => exact isSound_afterName taken
  | called => exact isSound_afterCall taken
  | valued literal span => exact isSound_afterLiteral taken
  | armStart | segment =>
    obtain ⟨token, span, raw⟩ := piece
    cases token with
    | ident text =>
      obtain rfl := Option.some.inj taken
      exact nofun
    | _ => cases taken
  | valueStart =>
    obtain ⟨token, span, raw⟩ := piece
    cases token with
    | ident text =>
      obtain rfl := Option.some.inj taken
      exact nofun
    | yes | no | number | text =>
      obtain rfl := Option.some.inj taken
      exact sound
    | _ => cases taken

/-- The state that pieces lead to, if all of them are taken. -/
def State.advanceAll (s : State) (pieces : List Piece) : Option State :=
  pieces.foldlM State.advance s

theorem State.advanceAll_cons (s : State) (piece : Piece) (rest : List Piece) :
    s.advanceAll (piece :: rest) = (s.advance piece).bind fun next => next.advanceAll rest :=
  List.foldlM_cons

theorem State.advanceAll_append (s : State) (front rest : List Piece) :
    s.advanceAll (front ++ rest) = (s.advanceAll front).bind fun next => next.advanceAll rest :=
  List.foldlM_append

theorem State.IsSound.advanceAll {s next : State} {pieces : List Piece} (sound : s.IsSound)
    (taken : s.advanceAll pieces = some next) : next.IsSound := by
  induction pieces generalizing s with
  | nil => exact Option.some.inj taken ▸ sound
  | cons piece rest ih =>
    rw [State.advanceAll_cons] at taken
    obtain ⟨between, first, later⟩ := Option.bind_eq_some_iff.mp taken
    exact ih (sound.advance first) later

/-! ## Completion -/

theorem isSome_chain_push (level : Level) (call : Call) :
    (level.push call).chain.isSome = true := rfl

/-- Behind a call, closing parentheses and then the end complete a body. -/
theorem State.IsBehind.exists_read {level : Level} {opened : List Open} {s : State}
    (stands : s.IsBehind level opened) (called : level.chain.isSome = true) :
    ∃ rest expr, read s rest = some expr := by
  obtain ⟨last, chain⟩ := Option.isSome_iff_exists.mp called
  have spelled : ∃ expr, level.toExpr? = some expr := by simp [Level.toExpr?, chain]
  obtain ⟨expr, spelled⟩ := spelled
  induction opened generalizing level s last expr with
  | nil => exact ⟨[], expr, stands.finish.trans spelled⟩
  | cons o around ih =>
    have past := stands.isPastArg spelled chain
    obtain ⟨rest, whole, complete⟩ :=
      @ih ((o.finish (.expr expr) last.last.span.stop).close 0) _ .called rfl _ rfl _ rfl
    refine ⟨⟨.parenClose, ⟨0, 0⟩, ""⟩ :: rest, whole, ?_⟩
    rw [read_cons, past.close]
    exact complete

theorem State.IsSound.exists_read {s : State} (sound : s.IsSound) :
    ∃ rest expr, read s rest = some expr := by
  -- One piece more leads behind a call, unless the state is there already.
  have step {piece : Piece} {next : State} {level : Level} {opened : List Open}
      (taken : s.advance piece = some next) (stands : next.IsBehind level opened)
      (called : level.chain.isSome = true) : ∃ rest expr, read s rest = some expr := by
    obtain ⟨rest, expr, complete⟩ := stands.exists_read called
    exact ⟨piece :: rest, expr, by rw [read_cons, taken]; exact complete⟩
  obtain ⟨place, level, opened⟩ := s
  cases place with
  | armStart | segment | valueStart =>
    exact @step ⟨.ident "x", ⟨0, 0⟩, ""⟩ _ _ _ rfl (.named false rfl) rfl
  | named tokens span mayLabel =>
    exact State.IsBehind.exists_read (.named mayLabel rfl) (isSome_chain_push _ _)
  | called => exact State.IsBehind.exists_read .called sound
  | argStart | valued =>
    cases opened with
    | nil => exact absurd rfl sound
    | cons o around => exact @step ⟨.parenClose, ⟨0, 0⟩, ""⟩ _ _ _ rfl .called rfl

/-! ## Viable beginnings -/

/-- Whether some body begins with these pieces. -/
def IsViable (front : List Piece) : Prop :=
  ∃ (tree : ExprTree) (rest : List Piece), tree.pieces = front ++ rest

theorem isViable_iff {front : List Piece} :
    IsViable front ↔ (State.initial.advanceAll front).isSome = true := by
  constructor
  · rintro ⟨tree, rest, split⟩
    have spelled := read_pieces tree
    rw [split, read, ← State.advanceAll, State.advanceAll_append] at spelled
    obtain ⟨last, taken, -⟩ := Option.bind_eq_some_iff.mp spelled
    obtain ⟨next, first, -⟩ := Option.bind_eq_some_iff.mp taken
    rw [first]
    rfl
  · intro taken
    obtain ⟨next, taken⟩ := Option.isSome_iff_exists.mp taken
    obtain ⟨rest, expr, complete⟩ := (isSound_initial.advanceAll taken).exists_read
    have whole : read .initial (front ++ rest) = some expr := by
      rw [read, ← State.advanceAll, State.advanceAll_append, taken]
      exact complete
    obtain ⟨tree, spells⟩ := derives_of_parse (run_of_read whole 0 0)
    exact ⟨tree, rest, spells⟩

/-- Pieces can be all of a body exactly if the machine can finish behind them. -/
theorem derives_iff {front : List Piece} {s : State}
    (taken : State.initial.advanceAll front = some s) :
    (∃ tree : ExprTree, tree.pieces = front) ↔ s.finish.isSome = true := by
  have whole : read .initial front = s.finish := by
    rw [read, ← State.advanceAll, taken]
    rfl
  constructor
  · rintro ⟨tree, rfl⟩
    rw [← whole, read_pieces]
    rfl
  · intro finished
    obtain ⟨expr, finished⟩ := Option.isSome_iff_exists.mp finished
    exact derives_of_parse (run_of_read (whole.trans finished) 0 0)

/-! ## Expectations -/

end Grammar

/-- The mark that is expected, unless it is the end. -/
def Expectation.token? : Expectation → Option Token
  | .equals => some .equals
  | .colon => some .colon
  | .parenOpen => some .parenOpen
  | .pipe => some .pipe
  | .comma => some .comma
  | .parenClose => some .parenClose
  | .endOfPlaceholder => none

namespace Grammar

theorem mem_expectedAfterCall {level : Level} (called : level.chain.isSome = true)
    (opened : List Open) {x : Expectation} {token : Token} (mark : x.token? = some token)
    (span : Span) (raw : String) :
    x ∈ expectedAfterCall opened ↔ (afterCall level opened ⟨token, span, raw⟩).isSome = true := by
  obtain ⟨last, chain⟩ := Option.isSome_iff_exists.mp called
  have spelled : ∃ expr, level.toExpr? = some expr := by simp [Level.toExpr?, chain]
  obtain ⟨expr, spelled⟩ := spelled
  cases x <;> cases mark <;> cases opened <;>
    simp [expectedAfterCall, afterCall, chain, spelled]

theorem State.IsSound.mem_expected {s : State} (sound : s.IsSound) {x : Expectation}
    {token : Token} (mark : x.token? = some token) (span : Span) (raw : String) :
    x ∈ s.expected ↔ (s.advance ⟨token, span, raw⟩).isSome = true := by
  obtain ⟨place, level, opened⟩ := s
  cases place with
  | armStart | segment | valueStart =>
    cases x <;> cases mark <;> simp [expected, State.advance, literal?]
  | argStart | valued =>
    cases opened with
    | nil => exact absurd rfl sound
    | cons o around =>
      cases x <;> cases mark <;> simp [expected, State.advance, startArg, afterLiteral, literal?]
  | called => exact mem_expectedAfterCall sound opened mark span raw
  | named tokens place mayLabel =>
    have behind := mem_expectedAfterCall (isSome_chain_push level (.bare ⟨tokens⟩ place)) opened
      mark span raw
    cases x with
    | colon | parenOpen =>
      cases mark
      simp [expected, State.advance, afterName]
    | equals =>
      cases mark
      cases mayLabel with
      | false =>
        cases opened <;> simp [expected, expectedAfterCall, State.advance, afterName, afterCall]
      | true =>
        obtain ⟨inList, nonempty⟩ := sound rfl
        obtain ⟨o, around, rfl⟩ := List.exists_cons_of_ne_nil inList
        obtain ⟨first, more, rfl⟩ := List.exists_cons_of_ne_nil nonempty
        simp [expected, State.advance, afterName]
    | pipe | comma | parenClose =>
      cases mark
      cases mayLabel <;> simpa [expected, State.advance, afterName] using behind
    | endOfPlaceholder => cases mark

theorem State.IsSound.end_mem_expected {s : State} (sound : s.IsSound) :
    .endOfPlaceholder ∈ s.expected ↔ s.finish.isSome = true := by
  obtain ⟨place, level, opened⟩ := s
  cases place with
  | called =>
    have called : level.chain.isSome = true := sound
    cases opened <;> simp [expected, expectedAfterCall, finish, Level.toExpr?, called]
  | named tokens place mayLabel =>
    cases opened <;> cases mayLabel <;>
      simp [expected, expectedAfterCall, finish, Level.toExpr?, Level.push]
  | _ => cases opened <;> simp [expected, finish]

theorem State.nodup_expected (s : State) : s.expected.Nodup := by
  obtain ⟨place, level, opened⟩ := s
  cases place with
  | named tokens place mayLabel =>
    cases opened <;> cases mayLabel <;> simp [expected, expectedAfterCall]
  | _ => cases opened <;> simp [expected, expectedAfterCall]

/-! ## Faults -/

/-- How the machine fails on the pieces of a body: at a piece that it refuses, or at the end. -/
inductive Fails (close last : Nat) (s : State) (pieces : List Piece) : SyntaxError → Prop
  | piece {front rest : List Piece} {piece : Piece} {reached : State}
      (split : pieces = front ++ piece :: rest) (taken : s.advanceAll front = some reached)
      (refused : reached.advance piece = none) :
      Fails close last s pieces ⟨.unexpected (some piece.token) reached.expected, piece.span⟩
  | finish {reached : State} (taken : s.advanceAll pieces = some reached)
      (refused : reached.finish = none) :
      Fails close last s pieces
        ⟨.unexpected none reached.expected,
          ⟨close, pieces.foldl (fun _ piece => piece.span.stop) last⟩⟩

theorem fails_of_run {close last : Nat} {s : State} {pieces : List Piece} {e : SyntaxError}
    (failed : run close last s pieces = .error e) : Fails close last s pieces e := by
  induction pieces generalizing s last with
  | nil =>
    rw [run] at failed
    split at failed
    · cases failed
    · rename_i refused
      cases failed
      exact .finish rfl refused
  | cons piece rest ih =>
    rw [run] at failed
    split at failed
    · rename_i next taken
      cases ih failed with
      | piece split onward refused =>
        exact .piece (congrArg (piece :: ·) split)
          (by rw [State.advanceAll_cons, taken]; exact onward) refused
      | finish onward refused =>
        exact .finish (by rw [State.advanceAll_cons, taken]; exact onward) refused
    · rename_i refused
      cases failed
      exact .piece (List.nil_append _).symm rfl refused

/-- The punctuation that an error message may name. -/
def marks : List Token := [.equals, .colon, .parenOpen, .parenClose, .comma, .pipe]

theorem exists_expectation {token : Token} (punctuation : token ∈ marks) :
    ∃ x : Expectation, x.token? = some token ∧ x.describe = token.describe := by
  simp only [marks, List.mem_cons, List.not_mem_nil, or_false] at punctuation
  rcases punctuation with rfl | rfl | rfl | rfl | rfl | rfl
  · exact ⟨.equals, rfl, rfl⟩
  · exact ⟨.colon, rfl, rfl⟩
  · exact ⟨.parenOpen, rfl, rfl⟩
  · exact ⟨.parenClose, rfl, rfl⟩
  · exact ⟨.comma, rfl, rfl⟩
  · exact ⟨.pipe, rfl, rfl⟩

/-- Whether a body is in error behind its beginning `front`: this much is the beginning of some
body, but not with the next piece, and it is no body itself if there is none. What is expected is
all punctuation that can go on with the beginning, and the end if the beginning is a body. -/
structure IsFault (close : Nat) (body front : List Piece) (e : SyntaxError) : Prop where
  viable : IsViable front
  place : (∃ piece rest, body = front ++ piece :: rest ∧ ¬ IsViable (front ++ [piece]) ∧
    e.span = piece.span) ∨ (body = front ∧ e.span.start = close)
  once : e.diagnostic.expected.Nodup
  expected : ∀ (mark : Mark) (text : String), text ∈ e.diagnostic.expected ↔
    (∃ token ∈ marks, text = token.describe ∧ IsViable (front ++ [mark.piece token])) ∨
      (text = "`\x7d`" ∧ ∃ tree : ExprTree, tree.pieces = front)

theorem isViable_append_singleton {front : List Piece} {s : State}
    (taken : State.initial.advanceAll front = some s) (piece : Piece) :
    IsViable (front ++ [piece]) ↔ (s.advance piece).isSome = true := by
  have single : s.advanceAll [piece] = s.advance piece := by
    rw [State.advanceAll_cons]
    exact Option.bind_fun_some _
  rw [isViable_iff, State.advanceAll_append, taken, Option.bind_some, single]

theorem mem_expected_describe {front : List Piece} {s : State}
    (taken : State.initial.advanceAll front = some s) (mark : Mark) (text : String) :
    text ∈ s.expected.map Expectation.describe ↔
      (∃ token ∈ marks, text = token.describe ∧ IsViable (front ++ [mark.piece token])) ∨
        (text = "`\x7d`" ∧ ∃ tree : ExprTree, tree.pieces = front) := by
  have sound := isSound_initial.advanceAll taken
  have follows {x : Expectation} {token : Token} (same : x.token? = some token) :
      x ∈ s.expected ↔ IsViable (front ++ [mark.piece token]) := by
    rw [isViable_append_singleton taken]
    exact sound.mem_expected same mark.span mark.raw
  have ends : .endOfPlaceholder ∈ s.expected ↔ ∃ tree : ExprTree, tree.pieces = front := by
    rw [derives_iff taken]
    exact sound.end_mem_expected
  constructor
  · intro member
    obtain ⟨x, expected, rfl⟩ := List.mem_map.mp member
    cases x with
    | endOfPlaceholder => exact .inr ⟨rfl, ends.mp expected⟩
    | _ => exact .inl ⟨_, by simp [marks], rfl, (follows rfl).mp expected⟩
  · rintro (⟨token, punctuation, rfl, viable⟩ | ⟨rfl, derived⟩)
    · obtain ⟨x, same, described⟩ := exists_expectation punctuation
      exact List.mem_map.mpr ⟨x, (follows same).mpr viable, described⟩
    · exact List.mem_map.mpr ⟨.endOfPlaceholder, ends.mpr derived, rfl⟩

theorem describe_injective : Function.Injective Expectation.describe := by
  intro x y same
  cases x <;> cases y <;> first | rfl | (revert same; decide)

/-- A body that is not accepted is in error where it stops to be the beginning of one. -/
theorem isFault_of_parse {close : Nat} {body : List Piece} {e : SyntaxError}
    (failed : parse close body = .error e) : ∃ front, IsFault close body front e := by
  cases fails_of_run failed with
  | @piece front rest piece reached split taken refused =>
    refine ⟨front, isViable_iff.mpr (by rw [taken]; rfl), .inl ⟨piece, rest, split, ?_, rfl⟩,
      List.Nodup.map describe_injective reached.nodup_expected, mem_expected_describe taken⟩
    rw [isViable_append_singleton taken, refused]
    exact Bool.false_ne_true
  | @finish reached taken refused =>
    exact ⟨body, isViable_iff.mpr (by rw [taken]; rfl), .inr ⟨rfl, rfl⟩,
      List.Nodup.map describe_injective reached.nodup_expected, mem_expected_describe taken⟩

end Grammar

end TypedTemplate
