import TypedTemplate.Proofs.Template.Printing
import TypedTemplate.Proofs.Template.Relocation

/-!
The grammar does not look at places. Erasing them is moving everything to one place, so erasing
them from the pieces of a body erases them from the expression that the machine reads, and changes
nothing else.
-/
namespace TypedTemplate

def Piece.erase (piece : Piece) : Piece := { piece with span := .none }

namespace Grammar

def Level.erase (level : Level) : Level := ⟨level.arms.map Chain.erase, level.chain.map Chain.erase⟩

def Open.erase (o : Open) : Open :=
  ⟨o.outer.erase, o.name, 0, o.done.map Arg.erase, o.label, 0⟩

def Place.erase : Place → Place
  | .armStart => .armStart
  | .argStart => .argStart
  | .valueStart => .valueStart
  | .segment tokens _ => .segment tokens 0
  | .named tokens _ mayLabel => .named tokens .none mayLabel
  | .called => .called
  | .valued literal _ => .valued literal .none

def State.erase (s : State) : State := ⟨s.place.erase, s.level.erase, s.opened.map Open.erase⟩

end Grammar

/-! ## Erasing as moving -/

mutual

theorem Call.relocate_zero (call : Call) : call.relocate (fun _ => 0) = call.erase := by
  cases call with
  | bare name span => rfl
  | applied name args span =>
    rw [Call.relocate, args.relocate_zero, Call.erase]
    rfl

theorem Args.relocate_zero (args : Args) : args.relocate (fun _ => 0) = args.erase := by
  cases args with
  | nil => rfl
  | cons arg rest => rw [Args.relocate, arg.relocate_zero, rest.relocate_zero, Args.erase]

theorem Arg.relocate_zero (arg : Arg) : arg.relocate (fun _ => 0) = arg.erase := by
  cases arg with
  | mk label value span =>
    rw [Arg.relocate, value.relocate_zero, Arg.erase]
    rfl

theorem ArgValue.relocate_zero (value : ArgValue) :
    value.relocate (fun _ => 0) = value.erase := by
  cases value with
  | literal literal => rfl
  | expr expr => rw [ArgValue.relocate, expr.relocate_zero, ArgValue.erase]

theorem Chain.relocate_zero (chain : Chain) : chain.relocate (fun _ => 0) = chain.erase := by
  cases chain with
  | first call => rw [Chain.relocate, call.relocate_zero, Chain.erase]
  | next parent call =>
    rw [Chain.relocate, parent.relocate_zero, call.relocate_zero, Chain.erase]

theorem Expr.relocate_zero (expr : Expr) : expr.relocate (fun _ => 0) = expr.erase := by
  cases expr with
  | arm main => rw [Expr.relocate, main.relocate_zero, Expr.erase]
  | orElse main others =>
    rw [Expr.relocate, main.relocate_zero, others.relocate_zero, Expr.erase]

end

namespace Grammar

theorem Level.relocate_zero (level : Level) : level.relocate (fun _ => 0) = level.erase := by
  rw [Level.relocate, Level.erase, funext Chain.relocate_zero]

theorem Open.relocate_zero (o : Open) : o.relocate (fun _ => 0) = o.erase := by
  rw [Open.relocate, Open.erase, Level.relocate_zero, funext Arg.relocate_zero]

theorem State.relocate_zero (s : State) : s.relocate (fun _ => 0) = s.erase := by
  rw [State.relocate, State.erase, Level.relocate_zero, funext Open.relocate_zero]
  obtain ⟨place, level, opened⟩ := s
  cases place <;> rfl

theorem last_erase (chain : Chain) : chain.erase.last = chain.last.erase := by
  cases chain <;> rfl

theorem call_span_erase (call : Call) : call.erase.span = .none := by
  cases call <;> rfl

/-! ## Bodies -/

/-- The expression that pieces spell from a state on, if they spell one. -/
def read (s : State) (pieces : List Piece) : Option Expr :=
  (pieces.foldlM State.advance s).bind State.finish

theorem read_cons (s : State) (piece : Piece) (rest : List Piece) :
    read s (piece :: rest) = (s.advance piece).bind fun next => read next rest := by
  rw [read, List.foldlM_cons]
  exact Option.bind_assoc _ _ _

theorem read_relocate (f : Nat → Nat) (s : State) (pieces : List Piece) :
    read (s.relocate f) (pieces.map (Piece.relocate f)) =
      (read s pieces).map (Expr.relocate f) := by
  induction pieces generalizing s with
  | nil => exact finish_relocate f s
  | cons piece rest ih =>
    rw [List.map_cons, read_cons, read_cons, advance_relocate]
    cases s.advance piece with
    | none => rfl
    | some next => exact ih next

theorem read_erase (s : State) (pieces : List Piece) :
    read s.erase (pieces.map Piece.erase) = (read s pieces).map Expr.erase := by
  have moved := read_relocate (fun _ => 0) s pieces
  rw [State.relocate_zero, funext Expr.relocate_zero] at moved
  exact moved

theorem run_of_read {s : State} {pieces : List Piece} {expr : Expr}
    (spelled : read s pieces = some expr) (close last : Nat) :
    run close last s pieces = .ok expr := by
  induction pieces generalizing s last with
  | nil =>
    have finished : s.finish = some expr := spelled
    rw [run, finished]
  | cons piece rest ih =>
    rw [read_cons] at spelled
    rw [run]
    cases advanced : s.advance piece with
    | none =>
      rw [advanced] at spelled
      cases spelled
    | some next =>
      rw [advanced] at spelled
      exact ih spelled piece.span.stop

end Grammar

end TypedTemplate
