import TypedTemplate.Render.Once

/-!
Watching a program. A chain keeps the slot that each step left, together with the
change stream that the step started. When a stream signals, the slots from its step on
are dropped and their streams cancelled; the next pull takes those steps again.
-/
namespace TypedTemplate

variable {W : Type}

/-- An instruction with what it left when it was last taken. -/
structure Cell (W : Type) extends Instruction W where
  slot : Option Slot := none
  feed : Option FeedId := none

/-- A cancel hook of the change stream of a step has failed. -/
structure CancelError where
  step : Nat
  message : String
  deriving DecidableEq, Repr

def CancelError.toLine (e : CancelError) : String :=
  s!"failed to cancel change stream of step {e.step}: {e.message}"

structure WatchChain (W : Type) where
  cells : List (Cell W)

namespace Cell

def ofInstruction (instruction : Instruction W) : Cell W := { toInstruction := instruction }

def isComputed (cell : Cell W) : Bool := cell.slot.isSome

def isWatched (cell : Cell W) : Bool := cell.feed.isSome

/-- Gives up the change stream, if there is one. -/
def release (cell : Cell W) (host : Host W) : Host W :=
  match cell.feed with
  | none => host
  | some feed => host.drop feed

/-- Takes the step from a slot, unless what it left is still there. -/
def compute (cell : Cell W) (host : Host W) (input : Slot) : Slot × Cell W × Host W :=
  match cell.slot with
  | some slot => (slot, cell, host)
  | none =>
    let ran := cell.step.run true host input
    (ran.slot, { cell with slot := some ran.slot, feed := ran.feed }, cell.release ran.host)

/-- Drops what the step left and cancels its change stream. The failure of a hook is
reported with the number of the step. -/
def invalidate (cell : Cell W) (host : Host W) (step : Nat) :
    Option CancelError × Cell W × Host W :=
  let cleared := { cell with slot := none, feed := none }
  match cell.feed with
  | none => (none, cleared, host)
  | some feed =>
    match host.cancel feed with
    | (.ok (), host) => (none, cleared, host)
    | (.error message, host) => (some ⟨step, message⟩, cleared, host)

end Cell

namespace WatchChain

def empty : WatchChain W := ⟨[]⟩

/-- The chain of a program of which no step has been taken. -/
def ofProgram (program : List (Instruction W)) : WatchChain W :=
  ⟨program.map Cell.ofInstruction⟩

/-- The chain with one more step. -/
def append (chain : WatchChain W) (step : Step W) : WatchChain W :=
  ⟨chain.cells ++ [.ofInstruction (.plain step)]⟩

/-- Marks the last of some cells as the end of an arm. -/
def markLast : List (Cell W) → List (Cell W)
  | [] => []
  | [cell] => [{ cell with endsArm := true }]
  | cell :: rest => cell :: markLast rest

/-- Ends an arm with the last step. -/
def endArm (chain : WatchChain W) : WatchChain W := ⟨markLast chain.cells⟩

def size (chain : WatchChain W) : Nat := chain.cells.length

def isEmpty (chain : WatchChain W) : Bool := chain.cells.isEmpty

/-- How many steps have a change stream. -/
def watched (chain : WatchChain W) : Nat := chain.cells.countP Cell.isWatched

/-! ## Pulling -/

/-- Takes the missing steps, the first one from the slot `input`, up to the end of the
first arm with a text. -/
def pullCells (host : Host W) (input : Slot) : List (Cell W) → String × List (Cell W) × Host W
  | [] => (input.textOrEmpty, [], host)
  | cell :: rest =>
    let (slot, cell, host) := cell.compute host input
    if cell.stopsAt slot then (slot.textOrEmpty, cell :: rest, host)
    else
      let (text, rest, host) := pullCells host slot rest
      (text, cell :: rest, host)

/-- The text of the chain, after the missing steps have been taken. -/
def pull (chain : WatchChain W) (host : Host W) : String × WatchChain W × Host W :=
  let (text, cells, host) := pullCells host .initial chain.cells
  (text, ⟨cells⟩, host)

/-! ## Invalidating -/

/-- Invalidates all cells, the first of which has the number `step`. Every stream is
cancelled; of several failures the first is reported. -/
def invalidateCells (host : Host W) (step : Nat) :
    List (Cell W) → Option CancelError × List (Cell W) × Host W
  | [] => (none, [], host)
  | cell :: rest =>
    let (failure, cell, host) := cell.invalidate host step
    let (later, rest, host) := invalidateCells host (step + 1) rest
    (failure.or later, cell :: rest, host)

def toExcept : Option CancelError → Except CancelError Unit
  | none => .ok ()
  | some e => .error e

/-- Drops what the steps from a number on left, and cancels their streams. -/
def invalidateFrom (chain : WatchChain W) (host : Host W) (step : Nat) :
    Except CancelError Unit × WatchChain W × Host W :=
  let (failure, cells, host) := invalidateCells host step (chain.cells.drop step)
  (toExcept failure, ⟨chain.cells.take step ++ cells⟩, host)

/-- Cancels every stream. -/
def close (chain : WatchChain W) (host : Host W) :
    Except CancelError Unit × WatchChain W × Host W :=
  chain.invalidateFrom host 0

/-- Gives up every stream, whether or not hooks fail. -/
def drop (chain : WatchChain W) (host : Host W) : Host W :=
  chain.cells.foldl (fun host cell => cell.release host) host

/-! ## Waiting for changes -/

/-- What came of asking the change streams once: nothing, or that the stream of a step
has signalled and its step and those behind it are invalid. -/
inductive Change where
  | pending
  | changed (step : Nat)
  | failed (failure : CancelError)
  deriving DecidableEq, Repr

/-- The change at a step, after its hooks and those of later steps have run. -/
def Change.ofInvalidation (step : Nat) : Option CancelError → Change
  | none => changed step
  | some failure => failed failure

/-- Asks the streams in order until one has signalled. Streams that have ended are
given up; their steps stay valid. -/
def changedCells (host : Host W) (step : Nat) :
    List (Cell W) → Change × List (Cell W) × Host W
  | [] => (.pending, [], host)
  | cell :: rest =>
    let onward (cell : Cell W) (host : Host W) :=
      let (change, rest, host) := changedCells host (step + 1) rest
      (change, cell :: rest, host)
    match cell.feed with
    | none => onward cell host
    | some feed =>
      match host.poll feed with
      | (.pending, host) => onward cell host
      | (.ended, host) => onward { cell with feed := none } (host.drop feed)
      | (.signal, host) =>
        let (failure, cells, host) := invalidateCells host step (cell :: rest)
        (.ofInvalidation step failure, cells, host)

/-- Asks once for a change. -/
def changed (chain : WatchChain W) (host : Host W) : Change × WatchChain W × Host W :=
  let (change, cells, host) := changedCells host 0 chain.cells
  (change, ⟨cells⟩, host)

end WatchChain

end TypedTemplate
