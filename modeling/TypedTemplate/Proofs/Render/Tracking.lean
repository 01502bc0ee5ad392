import TypedTemplate.Proofs.Render.StepResult
import TypedTemplate.Proofs.World
import TypedTemplate.Render.WatchChain

/-!
What keeps a chain from losing an update. A cell that has a slot either holds the slot
that its step would leave now, or its feed has a signal waiting (`Cell.Tracks`). The
world cannot break this, because it signals what it changes; consumers cannot, because
taking the signal of a cell drops the slots from this cell on. The slots before it were
computed at other times, but each is still right for its own input.
-/
namespace TypedTemplate

variable {W : Type}

namespace Cell

/-- Whether a signal is waiting for the cell. -/
def Signalled (host : Host W) (cell : Cell W) : Prop :=
  ∃ id feed, cell.feed = some id ∧ host.feed? id = some feed ∧ feed.cancelled = false ∧
    0 < feed.queued

/-- Whether the mapping has been watched for these inputs, and either the cell still
holds the feed or nothing more can come of it. -/
def Watches (host : Host W) (mapping : Mapping W) (receiver : Value) (args : Arguments)
    (cell : Cell W) : Prop :=
  ∃ id feed, .subscribe mapping receiver args id ∈ host.calls ∧ host.feed? id = some feed ∧
    (feed.ended = true ∨ (cell.feed = some id ∧ feed.cancelled = false))

/-- The slot is right for the input unless a signal is waiting, and no change of a result
that it depends on will go unnoticed. -/
structure Tracks (host : Host W) (input slot : Slot) (cell : Cell W) : Prop where
  fresh : slot = cell.step.result host.state input ∨ cell.Signalled host
  watches : ∀ {mapping receiver args}, cell.step.Applies mapping receiver args input →
    mapping.isMutable = true → cell.Watches host mapping receiver args

/-- A cell whose step has not been taken, or has been invalidated. -/
def IsBlank (cell : Cell W) : Prop := cell.slot = none ∧ cell.feed = none

namespace Tracks

variable {host after : Host W} {input slot : Slot} {cell : Cell W}

/-- Operations on other feeds leave the cell as it is. -/
theorem leaves {touched : List FeedId} (tracks : cell.Tracks host input slot)
    (kept : Host.Leaves touched host after) (apart : ∀ id, cell.feed = some id → id ∉ touched) :
    cell.Tracks after input slot := by
  constructor
  · rcases tracks.fresh with fresh | ⟨id, feed, held, found, alive, waiting⟩
    · left
      rw [kept.state]
      exact fresh
    · exact .inr ⟨id, feed, held, kept.same found (apart id held), alive, waiting⟩
  · intro mapping receiver args applied mutable
    obtain ⟨id, feed, call, found, ended | ⟨held, alive⟩⟩ := tracks.watches applied mutable
    · obtain ⟨later, found, ended⟩ := kept.ended found ended
      exact ⟨id, later, kept.calls _ call, found, .inl ended⟩
    · exact ⟨id, feed, kept.calls _ call, kept.same found (apart id held), .inr ⟨held, alive⟩⟩

/-- The world signals what it changes. -/
theorem evolves (tracks : cell.Tracks host input slot) (steady : cell.step.IsSteady)
    (moved : host.Evolves after) : cell.Tracks after input slot := by
  constructor
  · rcases tracks.fresh with fresh | ⟨id, feed, held, found, alive, waiting⟩
    · rcases Step.result_cases steady input host.state after.state with
        same | ⟨mapping, receiver, args, applied, mutable, changed⟩
      · left
        rw [same]
        exact fresh
      · obtain ⟨id, feed, call, found, ended | ⟨held, alive⟩⟩ := tracks.watches applied mutable
        · exact absurd (moved.settled call found ended) changed
        · obtain ⟨later, laterFound, grows⟩ := moved.feeds found
          cases ended : feed.ended with
          | true => exact absurd (moved.settled call found ended) changed
          | false =>
            have isOpen : feed.isOpen = true := by simp [Feed.isOpen, alive, ended]
            have signalled := moved.signals call found isOpen changed laterFound
            exact .inr ⟨id, later, held, laterFound, grows.cancelled.trans alive, by omega⟩
    · obtain ⟨later, laterFound, grows⟩ := moved.feeds found
      exact .inr ⟨id, later, held, laterFound, grows.cancelled.trans alive,
        Nat.lt_of_lt_of_le waiting grows.queued⟩
  · intro mapping receiver args applied mutable
    obtain ⟨id, feed, call, found, known⟩ := tracks.watches applied mutable
    obtain ⟨later, laterFound, grows⟩ := moved.feeds found
    refine ⟨id, later, moved.calls _ call, laterFound, ?_⟩
    rcases known with ended | ⟨held, alive⟩
    · exact .inl (grows.ended ended)
    · exact .inr ⟨held, grows.cancelled.trans alive⟩

/-- A feed that has ended can be given up: nothing was waiting in it, and the result has
settled. -/
theorem forget {id : FeedId} (tracks : cell.Tracks host input slot) (held : cell.feed = some id)
    (done : ∀ feed, host.feed? id = some feed →
      feed.cancelled = true ∨ (feed.queued = 0 ∧ feed.ended = true)) :
    Tracks host input slot { cell with feed := none } := by
  constructor
  · rcases tracks.fresh with fresh | ⟨other, feed, holds, found, alive, waiting⟩
    · exact .inl fresh
    · rw [held] at holds
      cases holds
      rcases done feed found with cancelled | ⟨empty, -⟩
      · simp [alive] at cancelled
      · omega
  · intro mapping receiver args applied mutable
    obtain ⟨other, feed, call, found, known⟩ := tracks.watches applied mutable
    refine ⟨other, feed, call, found, .inl ?_⟩
    rcases known with ended | ⟨holds, alive⟩
    · exact ended
    · rw [held] at holds
      cases holds
      rcases done feed found with cancelled | ⟨-, ended⟩
      · simp [alive] at cancelled
      · exact ended

end Tracks

/-- A blank cell takes its step in the present state of the world. -/
theorem IsBlank.compute_eq {cell : Cell W} (blank : cell.IsBlank) (host : Host W) (input : Slot) :
    cell.compute host input =
      (let ran := cell.step.run true host input
       (ran.slot, { cell with slot := some ran.slot, feed := ran.feed }, ran.host)) := by
  obtain ⟨empty, unwatched⟩ := blank
  simp [compute, empty, release, unwatched]

theorem IsBlank.tracks_compute (cell : Cell W) (host : Host W) (input : Slot) :
    Tracks (cell.step.run true host input).host input (cell.step.run true host input).slot
      { cell with slot := some (cell.step.run true host input).slot,
                  feed := (cell.step.run true host input).feed } := by
  constructor
  · left
    rw [(cell.step.run_host true host input).state]
    exact cell.step.run_slot true host input
  · intro mapping receiver args applied mutable
    obtain ⟨id, feed, started, call, found, alive⟩ := Step.run_subscribes applied mutable
    exact ⟨id, feed, call, found, .inr ⟨started, alive⟩⟩

end Cell

/-! ## Chains -/

/-- The feeds that some cells hold. -/
def cellFeeds (cells : List (Cell W)) : List FeedId := cells.filterMap fun cell => cell.feed

/-- The program that some cells were made for. -/
def cellProgram (cells : List (Cell W)) : List (Instruction W) :=
  cells.map fun cell => cell.toInstruction

/-- Cells after a pull: those up to the end of the first arm with a text, or all of them,
have tracked slots, and the text is that of the last slot. -/
inductive Pulled (host : Host W) : Slot → List (Cell W) → String → Prop
  | done {input : Slot} : Pulled host input [] input.textOrEmpty
  | stop {input slot : Slot} {cell : Cell W} {rest : List (Cell W)}
      (computed : cell.slot = some slot)
      (tracks : cell.Tracks host input slot) (stops : cell.stopsAt slot = true)
      (blank : ∀ later ∈ rest, later.IsBlank) :
      Pulled host input (cell :: rest) slot.textOrEmpty
  | next {input slot : Slot} {cell : Cell W} {rest : List (Cell W)} {text : String}
      (computed : cell.slot = some slot) (tracks : cell.Tracks host input slot)
      (goes : cell.stopsAt slot = false) (pulled : Pulled host slot rest text) :
      Pulled host input (cell :: rest) text

/-- Cells before a pull: a beginning has tracked slots and the others are blank. -/
inductive Resumable (host : Host W) : Slot → List (Cell W) → Prop
  | blank {input : Slot} {cells : List (Cell W)} (blank : ∀ cell ∈ cells, cell.IsBlank) :
      Resumable host input cells
  | next {input slot : Slot} {cell : Cell W} {rest : List (Cell W)}
      (computed : cell.slot = some slot) (tracks : cell.Tracks host input slot)
      (goes : cell.stopsAt slot = false) (resumable : Resumable host slot rest) :
      Resumable host input (cell :: rest)

end TypedTemplate
