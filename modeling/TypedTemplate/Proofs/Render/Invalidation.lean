import Mathlib.Data.List.Forall2
import Mathlib.Logic.Relation
import TypedTemplate.Proofs.Render.Custody

/-!
Invalidation is exact and recomputation minimal. In every state of a chain a beginning of the
steps is computed (`WatchChain.IsIntact`). Invalidating from a step on, by hand or because it
has signalled, clears this step and those behind it and nothing else (`IsCut`). The next pull
then takes steps from there on, each at most once and in order (`MakesFrom`), and the one after
it reads the slots again and calls nothing (`Stands`).
-/
namespace TypedTemplate

variable {W : Type}

open WatchChain

/-! ## The calls of a pull -/

/-- The calls that taking a step may make. -/
inductive Step.Makes : Step W → List (HostCall W) → Prop
  | nothing {step : Step W} : Makes step []
  | map {mapping : Mapping W} {receiver : Value} {args : Arguments} :
      Makes (.map mapping) [.map mapping receiver args]
  | watch {mapping : Mapping W} {receiver : Value} {args : Arguments} {feed : FeedId} :
      Makes (.map mapping) [.subscribe mapping receiver args feed, .map mapping receiver args]
  | display {shown : Display W} {value : Value} {viewer : Option Value} {marker : String} :
      Makes (.display shown viewer marker) [.display shown value viewer]

theorem Step.run_makes (step : Step W) (host : Host W) (input : Slot) :
    ∃ calls, step.Makes calls ∧ (step.run true host input).host.calls = host.calls ++ calls := by
  have nothing : ∃ calls, step.Makes calls ∧ host.calls = host.calls ++ calls :=
    ⟨[], .nothing, (List.append_nil _).symm⟩
  cases step with
  | map mapping =>
    unfold run
    cases input.stack with
    | nil => exact nothing
    | cons top rest =>
      simp only [applyTop, if_true]
      cases top.receiver with
      | none => exact nothing
      | some receiver =>
        cases watching : mapping.watch with
        | none =>
          refine ⟨[.map mapping receiver top.args], .map, ?_⟩
          simp only [Host.subscribe, watching]
          rfl
        | some watch =>
          refine ⟨[.subscribe mapping receiver top.args host.feeds.length,
            .map mapping receiver top.args], .watch, ?_⟩
          simp only [Host.subscribe, watching]
          exact List.append_assoc _ _ _
  | collect count =>
    unfold run
    cases input.stack <;> exact nothing
  | pop alternative =>
    unfold run
    rcases input.stack with _ | ⟨top, _ | ⟨parent, rest⟩⟩ <;> exact nothing
  | display shown viewer marker =>
    unfold run
    cases input.stack.getLast?.bind Frame.receiver with
    | none => exact nothing
    | some value => exact ⟨_, .display, rfl⟩
  | _ => exact nothing

/-- The calls between two records are made by the steps of some cells, those of each step
together and in the order of the cells. The first `count` steps make none. -/
def MakesFrom (count : Nat) (cells : List (Cell W)) (before after : List (HostCall W)) : Prop :=
  ∃ blocks, List.Forall₂ (fun cell calls => cell.step.Makes calls) cells blocks ∧
    (∀ calls ∈ blocks.take count, calls = []) ∧ after = before ++ blocks.flatten

namespace MakesFrom

variable {count : Nat} {cell : Cell W} {rest : List (Cell W)}
  {before middle after : List (HostCall W)}

theorem nothing (count : Nat) (cells : List (Cell W)) (before : List (HostCall W)) :
    MakesFrom count cells before before := by
  refine ⟨cells.map fun _ => [], ?_, fun calls member => ?_, by simp⟩
  · exact List.forall₂_map_right_iff.mpr (List.forall₂_same.mpr fun _ _ => .nothing)
  · obtain ⟨_, -, rfl⟩ := List.mem_map.mp (List.mem_of_mem_take member)
    rfl

theorem cons {calls : List (HostCall W)} (makes : cell.step.Makes calls)
    (later : MakesFrom 0 rest (before ++ calls) after) :
    MakesFrom 0 (cell :: rest) before after := by
  obtain ⟨blocks, all, -, rfl⟩ := later
  exact ⟨calls :: blocks, .cons makes all, nofun, by simp⟩

/-- A step in front that makes no call. -/
theorem skip (later : MakesFrom count rest before after) :
    MakesFrom (count + 1) (cell :: rest) before after := by
  obtain ⟨blocks, all, front, rfl⟩ := later
  refine ⟨[] :: blocks, .cons .nothing all, fun calls member => ?_, rfl⟩
  rcases List.mem_cons.mp member with rfl | member
  · rfl
  · exact front calls member

end MakesFrom

theorem makesFrom_pullCells_of_blank (host : Host W) (input : Slot) {cells : List (Cell W)}
    (blank : ∀ cell ∈ cells, cell.IsBlank) :
    MakesFrom 0 cells host.calls (pullCells host input cells).2.2.calls := by
  induction cells generalizing host input with
  | nil => exact .nothing 0 [] _
  | cons cell rest ih =>
    obtain ⟨calls, makes, called⟩ := cell.step.run_makes host input
    rw [pullCells_blank host input rest (blank cell List.mem_cons_self)]
    dsimp only
    refine MakesFrom.cons makes ?_
    rw [← called]
    split
    · exact .nothing 0 rest _
    · exact ih _ _ fun later member => blank later (List.mem_cons_of_mem _ member)

/-! ## Computed beginnings -/

theorem countP_isComputed_of_blank {cells : List (Cell W)} (blank : ∀ cell ∈ cells, cell.IsBlank) :
    cells.countP Cell.isComputed = 0 := by
  refine List.countP_eq_zero.mpr fun cell member => ?_
  simp [Cell.isComputed, (blank cell member).1]

namespace Filled

variable {cells : List (Cell W)}

/-- A pull calls nothing for the steps that are computed. -/
theorem makesFrom (filled : Filled cells) (host : Host W) (input : Slot) :
    MakesFrom (cells.countP Cell.isComputed) cells host.calls
      (WatchChain.pullCells host input cells).2.2.calls := by
  induction filled generalizing input with
  | blank blank =>
    rw [countP_isComputed_of_blank blank]
    exact makesFrom_pullCells_of_blank host input blank
  | @next cell rest slot computed _ ih =>
    have isComputed : cell.isComputed = true := by simp [Cell.isComputed, computed]
    rw [List.countP_cons_of_pos isComputed]
    cases stops : cell.stopsAt slot with
    | true =>
      simp only [WatchChain.pullCells, Cell.compute, computed, stops, if_true]
      exact .nothing _ _ _
    | false =>
      rw [pullCells_computed host input rest computed stops]
      exact (ih slot).skip

theorem append (filled : Filled cells) {cell : Cell W} (blank : cell.IsBlank) :
    Filled (cells ++ [cell]) := by
  induction filled with
  | blank others =>
    exact .blank (List.forall_mem_append.mpr ⟨others, List.forall_mem_singleton.mpr blank⟩)
  | next computed _ ih => exact .next computed ih

theorem markLast (filled : Filled cells) : Filled (WatchChain.markLast cells) := by
  induction filled with
  | blank blank =>
    refine .blank fun cell member => ?_
    obtain ⟨old, inside, -, slot, feed⟩ := mem_markLast member
    exact ⟨slot.trans (blank old inside).1, feed.trans (blank old inside).2⟩
  | @next cell rest slot computed filled ih =>
    cases rest with
    | nil => exact .next computed filled
    | cons later rest => exact .next computed ih

/-- Of the computed cells those before a place stay. -/
theorem take (filled : Filled cells) (place : Nat) {others : List (Cell W)}
    (blank : ∀ cell ∈ others, cell.IsBlank) :
    Filled (cells.take place ++ others) ∧
      (cells.take place ++ others).countP Cell.isComputed =
        min place (cells.countP Cell.isComputed) := by
  induction filled generalizing place with
  | @blank cells all =>
    have none : ∀ cell ∈ cells.take place ++ others, cell.IsBlank :=
      List.forall_mem_append.mpr ⟨fun cell member => all cell (List.mem_of_mem_take member), blank⟩
    rw [countP_isComputed_of_blank none, countP_isComputed_of_blank all, Nat.min_zero]
    exact ⟨.blank none, rfl⟩
  | @next cell rest slot computed _ ih =>
    cases place with
    | zero =>
      rw [List.take_zero, List.nil_append, countP_isComputed_of_blank blank, Nat.zero_min]
      exact ⟨.blank blank, rfl⟩
    | succ place =>
      obtain ⟨front, count⟩ := ih place
      have isComputed : cell.isComputed = true := by simp [Cell.isComputed, computed]
      rw [List.take_succ_cons, List.cons_append, List.countP_cons_of_pos isComputed, count,
        List.countP_cons_of_pos isComputed, Nat.succ_min_succ]
      exact ⟨.next computed front, rfl⟩

end Filled

theorem countP_isComputed_markLast (cells : List (Cell W)) :
    (markLast cells).countP Cell.isComputed = cells.countP Cell.isComputed := by
  induction cells with
  | nil => rfl
  | cons cell rest ih =>
    cases rest with
    | nil => rfl
    | cons later rest =>
      rw [markLast, List.countP_cons, ih, ← List.countP_cons]
      exact List.cons_ne_nil later rest

theorem countP_isComputed_forgetEnded (host : Host W) (cells : List (Cell W)) :
    (cells.map (Cell.forgetEnded host)).countP Cell.isComputed = cells.countP Cell.isComputed :=
  List.countP_map

/-! ## Texts that stand -/

/-- Cells that give a text as they are: those up to the end of the first arm with a text, or
all of them, are computed. -/
inductive Stands : Slot → List (Cell W) → String → Prop
  | done {input : Slot} : Stands input [] input.textOrEmpty
  | stop {input slot : Slot} {cell : Cell W} {rest : List (Cell W)}
      (computed : cell.slot = some slot) (stops : cell.stopsAt slot = true) :
      Stands input (cell :: rest) slot.textOrEmpty
  | next {input slot : Slot} {cell : Cell W} {rest : List (Cell W)} {text : String}
      (computed : cell.slot = some slot) (goes : cell.stopsAt slot = false)
      (stands : Stands slot rest text) : Stands input (cell :: rest) text

theorem Cell.slot_compute (cell : Cell W) (host : Host W) (input : Slot) :
    (cell.compute host input).2.1.slot = some (cell.compute host input).1 := by
  cases computed : cell.slot <;> simp [compute, computed]

/-- A pull stops where the next one will stop. -/
theorem stands_pullCells (host : Host W) (input : Slot) (cells : List (Cell W)) :
    Stands input (pullCells host input cells).2.1 (pullCells host input cells).1 := by
  induction cells generalizing host input with
  | nil => exact .done
  | cons cell rest ih =>
    have computed := cell.slot_compute host input
    rw [pullCells]
    rcases made : cell.compute host input with ⟨slot, taken, after⟩
    rw [made] at computed
    dsimp only at computed ⊢
    cases stops : taken.stopsAt slot with
    | true => exact .stop computed stops
    | false => exact .next computed stops (ih after slot)

namespace Stands

variable {input : Slot} {cells : List (Cell W)} {text : String}

theorem pullCells (stands : Stands input cells text) (host : Host W) :
    WatchChain.pullCells host input cells = (text, cells, host) := by
  induction stands with
  | done => rfl
  | stop computed stops => simp [WatchChain.pullCells, Cell.compute, computed, stops]
  | next computed goes _ ih => rw [pullCells_computed _ _ _ computed goes, ih]

theorem forgetEnded (stands : Stands input cells text) (host : Host W) :
    Stands input (cells.map (Cell.forgetEnded host)) text := by
  induction stands with
  | done => exact .done
  | stop computed stops => exact .stop computed stops
  | next computed goes _ ih => exact .next computed goes ih

end Stands

/-! ## Questions -/

/-- A step that holds a stream is computed. -/
theorem Filled.isComputed {cells : List (Cell W)} (filled : Filled cells) {cell : Cell W}
    (member : cell ∈ cells) {id : FeedId} (held : cell.feed = some id) :
    cell.isComputed = true := by
  induction filled with
  | blank blank =>
    rw [(blank cell member).2] at held
    cases held
  | next computed _ ih =>
    rcases List.mem_cons.mp member with rfl | later
    · simp [Cell.isComputed, computed]
    · exact ih later

namespace WatchChain

variable {chain : WatchChain W} {host : Host W}

/-- One question finds no signal and gives up the streams that have ended, or it invalidates
from the first step on that has signalled, when it has given up the ended streams before. -/
theorem changed_cases (holds : host.Holds (cellFeeds chain.cells)) :
    ((chain.changed host).1 = .pending ∧
      (chain.changed host).2.1.cells = chain.cells.map (Cell.forgetEnded host)) ∨
    ∃ front cell later id failure, chain.cells = front ++ cell :: later ∧ cell.feed = some id ∧
      (chain.changed host).1 = .ofInvalidation front.length failure ∧
      (chain.changed host).2.1.cells =
        front.map (Cell.forgetEnded host) ++ (cell :: later).map Cell.cleared ∧
      ∀ other ∈ cellFeeds (front.map (Cell.forgetEnded host)),
        (chain.changed host).2.2.feed? other = host.feed? other := by
  by_cases quiet : ∀ id ∈ cellFeeds chain.cells, host.IsQuiet id
  · have asked := changedCells_append holds quiet 0 []
    simp only [List.append_nil, changedCells] at asked
    exact .inl (by simp only [changed, asked, and_self])
  · obtain ⟨front, cell, later, id, split, held, loud, quiet⟩ := exists_first_signal quiet
    rw [split, cellFeeds_append] at holds
    have agrees : host.Agrees (host.dropEnded (cellFeeds front)) (cellFeeds (cell :: later)) :=
      Host.agrees_dropEnded holds.apart
    have loudStill : ¬ (host.dropEnded (cellFeeds front)).IsQuiet id :=
      (Host.isQuiet_congr (agrees id (mem_cellFeeds_head held))).not.mpr loud
    obtain ⟨feed, queued, -, -, polled⟩ := Host.poll_of_signal loudStill
    have asked := changedCells_append holds.left quiet 0 (cell :: later)
    simp only [changedCells, held, polled, Nat.zero_add, ← split] at asked
    refine .inr ⟨front, cell, later, id, _, split, held, congrArg Prod.fst asked, ?_,
      fun other member => ?_⟩
    · simp only [changed, asked, invalidateCells_cells]
    · -- The feed is behind none of the cells that are cut, and it has not ended.
      rw [cellFeeds_forgetEnded, List.mem_filter] at member
      obtain ⟨ahead, lasts⟩ := member
      have uncut : other ∉ cellFeeds (cell :: later) := fun behind =>
        holds.apart other behind ahead
      have different : other ≠ id := fun same => uncut (same ▸ mem_cellFeeds_head held)
      simp only [changed, asked]
      rw [invalidateCells_host, foldl_release, Host.feed?_dropAll_of_notMem uncut,
        Host.feed?_setFeed_of_ne _ _ different]
      refine Host.feed?_dropAll_of_notMem fun ended => ?_
      simp [(List.mem_filter.mp ended).2] at lasts

/-! ## Reachable states -/

/-- What may happen beside a chain: the world does what it likes, but that it cannot cancel a
stream that the chain holds, and questions for a change stay without an answer. -/
inductive Idles : WatchChain W × Host W → WatchChain W × Host W → Prop
  | drifted {chain : WatchChain W} {host after : Host W}
      (spares : host.Spares after (cellFeeds chain.cells)) : Idles (chain, host) (chain, after)
  | waited {chain : WatchChain W} {host : Host W} (pending : (chain.changed host).1 = .pending) :
      Idles (chain, host) (chain.changed host).2

/-- What adds to a chain. -/
inductive Grows : WatchChain W × Host W → WatchChain W × Host W → Prop
  | appended {chain : WatchChain W} {host : Host W} (step : Step W) :
      Grows (chain, host) (chain.append step, host)
  | armEnded {chain : WatchChain W} {host : Host W} : Grows (chain, host) (chain.endArm, host)

/-- What pulls or invalidates a chain. -/
inductive Turns : WatchChain W × Host W → WatchChain W × Host W → Prop
  | pulled {chain : WatchChain W} {host : Host W} : Turns (chain, host) (chain.pull host).2
  | asked {chain : WatchChain W} {host : Host W} : Turns (chain, host) (chain.changed host).2
  | invalidated {chain : WatchChain W} {host : Host W} (place : Nat) :
      Turns (chain, host) (chain.invalidateFrom host place).2
  | closed {chain : WatchChain W} {host : Host W} : Turns (chain, host) (chain.close host).2

/-- What may happen to a chain between an invalidation and the next pull. -/
def Prepares (before after : WatchChain W × Host W) : Prop :=
  Idles before after ∨ Grows before after

/-- The states that lead from a program of which no step has been taken. Unlike in a
`Run`, change streams need no hooks, and the host may serve others at the same time. -/
def Reachable (chain : WatchChain W) (host : Host W) : Prop :=
  ∃ program start, Relation.ReflTransGen
    (fun before after => Prepares before after ∨ Turns before after)
    (ofProgram program, start) (chain, host)

/-- How many steps are computed. -/
def computed (chain : WatchChain W) : Nat := chain.cells.countP Cell.isComputed

/-- What every reachable state keeps: a beginning of the steps is computed, and each stream
is held once and has not been cancelled. -/
structure IsIntact (state : WatchChain W × Host W) : Prop where
  filled : Filled state.1.cells
  holds : state.2.Holds (cellFeeds state.1.cells)

namespace IsIntact

variable {before after : WatchChain W × Host W}

theorem ofProgram (program : List (Instruction W)) (host : Host W) :
    IsIntact (ofProgram program, host) := by
  have blank : ∀ cell ∈ (WatchChain.ofProgram program).cells, cell.IsBlank :=
    isBlank_ofInstruction program
  refine ⟨.blank blank, ?_⟩
  rw [cellFeeds_of_blank blank]
  exact host.holds_nil

theorem holds_changed (intact : IsIntact (chain, host)) :
    (chain.changed host).2.2.Holds (cellFeeds (chain.changed host).2.1.cells) :=
  @Host.IsKept.changedCells _ _ Host.holds_isKept host [] 0 _ intact.holds

theorem cells_pending (intact : IsIntact (chain, host))
    (pending : (chain.changed host).1 = .pending) :
    (chain.changed host).2.1.cells = chain.cells.map (Cell.forgetEnded host) := by
  rcases changed_cases intact.holds with ⟨-, cells⟩ | ⟨_, _, _, _, failure, _, _, found, _⟩
  · exact cells
  · rw [found] at pending
    exact absurd pending (Change.ofInvalidation_ne_pending _ failure)

/-- What happens beside a chain or adds to it leaves as many steps computed as there were. -/
theorem prepare (intact : IsIntact before) (prepares : Prepares before after) :
    IsIntact after ∧ after.1.computed = before.1.computed := by
  rcases prepares with idles | grows
  · cases idles with
    | drifted spares => exact ⟨⟨intact.filled, intact.holds.spare spares⟩, rfl⟩
    | waited pending =>
      have cells := intact.cells_pending pending
      refine ⟨⟨?_, intact.holds_changed⟩, ?_⟩
      · rw [cells]
        exact intact.filled.forgetEnded _
      · rw [computed, cells]
        exact countP_isComputed_forgetEnded _ _
  · cases grows with
    | appended step =>
      have blank : ∀ cell ∈ [Cell.ofInstruction (.plain step)], cell.IsBlank :=
        List.forall_mem_singleton.mpr ⟨rfl, rfl⟩
      refine ⟨⟨intact.filled.append ⟨rfl, rfl⟩, ?_⟩, ?_⟩
      · rw [WatchChain.append, cellFeeds_append, cellFeeds_of_blank blank, List.append_nil]
        exact intact.holds
      · rw [computed, WatchChain.append, List.countP_append, countP_isComputed_of_blank blank]
        rfl
    | armEnded =>
      refine ⟨⟨intact.filled.markLast, ?_⟩, countP_isComputed_markLast _⟩
      rw [endArm, cellFeeds_markLast]
      exact intact.holds

theorem prepareAll (intact : IsIntact before)
    (prepares : Relation.ReflTransGen Prepares before after) :
    IsIntact after ∧ after.1.computed = before.1.computed := by
  induction prepares with
  | refl => exact ⟨intact, rfl⟩
  | tail _ last ih =>
    obtain ⟨next, same⟩ := ih.1.prepare last
    exact ⟨next, same.trans ih.2⟩

theorem pull (intact : IsIntact (chain, host)) : IsIntact (chain.pull host).2 := by
  have outcome := intact.filled.pullCells host .initial
  exact ⟨outcome.filled, outcome.feeds.holds intact.holds⟩

/-- The next pull takes no step that is computed, and the others in order. -/
theorem makesFrom (intact : IsIntact before)
    (prepares : Relation.ReflTransGen Prepares before after) :
    MakesFrom before.1.computed after.1.cells after.2.calls
      (after.1.pull after.2).2.2.calls := by
  obtain ⟨later, same⟩ := intact.prepareAll prepares
  rw [← same]
  exact later.filled.makesFrom after.2 .initial

/-- A text that has been pulled is given again as long as the chain is left alone. -/
theorem repeated {text : String} (intact : IsIntact before)
    (stands : Stands .initial before.1.cells text)
    (idles : Relation.ReflTransGen Idles before after) :
    IsIntact after ∧ Stands .initial after.1.cells text := by
  induction idles with
  | refl => exact ⟨intact, stands⟩
  | tail _ last ih =>
    obtain ⟨kept, stands⟩ := ih
    refine ⟨(kept.prepare (.inl last)).1, ?_⟩
    cases last with
    | drifted => exact stands
    | waited pending =>
      rw [kept.cells_pending pending]
      exact stands.forgetEnded _

end IsIntact

/-! ## Invalidations -/

/-- What an invalidation from a place on does. The cells before it are as they are said to be
kept, with their streams in the state in which they were; the others are as if their steps had
never been taken. The next pull, whatever has been added in between, calls nothing for the steps
before the place that were computed, and for the others in order, for each at most once. -/
structure IsCut (place : Nat) (kept : List (Cell W)) (before after : WatchChain W × Host W) :
    Prop where
  cells : after.1.cells = kept ++ (before.1.cells.drop place).map Cell.cleared
  feeds : ∀ id ∈ cellFeeds kept, after.2.feed? id = before.2.feed? id
  recomputes : ∀ later, Relation.ReflTransGen Prepares after later →
    MakesFrom (min place before.1.computed) later.1.cells later.2.calls
      (later.1.pull later.2).2.2.calls

theorem IsIntact.invalidate (intact : IsIntact (chain, host)) (place : Nat) :
    IsIntact (chain.invalidateFrom host place).2 ∧
      IsCut place (chain.cells.take place) (chain, host) (chain.invalidateFrom host place).2 := by
  obtain ⟨filled, count⟩ :=
    intact.filled.take place (isBlank_of_cleared (chain.cells.drop place))
  have cells : (chain.invalidateFrom host place).2.1.cells =
      chain.cells.take place ++ (chain.cells.drop place).map Cell.cleared :=
    congrArg (chain.cells.take place ++ ·) (invalidateCells_cells host place _)
  have after : IsIntact (chain.invalidateFrom host place).2 :=
    ⟨cells ▸ filled, Host.holds_isKept.invalidateFrom place intact.holds⟩
  refine ⟨after, cells, fun id member => ?_, fun later prepares => ?_⟩
  · have holds : host.Holds (cellFeeds (chain.cells.take place) ++
        cellFeeds (chain.cells.drop place)) := by
      rw [← cellFeeds_append, List.take_append_drop]
      exact intact.holds
    rw [invalidateFrom, invalidateCells_host, foldl_release]
    exact Host.feed?_dropAll_of_notMem fun behind => holds.apart id behind member
  · have made := after.makesFrom prepares
    rw [computed, cells, count] at made
    exact made

/-- A question that finds a signal invalidates from a computed step on. -/
theorem IsIntact.exists_cut (intact : IsIntact (chain, host))
    (found : (chain.changed host).1 ≠ .pending) :
    IsIntact (chain.changed host).2 ∧
      ∃ place failure, (chain.changed host).1 = .ofInvalidation place failure ∧
        place < chain.computed ∧
        IsCut place ((chain.cells.take place).map (Cell.forgetEnded host)) (chain, host)
          (chain.changed host).2 := by
  obtain ⟨front, cell, later, id, failure, split, held, told, cells, feeds⟩ :=
    (changed_cases intact.holds).resolve_left fun none => found none.1
  have filled : Filled (front ++ cell :: later) := split ▸ intact.filled
  -- Before a cell that holds a stream all cells are computed, and it is itself.
  have computed_front := filled.front held
  have isComputed := filled.isComputed (List.mem_append_right _ List.mem_cons_self) held
  have less : front.length < chain.computed := by
    rw [computed, split, List.countP_append, List.countP_cons_of_pos isComputed,
      List.countP_eq_length.mpr computed_front]
    omega
  have ahead : ∀ other ∈ front.map (Cell.forgetEnded host), other.isComputed = true := by
    intro other member
    obtain ⟨old, inside, rfl⟩ := List.mem_map.mp member
    exact computed_front old inside
  have after : IsIntact (chain.changed host).2 :=
    ⟨cells ▸ Filled.append_blank ahead (isBlank_of_cleared _), intact.holds_changed⟩
  have kept : chain.cells.take front.length = front := by rw [split, List.take_left]
  have cut : chain.cells.drop front.length = cell :: later := by rw [split, List.drop_left]
  refine ⟨after, front.length, failure, told, less, ?_, ?_, fun next prepares => ?_⟩
  · rw [kept, cut]
    exact cells
  · rw [kept]
    exact feeds
  · have made := after.makesFrom prepares
    rw [computed, cells, List.countP_append, List.countP_eq_length.mpr ahead,
      countP_isComputed_of_blank (isBlank_of_cleared _), List.length_map, Nat.add_zero] at made
    rwa [Nat.min_eq_left (Nat.le_of_lt less)]

theorem IsIntact.turn {before after : WatchChain W × Host W} (intact : IsIntact before)
    (turns : Turns before after) : IsIntact after := by
  cases turns with
  | pulled => exact intact.pull
  | @asked chain host =>
    by_cases pending : (chain.changed host).1 = .pending
    · exact (intact.prepare (.inl (.waited pending))).1
    · exact (intact.exists_cut pending).1
  | invalidated place => exact (intact.invalidate place).1
  | closed => exact (intact.invalidate 0).1

theorem Reachable.isIntact (reachable : chain.Reachable host) : IsIntact (chain, host) := by
  obtain ⟨program, start, path⟩ := reachable
  generalize (chain, host) = state at path
  induction path with
  | refl => exact .ofProgram program start
  | tail _ move ih => exact move.elim (fun prepares => (ih.prepare prepares).1) ih.turn

/-- What invalidating and pulling come to in a state of a chain. -/
structure IsExact (chain : WatchChain W) (host : Host W) : Prop where
  /-- By hand a chain can be invalidated from any place on. -/
  invalidated : ∀ place,
    IsCut place (chain.cells.take place) (chain, host) (chain.invalidateFrom host place).2
  /-- The step that has changed was computed. Of the steps before it those keep their streams
  whose streams have not ended. -/
  changed : ∀ place, (chain.changed host).1 = .changed place →
    place < chain.computed ∧
    IsCut place ((chain.cells.take place).map (Cell.forgetEnded host)) (chain, host)
      (chain.changed host).2
  /-- The same happens if a hook fails then. -/
  failed : ∀ failure, (chain.changed host).1 = .failed failure →
    ∃ place < chain.computed,
      IsCut place ((chain.cells.take place).map (Cell.forgetEnded host)) (chain, host)
        (chain.changed host).2
  /-- Another pull gives the same text and calls nothing. -/
  repeated : ∀ later, Relation.ReflTransGen Idles (chain.pull host).2 later →
    later.1.pull later.2 = ((chain.pull host).1, later)

/-- In every state that operations on a chain lead to, in any order and whatever the world does
in between, invalidating clears the steps from its place on and no others, a pull takes only
steps that are not computed, and a pull after a pull reads the text again. -/
theorem Reachable.isExact (reachable : chain.Reachable host) : chain.IsExact host := by
  have intact := reachable.isIntact
  refine ⟨fun place => (intact.invalidate place).2, fun place told => ?_, fun failure told => ?_,
    fun later idles => ?_⟩
  · obtain ⟨-, found, failure, same, cut⟩ := intact.exists_cut (by simp [told])
    rw [told] at same
    cases failure with
    | none =>
      cases same
      exact cut
    | some failure => cases same
  · obtain ⟨-, place, -, -, less, cut⟩ := intact.exists_cut (by simp [told])
    exact ⟨place, less, cut⟩
  · obtain ⟨-, stands⟩ :=
      intact.pull.repeated (stands_pullCells host .initial chain.cells) idles
    rw [WatchChain.pull, stands.pullCells]
    rfl

end WatchChain

/-- A clock that shows the state of the world. Its change streams have no hooks. -/
def silentClock : Mapping String :=
  { strikingClock with watch := some fun _ _ _ => ⟨none, 0, false, none⟩ }

/-- The clock has been read and has struck. -/
theorem WatchChain.isExact_silentClock :
    let program := [Instruction.plain (.begin (.context [])), .plain (.map silentClock)]
    let read := ((ofProgram program).pull { state := "1" }).2
    let struck := { (read.2.signal 0).2 with state := "2" }
    read.1.Reachable struck ∧ read.1.IsExact struck ∧
      (read.1.changed struck).1 = .changed 1 ∧ read.1.computed = 2 := by
  intro program read struck
  have spares : read.2.Spares struck (cellFeeds read.1.cells) := by
    intro id _ feed found
    obtain ⟨later, present, same, -⟩ := (read.2.drifts_signal 0 "2").feeds id feed found
    exact ⟨later, present, same⟩
  have reachable : read.1.Reachable struck :=
    ⟨program, _, .tail (.tail .refl (.inr .pulled)) (.inl (.inl (.drifted spares)))⟩
  exact ⟨reachable, reachable.isExact, rfl, rfl⟩

end TypedTemplate
