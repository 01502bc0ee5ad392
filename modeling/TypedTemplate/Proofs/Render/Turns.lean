import TypedTemplate.Proofs.Render.Asking

/-!
One signal, one text. However feeds have been signalled and ended since the last poll, a stream
that is polled takes the first signal that waits, in the order of the elements and of their
steps, and gives one text in which only the element with this signal is pulled anew; without a
signal the poll is pending and nothing is lost. Between the polls each feed that is held is held
once and has not been cancelled (`IsSound`), so nothing but its own turn touches it.
-/
namespace TypedTemplate

variable {W : Type}

/-! ## Taking steps -/

namespace Host

variable {before middle after : Host W} {old new oldNext newNext : List FeedId}

/-- The feeds that are held later are those that were held before and new ones, and no other
feed has been touched. -/
structure Extends (before after : Host W) (old new : List FeedId) : Prop where
  leaves : Leaves [] before after
  fresh : ∃ fresh, new.Perm (old ++ fresh) ∧ after.Holds fresh ∧
    ∀ id ∈ fresh, before.feeds.length ≤ id

theorem holds_nil (host : Host W) : host.Holds [] := ⟨List.nodup_nil, nofun⟩

theorem Holds.perm (holds : before.Holds old) (perm : new.Perm old) : before.Holds new :=
  ⟨perm.nodup_iff.mpr holds.distinct, fun id member => holds.live id (perm.subset member)⟩

theorem Holds.leaves (holds : before.Holds old) (leaves : Leaves [] before after) :
    after.Holds old := by
  refine holds.agrees fun id member => ?_
  obtain ⟨feed, found, -⟩ := holds.exists_feed member
  rw [found]
  exact leaves.same found List.not_mem_nil

/-- New feeds can be held beside old ones. -/
theorem Holds.append (holds : before.Holds old) (leaves : Leaves [] before after)
    (next : after.Holds new) (fresh : ∀ id ∈ new, before.feeds.length ≤ id) :
    after.Holds (old ++ new) := by
  have kept := holds.leaves leaves
  refine ⟨List.nodup_append.mpr ⟨kept.distinct, next.distinct, ?_⟩, fun id member => ?_⟩
  · rintro id behind _ ahead rfl
    exact Nat.not_le_of_lt (holds.owns.known id behind) (fresh id ahead)
  · exact (List.mem_append.mp member).elim (kept.live id) (next.live id)

namespace Extends

theorem refl (host : Host W) (ids : List FeedId) : host.Extends host ids ids :=
  ⟨.refl _ _, [], by simp, host.holds_nil, nofun⟩

theorem append (left : before.Extends middle old new)
    (right : middle.Extends after oldNext newNext) :
    before.Extends after (old ++ oldNext) (new ++ newNext) := by
  obtain ⟨leaves, fresh, perm, holds, bound⟩ := left
  obtain ⟨onward, later, permNext, holdsNext, boundNext⟩ := right
  refine ⟨leaves.trans onward, fresh ++ later, ?_, holds.append onward holdsNext boundNext,
    List.forall_mem_append.mpr ⟨bound, fun id member =>
      Nat.le_trans leaves.size (boundNext id member)⟩⟩
  have swap : ((old ++ fresh) ++ (oldNext ++ later)).Perm
      ((old ++ oldNext) ++ (fresh ++ later)) := by
    rw [List.append_assoc, List.append_assoc]
    refine List.Perm.append_left old ?_
    rw [← List.append_assoc, ← List.append_assoc]
    exact List.perm_append_comm.append_right later
  exact (perm.append permNext).trans swap

theorem holds (grown : before.Extends after old new) (holds : before.Holds old) :
    after.Holds new := by
  obtain ⟨leaves, fresh, perm, holdsFresh, bound⟩ := grown
  exact (holds.append leaves holdsFresh bound).perm perm

end Extends

end Host

/-- A step starts at most one feed, a new one. -/
theorem Step.run_extends (step : Step W) (host : Host W) (input : Slot) :
    host.Extends (step.run true host input).host [] (step.run true host input).feed.toList := by
  refine ⟨step.run_host true host input, _, List.Perm.refl _, ?_, fun id member => ?_⟩
  · rcases step.run_watching host input with
      ⟨calls, -, none, -⟩ | ⟨mapping, receiver, args, watch, -, -, started, after⟩
    · rw [none]
      exact Host.holds_nil _
    · rw [started, after]
      refine ⟨List.nodup_singleton _, fun id member => ?_⟩
      rw [List.mem_singleton.mp member]
      simp [Host.isCancelled, Host.feed?, Host.noteAll, Host.note, Host.listen]
  · exact Nat.le_of_eq (Step.run_feed (Option.mem_toList.mp member)).1.symm

theorem isBlank_of_cleared (cells : List (Cell W)) :
    ∀ cell ∈ cells.map Cell.cleared, cell.IsBlank := by
  intro cell member
  obtain ⟨old, -, rfl⟩ := List.mem_map.mp member
  exact ⟨rfl, rfl⟩

/-- Cells of which a beginning is computed and all others are blank. -/
inductive Filled : List (Cell W) → Prop
  | blank {cells : List (Cell W)} (blank : ∀ cell ∈ cells, cell.IsBlank) : Filled cells
  | next {cell : Cell W} {rest : List (Cell W)} {slot : Slot} (computed : cell.slot = some slot)
      (filled : Filled rest) : Filled (cell :: rest)

open WatchChain

/-- What a pull leaves behind. -/
structure FilledOutcome (host : Host W) (cells : List (Cell W))
    (outcome : String × List (Cell W) × Host W) : Prop where
  filled : Filled outcome.2.1
  feeds : host.Extends outcome.2.2 (cellFeeds cells) (cellFeeds outcome.2.1)

theorem filledOutcome_of_blank (host : Host W) (input : Slot) {cells : List (Cell W)}
    (blank : ∀ cell ∈ cells, cell.IsBlank) :
    FilledOutcome host cells (pullCells host input cells) := by
  induction cells generalizing host input with
  | nil => exact ⟨.blank blank, .refl _ _⟩
  | cons cell rest ih =>
    have others : ∀ later ∈ rest, later.IsBlank :=
      fun later member => blank later (List.mem_cons_of_mem _ member)
    have alone := blank cell List.mem_cons_self
    have started := cell.step.run_extends host input
    rw [pullCells_blank host input rest alone]
    dsimp only
    split
    · refine ⟨.next rfl (.blank others), ?_⟩
      rw [cellFeeds_cons, cellFeeds_cons, alone.2]
      exact started.append (.refl _ _)
    · have later :=
        ih (cell.step.run true host input).host (cell.step.run true host input).slot others
      refine ⟨.next rfl later.filled, ?_⟩
      rw [cellFeeds_cons, cellFeeds_cons, alone.2]
      exact started.append later.feeds

namespace Filled

variable {cells : List (Cell W)}

theorem pullCells (filled : Filled cells) (host : Host W) (input : Slot) :
    FilledOutcome host cells (WatchChain.pullCells host input cells) := by
  induction filled generalizing input with
  | blank blank => exact filledOutcome_of_blank host input blank
  | @next cell rest slot computed filled ih =>
    cases stops : cell.stopsAt slot with
    | true =>
      have stopped : WatchChain.pullCells host input (cell :: rest) =
          (slot.textOrEmpty, cell :: rest, host) := by
        simp [WatchChain.pullCells, Cell.compute, computed, stops]
      rw [stopped]
      exact ⟨.next computed filled, .refl _ _⟩
    | false =>
      have later := ih slot
      rw [pullCells_computed host input rest computed stops]
      refine ⟨.next computed later.filled, ?_⟩
      rw [cellFeeds_cons, cellFeeds_cons]
      exact (Host.Extends.refl _ _).append later.feeds

/-- In front of a cell with a feed all cells are computed. -/
theorem front {front later : List (Cell W)} {cell : Cell W} {id : FeedId}
    (filled : Filled (front ++ cell :: later)) (held : cell.feed = some id) :
    ∀ other ∈ front, other.isComputed = true := by
  induction front with
  | nil => exact fun _ member => by cases member
  | cons first front ih =>
    cases filled with
    | blank blank =>
      rw [(blank cell (by simp)).2] at held
      cases held
    | next computed filled =>
      exact List.forall_mem_cons.mpr ⟨by simp [Cell.isComputed, computed], ih filled⟩

theorem forgetEnded (filled : Filled cells) (host : Host W) :
    Filled (cells.map (Cell.forgetEnded host)) := by
  induction filled with
  | blank blank =>
    refine .blank fun cell member => ?_
    obtain ⟨old, inside, rfl⟩ := List.mem_map.mp member
    rw [Cell.forgetEnded_unwatched (blank old inside).2]
    exact blank old inside
  | next computed _ ih => exact .next computed ih

/-- Computed cells stay computed when those behind them are cleared. -/
theorem append_blank {front rest : List (Cell W)}
    (computed : ∀ cell ∈ front, cell.isComputed = true) (blank : ∀ cell ∈ rest, cell.IsBlank) :
    Filled (front ++ rest) := by
  induction front with
  | nil => exact .blank blank
  | cons cell front ih =>
    obtain ⟨slot, known⟩ := Option.isSome_iff_exists.mp (computed cell List.mem_cons_self)
    exact .next known (ih fun other member => computed other (List.mem_cons_of_mem _ member))

end Filled

/-- A pull does not touch the computed cells at the beginning. -/
theorem pullCells_front (host : Host W) (input : Slot) {front : List (Cell W)}
    (computed : ∀ cell ∈ front, cell.isComputed = true) (rest : List (Cell W)) :
    ∃ later, (pullCells host input (front ++ rest)).2.1 = front ++ later := by
  induction front generalizing input with
  | nil => exact ⟨_, rfl⟩
  | cons cell front ih =>
    obtain ⟨slot, known⟩ := Option.isSome_iff_exists.mp (computed cell List.mem_cons_self)
    obtain ⟨later, same⟩ :=
      ih slot fun other member => computed other (List.mem_cons_of_mem _ member)
    rw [List.cons_append, pullCells]
    simp only [Cell.compute, known]
    split
    · exact ⟨rest, rfl⟩
    · exact ⟨later, congrArg (cell :: ·) same⟩

/-! ## Where the first signal waits -/

/-- The cell with the first signal that waits for some elements. -/
structure Firing (host : Host W) (elements : List (LiveElement W)) where
  before : List (LiveElement W)
  front : List (Cell W)
  cell : Cell W
  later : List (Cell W)
  /-- The text that its element gave last. -/
  last : String
  behind : List (LiveElement W)
  id : FeedId
  split : elements = before ++ .chain ⟨front ++ cell :: later⟩ last :: behind
  held : cell.feed = some id
  signal : ¬ host.IsQuiet id
  /-- No signal waits in the elements before, nor in this one before this cell. -/
  quiet : ∀ other ∈ elementFeeds before ++ cellFeeds front, host.IsQuiet other

theorem exists_first {α : Type} {p : α → Prop} {items : List α} (some : ∃ item ∈ items, p item) :
    ∃ before item behind, items = before ++ item :: behind ∧ p item ∧
      ∀ other ∈ before, ¬ p other := by
  classical
  obtain ⟨item, member, holds⟩ := some
  have finds : (items.find? fun item => decide (p item)).isSome = true :=
    List.find?_isSome.mpr ⟨item, member, decide_eq_true holds⟩
  obtain ⟨first, found⟩ := Option.isSome_iff_exists.mp finds
  obtain ⟨fits, before, behind, split, none⟩ := List.find?_eq_some_iff_append.mp found
  exact ⟨before, first, behind, split, by simpa using fits, by simpa using none⟩

/-- Of the cells whose feeds have signals one is the first. -/
theorem exists_first_signal {host : Host W} {cells : List (Cell W)}
    (signal : ¬ ∀ id ∈ cellFeeds cells, host.IsQuiet id) :
    ∃ front cell later id, cells = front ++ cell :: later ∧ cell.feed = some id ∧
      ¬ host.IsQuiet id ∧ ∀ other ∈ cellFeeds front, host.IsQuiet other := by
  simp only [not_forall] at signal
  obtain ⟨id, member, waiting⟩ := signal
  obtain ⟨cell, within, holds⟩ := mem_cellFeeds.mp member
  obtain ⟨front, cell, later, split, ⟨id, holds, waiting⟩, quiet⟩ :=
    @exists_first _ (fun cell : Cell W => ∃ id, cell.feed = some id ∧ ¬ host.IsQuiet id) _
      ⟨cell, within, id, holds, waiting⟩
  refine ⟨front, cell, later, id, split, holds, waiting, fun other member => ?_⟩
  obtain ⟨cell, inside, held⟩ := mem_cellFeeds.mp member
  exact not_not.mp fun loud => quiet cell inside ⟨other, held, loud⟩

theorem exists_firing {host : Host W} {elements : List (LiveElement W)}
    (signal : ¬ ∀ id ∈ elementFeeds elements, host.IsQuiet id) :
    Nonempty (Firing host elements) := by
  simp only [not_forall] at signal
  obtain ⟨id, member, waiting⟩ := signal
  obtain ⟨element, inside, held⟩ := List.mem_flatMap.mp member
  obtain ⟨before, element, behind, split, ⟨id, held, waiting⟩, quietBefore⟩ :=
    @exists_first _ (fun element : LiveElement W => ∃ id ∈ element.feeds, ¬ host.IsQuiet id) _
      ⟨element, inside, id, held, waiting⟩
  cases element with
  | text raw => cases held
  | chain steps last =>
    obtain ⟨front, cell, later, id, cells, holds, waiting, quietFront⟩ :=
      exists_first_signal fun quiet => waiting (quiet id held)
    refine ⟨⟨before, front, cell, later, last, behind, id, ?_, holds, waiting, ?_⟩⟩
    · rw [split, ← cells]
    · refine List.forall_mem_append.mpr ⟨fun other member => ?_, quietFront⟩
      obtain ⟨element, inside, held⟩ := List.mem_flatMap.mp member
      exact not_not.mp fun loud => quietBefore element inside ⟨other, held, loud⟩

namespace Firing

variable {host : Host W} {elements : List (LiveElement W)} (firing : Firing host elements)

/-- The feeds that are asked before the one with the signal. -/
def passed : List FeedId := elementFeeds firing.before ++ cellFeeds firing.front

/-- The feeds of the cells that become invalid. -/
def cut : List FeedId := cellFeeds (firing.cell :: firing.later)

/-- The host when the signal has been taken: ended feeds that were asked before have been given
up, and the feeds of the cells that become invalid have been cancelled. -/
def taken : Host W :=
  ((host.dropEnded firing.passed).poll firing.id).2.dropAll firing.cut

/-- What pulling the element then gives. -/
def pulled : String × List (Cell W) × Host W :=
  pullCells firing.taken .initial
    (firing.front.map (Cell.forgetEnded host) ++
      (firing.cell :: firing.later).map Cell.cleared)

def elementsAfter : List (LiveElement W) :=
  firing.before.map (LiveElement.forgetEnded host) ++
    .chain ⟨firing.pulled.2.1⟩ firing.pulled.1 :: firing.behind

/-- The texts given last, but for the one of the element that has been pulled. -/
def text : String :=
  String.join (firing.before.map LiveElement.current ++ firing.pulled.1 ::
    firing.behind.map LiveElement.current)

theorem mem_elements {element : LiveElement W} (member : element ∈ firing.before ++
    .chain ⟨firing.front ++ firing.cell :: firing.later⟩ firing.last :: firing.behind) :
    element ∈ elements :=
  (congrArg (element ∈ ·) firing.split).mpr member

theorem id_mem_cut : firing.id ∈ firing.cut := mem_cellFeeds_head firing.held

theorem elementFeeds_eq : elementFeeds elements =
    firing.passed ++ (firing.cut ++ elementFeeds firing.behind) := by
  have feeds := congrArg elementFeeds firing.split
  rw [feeds, elementFeeds, List.flatMap_append, List.flatMap_cons, LiveElement.feeds_chain,
    cellFeeds_append, passed, cut]
  simp [elementFeeds]

theorem hasEnded_id : host.hasEnded firing.id = false := by
  obtain ⟨feed, queued, found, waiting, -⟩ := Host.poll_of_signal firing.signal
  rw [Host.hasEnded, found]
  simp [waiting]

/-- The signal is still there when the feeds before have been asked. -/
theorem feed?_dropEnded_id :
    (host.dropEnded firing.passed).feed? firing.id = host.feed? firing.id := by
  refine Host.feed?_dropAll_of_notMem fun ended => ?_
  rw [List.mem_filter, firing.hasEnded_id] at ended
  cases ended.2

theorem poll_eq : ∃ feed queued, host.feed? firing.id = some feed ∧ feed.queued = queued + 1 ∧
    (host.dropEnded firing.passed).poll firing.id =
      (.signal, (host.dropEnded firing.passed).setFeed firing.id { feed with queued }) := by
  have signal : ¬ (host.dropEnded firing.passed).IsQuiet firing.id :=
    (Host.isQuiet_congr firing.feed?_dropEnded_id).not.mpr firing.signal
  obtain ⟨feed, queued, found, waiting, polled⟩ := Host.poll_of_signal signal
  exact ⟨feed, queued, firing.feed?_dropEnded_id ▸ found, waiting, polled⟩

/-- Only the feeds that are cut and ended ones that were asked are touched. -/
theorem feed?_taken {other : FeedId} (uncut : other ∉ firing.cut)
    (lasts : other ∈ firing.passed → host.hasEnded other = false) :
    firing.taken.feed? other = host.feed? other := by
  obtain ⟨feed, queued, -, -, polled⟩ := firing.poll_eq
  have different : other ≠ firing.id := fun same => uncut (same ▸ firing.id_mem_cut)
  rw [taken, Host.feed?_dropAll_of_notMem uncut, polled, Host.feed?_setFeed_of_ne _ _ different]
  refine Host.feed?_dropAll_of_notMem fun ended => ?_
  obtain ⟨member, ended⟩ := List.mem_filter.mp ended
  rw [lasts member] at ended
  cases ended

theorem isCancelled_taken {other : FeedId} (member : other ∈ firing.cut) :
    firing.taken.isCancelled other = true :=
  Host.isCancelled_dropAll _ member

/-- One signal is taken in all. -/
theorem exists_feed?_taken {other : FeedId} {feed : Feed} (found : host.feed? other = some feed) :
    ∃ later, firing.taken.feed? other = some later ∧
      feed.queued = later.queued + if other = firing.id then 1 else 0 := by
  obtain ⟨fired, queued, fires, waiting, polled⟩ := firing.poll_eq
  rw [taken, polled]
  by_cases same : other = firing.id
  · subst same
    rw [fires] at found
    cases found
    have set := Host.feed?_setFeed_self _ { feed with queued }
      (firing.feed?_dropEnded_id.trans fires)
    obtain ⟨later, present, kept⟩ := Host.exists_feed?_dropAll set firing.cut
    exact ⟨later, present, by rw [if_pos rfl, kept, waiting]⟩
  · obtain ⟨asked, present, first⟩ :=
      Host.exists_feed?_dropAll found (firing.passed.filter host.hasEnded)
    rw [← Host.dropEnded, ← Host.feed?_setFeed_of_ne _ { fired with queued } same] at present
    obtain ⟨later, present, next⟩ := Host.exists_feed?_dropAll present firing.cut
    exact ⟨later, present, by rw [if_neg same, next, first, Nat.add_zero]⟩

end Firing

/-! ## Sound elements -/

/-- What every state of a stream keeps: chains are computed from the beginning, and each feed
is held once and has not been cancelled. -/
structure IsSound (host : Host W) (elements : List (LiveElement W)) : Prop where
  filled : ∀ steps last, .chain steps last ∈ elements → Filled steps.cells
  holds : host.Holds (elementFeeds elements)

theorem isSound_of_blank {elements : List (LiveElement W)}
    (blank : ∀ steps last, .chain steps last ∈ elements → ∀ cell ∈ steps.cells, cell.IsBlank)
    (host : Host W) : IsSound host elements := by
  refine ⟨fun steps last member => .blank (blank steps last member), ?_⟩
  have none : elementFeeds elements = [] := by
    refine List.flatMap_eq_nil_iff.mpr fun element member => ?_
    cases element with
    | text raw => rfl
    | chain steps last => exact cellFeeds_of_blank (blank steps last member)
  rw [none]
  exact host.holds_nil

theorem filled_forgetEnded {elements : List (LiveElement W)}
    (filled : ∀ steps last, .chain steps last ∈ elements → Filled steps.cells) (host : Host W)
    {steps : WatchChain W} {last : String}
    (member : .chain steps last ∈ elements.map (LiveElement.forgetEnded host)) :
    Filled steps.cells := by
  obtain ⟨element, inside, same⟩ := List.mem_map.mp member
  cases element with
  | text raw => cases same
  | chain old text =>
    cases same
    exact (filled old last inside).forgetEnded host

/-- Without signals a question gives up the ended feeds and nothing else. -/
theorem refreshElements_of_quiet {host : Host W} {elements : List (LiveElement W)}
    (holds : host.Holds (elementFeeds elements))
    (quiet : ∀ id ∈ elementFeeds elements, host.IsQuiet id) :
    RenderStream.refreshElements host elements =
      (false, elements.map (LiveElement.forgetEnded host),
        host.dropEnded (elementFeeds elements)) := by
  have asked := refreshElements_append holds quiet []
  simpa only [List.append_nil, RenderStream.refreshElements] using asked

theorem IsSound.forgetEnded {host : Host W} {elements : List (LiveElement W)}
    (sound : IsSound host elements) :
    IsSound (host.dropEnded (elementFeeds elements))
      (elements.map (LiveElement.forgetEnded host)) := by
  refine ⟨fun steps last => filled_forgetEnded sound.filled host, ?_⟩
  rw [elementFeeds_forgetEnded]
  refine (sound.holds.sublist List.filter_sublist).agrees fun id member => ?_
  refine Host.feed?_dropAll_of_notMem fun dropped => ?_
  have ended := (List.mem_filter.mp dropped).2
  have lasts := (List.mem_filter.mp member).2
  rw [ended] at lasts
  cases lasts

namespace Firing

variable {host : Host W} {elements : List (LiveElement W)} (firing : Firing host elements)
  (sound : IsSound host elements)

include sound

theorem holds_split : host.Holds (firing.passed ++ (firing.cut ++ elementFeeds firing.behind)) :=
  firing.elementFeeds_eq ▸ sound.holds

/-- Until the element is pulled the hooks of the feeds that are given up are run, and nothing
else is called. -/
theorem calls_taken : firing.taken.calls = host.calls ++
    (firing.passed.filter host.hasEnded ++ firing.cut).filterMap host.hookCall? := by
  have holds := firing.holds_split sound
  obtain ⟨feed, queued, found, waiting, polled⟩ := firing.poll_eq
  have agrees : host.Agrees (host.dropEnded firing.passed) firing.cut :=
    Host.agrees_dropEnded fun id member =>
      holds.apart id (List.mem_append_left _ member)
  have hooks := Host.sameHooks_setFeed (firing.feed?_dropEnded_id.trans found) queued
  have held : ((host.dropEnded firing.passed).setFeed firing.id { feed with queued }).Holds
      firing.cut := by
    refine ⟨holds.right.left.distinct, fun id member => ?_⟩
    rw [(hooks id).1]
    exact (holds.right.left.agrees agrees).live id member
  have passed := (holds.left.sublist (List.filter_sublist (p := host.hasEnded))).calls_dropAll
  rw [taken, polled, held.calls_dropAll, List.filterMap_append, ← List.append_assoc, ← passed]
  refine congrArg _ (List.filterMap_congr fun id member => ?_)
  exact (hooks id).2.trans (Host.hookCall?_congr (agrees id member))

theorem refreshElements_eq : RenderStream.refreshElements host elements =
    (true, firing.elementsAfter, firing.pulled.2.2) := by
  have passed := (firing.holds_split sound).left
  obtain ⟨feed, queued, -, -, polled⟩ := firing.poll_eq
  have agrees : host.Agrees (host.dropEnded (elementFeeds firing.before))
      (cellFeeds firing.front) := Host.agrees_dropEnded passed.apart
  have both : (host.dropEnded (elementFeeds firing.before)).dropEnded (cellFeeds firing.front) =
      host.dropEnded firing.passed := (Host.dropEnded_append passed.apart).symm
  have refreshed :
      (LiveElement.chain ⟨firing.front ++ firing.cell :: firing.later⟩ firing.last).refresh
        (host.dropEnded (elementFeeds firing.before)) =
      (true, .chain ⟨firing.pulled.2.1⟩ firing.pulled.1, firing.pulled.2.2) := by
    rw [LiveElement.refresh_of_signal (passed.right.agrees agrees)
      (fun other member => (Host.isQuiet_congr (agrees other member)).mpr
        (firing.quiet other (List.mem_append_right _ member)))
      firing.held (by rw [both, polled]), both, map_forgetEnded_congr agrees]
    rfl
  refine (congrArg (RenderStream.refreshElements host) firing.split).trans ?_
  rw [refreshElements_append passed.left fun other member =>
    firing.quiet other (List.mem_append_left _ member), RenderStream.refreshElements, refreshed]
  rfl

theorem filled_cells : Filled (firing.front ++ firing.cell :: firing.later) :=
  sound.filled _ firing.last (firing.mem_elements (by simp))

/-- The cells before the one with the signal stay computed. -/
theorem computed_front : ∀ cell ∈ firing.front.map (Cell.forgetEnded host),
    cell.isComputed = true := by
  intro cell member
  obtain ⟨old, inside, rfl⟩ := List.mem_map.mp member
  exact (firing.filled_cells sound).front firing.held old inside

theorem pullOutcome : FilledOutcome firing.taken
    (firing.front.map (Cell.forgetEnded host) ++ (firing.cell :: firing.later).map Cell.cleared)
    firing.pulled :=
  (Filled.append_blank (firing.computed_front sound) (isBlank_of_cleared _)).pullCells _ _

/-- The pull touches no feed that exists. -/
theorem feed?_pulled {other : FeedId} {feed : Feed} (found : firing.taken.feed? other = some feed) :
    firing.pulled.2.2.feed? other = some feed :=
  (firing.pullOutcome sound).feeds.leaves.same found List.not_mem_nil

/-- What is neither cut nor ended is held on. -/
theorem holds_taken : firing.taken.Holds
    ((elementFeeds firing.before).filter (fun id => !host.hasEnded id) ++
      ((cellFeeds firing.front).filter (fun id => !host.hasEnded id) ++
        elementFeeds firing.behind)) := by
  have holds := firing.holds_split sound
  have passed : ((elementFeeds firing.before).filter (fun id => !host.hasEnded id) ++
      (cellFeeds firing.front).filter fun id => !host.hasEnded id).Sublist firing.passed :=
    List.filter_sublist.append List.filter_sublist
  rw [← List.append_assoc]
  refine (holds.sublist (passed.append (List.sublist_append_right _ _))).agrees
    fun id member => firing.feed?_taken (fun cut => ?_) fun ahead => ?_
  · rcases List.mem_append.mp member with kept | behind
    · exact holds.apart id (List.mem_append_left _ cut) (passed.subset kept)
    · exact holds.right.apart id behind cut
  · rcases List.mem_append.mp member with kept | behind
    · rw [← List.filter_append, List.mem_filter] at kept
      simpa using kept.2
    · exact absurd ahead (holds.apart id (List.mem_append_right _ behind))

theorem isSound : IsSound firing.pulled.2.2 firing.elementsAfter := by
  have outcome := firing.pullOutcome sound
  refine ⟨fun steps last member => ?_, ?_⟩
  · rcases List.mem_append.mp member with before | rest
    · exact filled_forgetEnded (fun steps last inside => sound.filled steps last
        (firing.mem_elements (List.mem_append_left _ inside))) host before
    · rcases List.mem_cons.mp rest with here | behind
      · cases here
        exact outcome.filled
      · exact sound.filled steps last
          (firing.mem_elements (List.mem_append_right _ (List.mem_cons_of_mem _ behind)))
  · have blank : cellFeeds ((firing.cell :: firing.later).map Cell.cleared) = [] :=
      cellFeeds_of_blank (isBlank_of_cleared _)
    have grown := outcome.feeds
    rw [cellFeeds_append, blank, List.append_nil, cellFeeds_forgetEnded] at grown
    have feeds : elementFeeds firing.elementsAfter =
        (elementFeeds firing.before).filter (fun id => !host.hasEnded id) ++
          (cellFeeds firing.pulled.2.1 ++ elementFeeds firing.behind) := by
      rw [← elementFeeds_forgetEnded]
      simp [elementsAfter, elementFeeds]
    rw [feeds]
    exact ((Host.Extends.refl _ _).append (grown.append (.refl _ _))).holds
      (firing.holds_taken sound)

end Firing

theorem IsSound.refreshElements {host : Host W} {elements : List (LiveElement W)}
    (sound : IsSound host elements) :
    IsSound (RenderStream.refreshElements host elements).2.2
      (RenderStream.refreshElements host elements).2.1 := by
  by_cases quiet : ∀ id ∈ elementFeeds elements, host.IsQuiet id
  · rw [refreshElements_of_quiet sound.holds quiet]
    exact sound.forgetEnded
  · obtain ⟨firing⟩ := exists_firing quiet
    rw [firing.refreshElements_eq sound]
    exact firing.isSound sound

/-! ## Pulling and closing all elements -/

theorem pullElements_extends (host : Host W) {elements : List (LiveElement W)}
    (filled : ∀ steps last, .chain steps last ∈ elements → Filled steps.cells) :
    (∀ steps last, .chain steps last ∈ (RenderStream.pullElements host elements).1 →
      Filled steps.cells) ∧
    host.Extends (RenderStream.pullElements host elements).2 (elementFeeds elements)
      (elementFeeds (RenderStream.pullElements host elements).1) := by
  induction elements generalizing host with
  | nil => exact ⟨nofun, .refl _ _⟩
  | cons element rest ih =>
    obtain ⟨filledRest, grownRest⟩ := ih (element.pull host).2
      fun steps last member => filled steps last (List.mem_cons_of_mem _ member)
    rw [RenderStream.pullElements, elementFeeds_cons]
    dsimp only
    rw [elementFeeds_cons]
    cases element with
    | text raw =>
      refine ⟨fun steps last member => ?_, (Host.Extends.refl _ _).append grownRest⟩
      have behind := (List.mem_cons.mp member).resolve_left (by simp [LiveElement.pull])
      exact filledRest steps last behind
    | chain steps last =>
      have outcome := (filled steps last List.mem_cons_self).pullCells host .initial
      refine ⟨fun other text member => ?_, outcome.feeds.append grownRest⟩
      rcases List.mem_cons.mp member with here | behind
      · cases here
        exact outcome.filled
      · exact filledRest other text behind

theorem IsSound.pullElements {host : Host W} {elements : List (LiveElement W)}
    (sound : IsSound host elements) :
    IsSound (RenderStream.pullElements host elements).2
      (RenderStream.pullElements host elements).1 := by
  obtain ⟨filled, grown⟩ := pullElements_extends host sound.filled
  exact ⟨filled, grown.holds sound.holds⟩

theorem LiveElement.close_chain (host : Host W) (steps : WatchChain W) (last : String) :
    ((chain steps last).close host).2.1 = chain ⟨steps.cells.map Cell.cleared⟩ last := by
  have cells : (steps.close host).2.1 = ⟨steps.cells.map Cell.cleared⟩ := by
    rw [WatchChain.close, invalidateFrom, List.drop_zero, ← invalidateCells_cells host 0]
    rfl
  rw [close, ← cells]
  rcases steps.close host with ⟨_ | _, after, later⟩ <;> rfl

theorem closeElements_blank (host : Host W) (elements : List (LiveElement W)) :
    ∀ steps last, .chain steps last ∈ (RenderStream.closeElements host elements).2.1 →
      ∀ cell ∈ steps.cells, cell.IsBlank := by
  induction elements generalizing host with
  | nil => exact nofun
  | cons element rest ih =>
    intro steps last member
    have behind := ih (element.close host).2.2 steps last
    rw [RenderStream.closeElements] at member
    dsimp only at member
    rcases List.mem_cons.mp member with here | later
    · cases element with
      | text raw => cases here
      | chain old text =>
        rw [LiveElement.close_chain] at here
        cases here
        exact isBlank_of_cleared _
    · exact behind later

/-! ## Streams -/

namespace Host

/-- What may happen while nobody uses a stream: anything to the outside state, to the signals of
feeds and to feeds of others, but nobody else cancels a feed that the stream holds. -/
def Spares (before after : Host W) (held : List FeedId) : Prop :=
  ∀ id ∈ held, ∀ feed, before.feed? id = some feed →
    ∃ later, after.feed? id = some later ∧ later.cancelled = feed.cancelled

/-- The world that signals what it changes cancels nothing. -/
theorem Evolves.spares {before after : Host W} (moved : before.Evolves after)
    (held : List FeedId) : before.Spares after held := by
  intro id _ feed found
  obtain ⟨later, present, grows⟩ := moved.feeds found
  exact ⟨later, present, grows.cancelled⟩

theorem Holds.spare {before after : Host W} {held : List FeedId} (holds : before.Holds held)
    (spares : before.Spares after held) : after.Holds held := by
  refine ⟨holds.distinct, fun id member => ?_⟩
  obtain ⟨feed, found, live⟩ := holds.exists_feed member
  obtain ⟨later, present, same⟩ := spares id member feed found
  rw [isCancelled, present]
  exact same.trans live

end Host

namespace RenderStream

variable (template : BoundTemplate W) (context : Value) (viewer : Option Value) (config : Config)

/-- The states that a stream of a template can come to, with the host. Feeds may be signalled
and end at any time, and a poll may be given up. -/
inductive Reached : RenderStream W → Host W → Prop
  | opened (host : Host W) : Reached (ofBound template context viewer config) host
  | moved {stream : RenderStream W} {host after : Host W} (reached : Reached stream host)
      (spares : host.Spares after (elementFeeds stream.elements)) : Reached stream after
  | polled {stream : RenderStream W} {host : Host W} (reached : Reached stream host) :
      Reached (stream.next host).2.1 (stream.next host).2.2
  | cancelled {stream : RenderStream W} {host : Host W} (reached : Reached stream host) :
      Reached stream.cancel host
  | closed {stream : RenderStream W} {host : Host W} (reached : Reached stream host) :
      Reached (stream.close host).2.1 (stream.close host).2.2

variable {template context viewer config}

theorem IsSound.close {stream : RenderStream W} {host : Host W}
    (sound : IsSound host stream.elements) :
    IsSound (stream.close host).2.2 (stream.close host).2.1.elements := by
  unfold RenderStream.close
  split
  · exact sound
  · exact isSound_of_blank (closeElements_blank host stream.elements) _

theorem IsSound.next {stream : RenderStream W} {host : Host W}
    (sound : IsSound host stream.elements) :
    IsSound (stream.next host).2.2 (stream.next host).2.1.elements := by
  unfold RenderStream.next
  split
  · exact sound
  · split
    · exact IsSound.close sound
    · split
      · have asked := sound.refreshElements
        rcases outcome : refreshElements host stream.elements with ⟨_ | _, elements, after⟩ <;>
          rw [outcome] at asked <;> exact asked
      · exact sound.pullElements

theorem Reached.isSound {stream : RenderStream W} {host : Host W}
    (reached : Reached template context viewer config stream host) :
    IsSound host stream.elements := by
  induction reached with
  | opened host =>
    refine isSound_of_blank (fun steps last member cell inside => ?_) host
    obtain ⟨bound, -, same⟩ := List.mem_map.mp member
    cases bound with
    | text raw => cases same
    | placeholder placeholder =>
      cases same
      exact isBlank_ofInstruction _ cell inside
  | moved _ spares ih => exact ⟨ih.filled, ih.holds.spare spares⟩
  | polled _ ih => exact IsSound.next ih
  | cancelled _ ih => exact ih
  | closed _ ih => exact IsSound.close ih

/-- In each state asking a chain for a change is racing for the first signal in its feeds. -/
theorem Reached.races_changed {stream : RenderStream W} {host : Host W}
    (reached : Reached template context viewer config stream host) {steps : WatchChain W}
    {last : String} (member : .chain steps last ∈ stream.elements) :
    Races host steps.cells
      ((steps.changed host).1, (steps.changed host).2.1.cells, (steps.changed host).2.2) := by
  have inner : (cellFeeds steps.cells).Sublist (elementFeeds stream.elements) := by
    rw [elementFeeds, List.flatMap_def]
    exact List.sublist_flatten_of_mem (List.mem_map_of_mem member)
  have raced := @races_changedCells _ _ [] _ (reached.isSound.holds.sublist inner)
    fun _ member => absurd member List.not_mem_nil
  exact raced

/-- What a poll does when the first signal waits at a cell: it takes this signal and pulls the
element. -/
structure Fires (stream : RenderStream W) (host : Host W) (firing : Firing host stream.elements) :
    Prop where
  /-- One text comes of it, and only the element with the signal is pulled. -/
  next : stream.next host =
    (.text firing.text, { stream with elements := firing.elementsAfter }, firing.pulled.2.2)
  /-- The cells before the one with the signal keep what they have, but for ended feeds. -/
  front : ∃ rest, firing.pulled.2.1 = firing.front.map (Cell.forgetEnded host) ++ rest
  /-- The feeds from that cell on are cancelled before the pull. -/
  cut : ∀ id ∈ firing.cut, firing.taken.isCancelled id = true
  /-- Before the pull the hooks of the feeds that are given up are run, and nothing else. -/
  hooks : firing.taken.calls = host.calls ++
    (firing.passed.filter host.hasEnded ++ firing.cut).filterMap host.hookCall?
  /-- Of all waiting signals this one is taken. -/
  taken : ∀ id feed, host.feed? id = some feed → ∃ later, firing.pulled.2.2.feed? id = some later ∧
    feed.queued = later.queued + if id = firing.id then 1 else 0
  /-- All feeds but these and ended ones that were asked before are as they were. -/
  others : ∀ id feed, host.feed? id = some feed → id ∉ firing.cut →
    (id ∈ firing.passed → host.hasEnded id = false) → firing.pulled.2.2.feed? id = some feed

/-- What a poll does when no signal waits: it gives up ended feeds. -/
structure Rests (stream : RenderStream W) (host : Host W) : Prop where
  next : stream.next host = (.pending,
    { stream with elements := stream.elements.map (LiveElement.forgetEnded host) },
    host.dropEnded (elementFeeds stream.elements))
  texts : (stream.elements.map (LiveElement.forgetEnded host)).map LiveElement.current =
    stream.elements.map LiveElement.current
  hooks : (host.dropEnded (elementFeeds stream.elements)).calls = host.calls ++
    ((elementFeeds stream.elements).filter host.hasEnded).filterMap host.hookCall?
  signals : ∀ id feed, host.feed? id = some feed → ∃ later,
    (host.dropEnded (elementFeeds stream.elements)).feed? id = some later ∧
      later.queued = feed.queued
  others : ∀ id feed, host.feed? id = some feed →
    (id ∈ elementFeeds stream.elements → host.hasEnded id = false) →
    (host.dropEnded (elementFeeds stream.elements)).feed? id = some feed

variable {stream : RenderStream W} {host : Host W}

theorem fires_of_isSound (sound : IsSound host stream.elements) (isOpen : stream.closed = false)
    (uncancelled : stream.cancelled = false) (started : stream.started = true)
    (firing : Firing host stream.elements) : stream.Fires host firing where
  next := by
    have text : current firing.elementsAfter = firing.text := by
      rw [current, Firing.elementsAfter, List.map_append, map_current_forgetEnded]
      rfl
    simp only [RenderStream.next, isOpen, uncancelled, started, firing.refreshElements_eq sound,
      text, Bool.false_eq_true, if_false, if_true]
  front := pullCells_front _ _ (firing.computed_front sound) _
  cut := fun _ member => firing.isCancelled_taken member
  hooks := firing.calls_taken sound
  taken := by
    intro id feed found
    obtain ⟨later, present, count⟩ := firing.exists_feed?_taken found
    exact ⟨later, firing.feed?_pulled sound present, count⟩
  others := by
    intro id feed found uncut lasts
    exact firing.feed?_pulled sound ((firing.feed?_taken uncut lasts).trans found)

theorem rests_of_isSound (sound : IsSound host stream.elements) (isOpen : stream.closed = false)
    (uncancelled : stream.cancelled = false) (started : stream.started = true)
    (quiet : stream.IsQuiet host) : stream.Rests host where
  next := by
    simp only [RenderStream.next, isOpen, uncancelled, started,
      refreshElements_of_quiet sound.holds quiet, Bool.false_eq_true, if_false, if_true]
  texts := map_current_forgetEnded host stream.elements
  hooks := (sound.holds.sublist List.filter_sublist).calls_dropAll
  signals := fun _ _ found => Host.exists_feed?_dropAll found _
  others := by
    intro id feed found lasts
    refine (Host.feed?_dropAll_of_notMem fun dropped => ?_).trans found
    obtain ⟨member, ended⟩ := List.mem_filter.mp dropped
    rw [lasts member] at ended
    cases ended

/-- One signal, one text. Whatever has been signalled and has ended, a poll of a started stream
that nobody has closed or cancelled takes the first signal that waits, in the order of elements
and steps, and gives a text; when none waits it is pending and nothing is lost. -/
theorem Reached.fires_or_rests (reached : Reached template context viewer config stream host)
    (isOpen : stream.closed = false) (uncancelled : stream.cancelled = false)
    (started : stream.started = true) :
    (¬ stream.IsQuiet host → ∃ firing : Firing host stream.elements, stream.Fires host firing) ∧
      (stream.IsQuiet host → stream.Rests host) := by
  have sound := reached.isSound
  refine ⟨fun loud => ?_, rests_of_isSound sound isOpen uncancelled started⟩
  obtain ⟨firing⟩ := exists_firing loud
  exact ⟨firing, fires_of_isSound sound isOpen uncancelled started firing⟩

/-- The clock has been read, rests, and is read again when it has struck. -/
theorem fires_or_rests_clock :
    let opened := ofBound clock (.context []) none {}
    let shown := (opened.next { state := "1" }).2
    let struck := shown.2.announce "2"
    shown.1.Rests shown.2 ∧
      (∃ firing : Firing struck shown.1.elements, shown.1.Fires struck firing) ∧
      (shown.1.next struck).1 = .text "now 2" := by
  intro opened shown struck
  have reached : Reached clock (.context []) none {} shown.1 shown.2 := .polled (.opened _)
  have feeds : shown.2.feeds = [⟨⟨none, 0, false, none⟩, false⟩] := rfl
  have held : elementFeeds shown.1.elements = [0] := rfl
  have moves : shown.2.Evolves struck := Host.evolves_announce (by simp [feeds]) "2"
  have quiet : shown.1.IsQuiet shown.2 := by
    intro id member feed found _
    rw [held, List.mem_singleton] at member
    subst member
    rw [Host.feed?, feeds] at found
    cases found
    rfl
  have loud : ¬ shown.1.IsQuiet struck := by
    intro silent
    have none := silent 0 (by simp [held]) ⟨⟨none, 1, false, none⟩, false⟩ rfl rfl
    cases none
  exact ⟨(reached.fires_or_rests rfl rfl rfl).2 quiet,
    ((Reached.moved reached (moves.spares _)).fires_or_rests rfl rfl rfl).1 loud, rfl⟩

end RenderStream

end TypedTemplate
