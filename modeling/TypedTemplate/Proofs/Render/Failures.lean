import TypedTemplate.Proofs.Render.Shutdown
import TypedTemplate.Proofs.Render.Unfailing

/-!
Failing cancel hooks change nothing but the reported error. Two runs of the same operations whose
hooks differ in nothing but their failures stay alike, and what an operation reports is the first
failure among the feeds that it invalidates, in the order of elements and steps
(`differ_in_errors`). All these feeds are cancelled, whatever is reported.
-/
namespace TypedTemplate

variable {W : Type}

namespace Host

variable {host after : Host W} {held : List FeedId} {id : FeedId}

theorem Holds.poll (holds : host.Holds held) (id : FeedId) : (host.poll id).2.Holds held := by
  rcases host.poll_cases id with ⟨polled, -⟩ | ⟨polled, -⟩ | ⟨feed, queued, found, -, -, polled⟩
  · rw [polled]
    exact holds
  · rw [polled]
    exact holds
  · rw [polled]
    exact holds_isKept.take queued holds found

/-- The message with which the hook of a feed fails, if it does. -/
def hookFailure? (host : Host W) (id : FeedId) : Option String :=
  (host.feed? id).bind fun feed => feed.hook.bind CancelHook.failure

theorem hookFailure?_dropAll (host : Host W) (ids : List FeedId) (id : FeedId) :
    (host.dropAll ids).hookFailure? id = host.hookFailure? id := by
  rw [hookFailure?, hookFailure?, feed?_dropAll]
  split
  · cases host.feed? id <;> rfl
  · rfl

theorem hookFailure?_poll (host : Host W) (id other : FeedId) :
    (host.poll id).2.hookFailure? other = host.hookFailure? other := by
  rcases host.poll_cases id with ⟨polled, -⟩ | ⟨polled, -⟩ | ⟨feed, queued, found, -, -, polled⟩
  · rw [polled]
  · rw [polled]
  · rw [polled]
    by_cases same : other = id
    · subst same
      rw [hookFailure?, hookFailure?, host.feed?_setFeed_self _ found, found]
      rfl
    · rw [hookFailure?, hookFailure?, host.feed?_setFeed_of_ne _ same]

/-- Cancelling a held feed fails as its hook does. -/
theorem Holds.cancel_eq (holds : host.Holds held) (member : id ∈ held) :
    (host.cancel id).1 =
      match host.hookFailure? id with
      | none => .ok ()
      | some message => .error message := by
  obtain ⟨feed, found, live⟩ := holds.exists_feed member
  rw [hookFailure?, Host.cancel, found]
  simp only [live, Bool.false_eq_true, if_false, Option.bind_some]
  cases feed.hook with
  | none => rfl
  | some hook => cases hooked : hook.failure <;> simp [hooked]

end Host

/-! ## What fails -/

/-- The failure that cancelling the feed of a cell comes to. -/
def Cell.failure? (host : Host W) (step : Nat) (cell : Cell W) : Option CancelError :=
  cell.feed.bind fun id => (host.hookFailure? id).map fun message => ⟨step, message⟩

/-- The failures of the hooks of some cells, in the order of their steps, the first of which has
the number `step`. -/
def cellFailures (host : Host W) (step : Nat) (cells : List (Cell W)) : List CancelError :=
  (cells.zipIdx step).filterMap fun (cell, step) => cell.failure? host step

theorem cellFailures_cons (host : Host W) (step : Nat) (cell : Cell W) (rest : List (Cell W)) :
    cellFailures host step (cell :: rest) =
      (cell.failure? host step).toList ++ cellFailures host (step + 1) rest := by
  rw [cellFailures, List.zipIdx_cons, List.filterMap_cons]
  dsimp only
  cases cell.failure? host step <;> rfl

theorem cellFailures_congr {host after : Host W}
    (same : ∀ id, after.hookFailure? id = host.hookFailure? id) (step : Nat)
    (cells : List (Cell W)) : cellFailures after step cells = cellFailures host step cells := by
  have sameCell (cell : Cell W) (step : Nat) :
      cell.failure? after step = cell.failure? host step := by
    simp only [Cell.failure?, same]
  simp only [cellFailures, sameCell]

open WatchChain

/-- Invalidating a cell reports the failure of its hook. -/
theorem Cell.invalidate_fst {host : Host W} {cell : Cell W}
    (holds : host.Holds cell.feed.toList) (step : Nat) :
    (cell.invalidate host step).1 = cell.failure? host step := by
  unfold invalidate failure?
  cases held : cell.feed with
  | none => rfl
  | some id =>
    have failed := holds.cancel_eq (by simp [held] : id ∈ cell.feed.toList)
    rcases cancelled : host.cancel id with ⟨result, after⟩
    rw [cancelled] at failed
    dsimp only at failed ⊢
    rw [cancelled, failed, Option.bind_some]
    cases host.hookFailure? id <;> rfl

/-- Of the failures that invalidating comes to the first is reported. -/
theorem invalidateCells_failure {host : Host W} {cells : List (Cell W)}
    (holds : host.Holds (cellFeeds cells)) (step : Nat) :
    (invalidateCells host step cells).1 = (cellFailures host step cells).head? := by
  induction cells generalizing host step with
  | nil => rfl
  | cons cell rest ih =>
    rw [cellFeeds_cons] at holds
    have first := cell.invalidate_fst holds.left step
    have outcome := cell.invalidate_snd host step
    have onward : (cell.release host).Holds (cellFeeds rest) :=
      Host.holds_isKept.release (holds.perm List.perm_append_comm)
    have hooks (id : FeedId) : (cell.release host).hookFailure? id = host.hookFailure? id := by
      have released := foldl_release host [cell]
      rw [List.foldl_cons, List.foldl_nil] at released
      rw [released, Host.hookFailure?_dropAll]
    have later := ih onward (step + 1)
    rw [cellFailures_congr hooks] at later
    rw [invalidateCells, cellFailures_cons, List.head?_append, ← later, ← first]
    rcases cut : cell.invalidate host step with ⟨failure, cleared, after⟩
    rw [cut] at outcome
    cases outcome
    cases failure <;> rfl

theorem isCancelled_invalidateCells {host : Host W} {cells : List (Cell W)} {id : FeedId}
    (member : id ∈ cellFeeds cells) (step : Nat) :
    (invalidateCells host step cells).2.2.isCancelled id = true := by
  rw [invalidateCells_host, foldl_release]
  exact Host.isCancelled_dropAll host member

namespace WatchChain

/-- The failures of the hooks of the steps from a number on. -/
def failures (chain : WatchChain W) (host : Host W) (step : Nat) : List CancelError :=
  cellFailures host step (chain.cells.drop step)

/-- The first step whose feed has a signal waiting. -/
def firstSignal? (chain : WatchChain W) (host : Host W) : Option Nat :=
  chain.cells.findIdx? fun cell => cell.feed.any fun id => (host.poll id).1 = .signal

/-- What the operations on a chain report, and that they cancel what they have to, whatever
they report. -/
structure Reports (chain : WatchChain W) (host : Host W) : Prop where
  invalidateFrom : ∀ step,
    (chain.invalidateFrom host step).1 = toExcept (chain.failures host step).head? ∧
    ∀ id ∈ cellFeeds (chain.cells.drop step),
      (chain.invalidateFrom host step).2.2.isCancelled id = true
  close : (chain.close host).1 = toExcept (chain.failures host 0).head? ∧
    ∀ id ∈ cellFeeds chain.cells, (chain.close host).2.2.isCancelled id = true
  /-- Hooks of ended feeds that are forgotten are not reported. -/
  pending : chain.firstSignal? host = none → (chain.changed host).1 = .pending
  /-- The steps from the one with the signal on are invalid even if a hook has failed. -/
  changed : ∀ step, chain.firstSignal? host = some step →
    (chain.changed host).1 = .ofInvalidation step (chain.failures host step).head? ∧
    (chain.changed host).2.1.cells =
      (chain.cells.take step).map (Cell.forgetEnded host) ++
        (chain.cells.drop step).map Cell.cleared ∧
    ∀ id ∈ cellFeeds (chain.cells.drop step), (chain.changed host).2.2.isCancelled id = true

variable {chain : WatchChain W} {host : Host W}

theorem invalidateFrom_reports (holds : host.Holds (cellFeeds chain.cells)) (step : Nat) :
    (chain.invalidateFrom host step).1 = toExcept (chain.failures host step).head? ∧
      ∀ id ∈ cellFeeds (chain.cells.drop step),
        (chain.invalidateFrom host step).2.2.isCancelled id = true := by
  rw [← List.take_append_drop step chain.cells, cellFeeds_append] at holds
  rw [invalidateFrom]
  dsimp only
  rw [invalidateCells_failure holds.right]
  exact ⟨rfl, fun id member => isCancelled_invalidateCells member step⟩

theorem isQuiet_of_poll {id : FeedId} (silent : (host.poll id).1 ≠ .signal) : host.IsQuiet id := by
  by_contra loud
  obtain ⟨feed, queued, -, -, polled⟩ := Host.poll_of_signal loud
  rw [polled] at silent
  exact silent rfl

theorem pending_of_firstSignal? (holds : host.Holds (cellFeeds chain.cells))
    (none : chain.firstSignal? host = none) : (chain.changed host).1 = .pending := by
  have quiet : ∀ id ∈ cellFeeds chain.cells, host.IsQuiet id := by
    intro id member
    obtain ⟨cell, inside, held⟩ := mem_cellFeeds.mp member
    have silent := List.findIdx?_eq_none_iff.mp none cell inside
    refine isQuiet_of_poll fun signal => ?_
    simp [held, signal] at silent
  have asked := changedCells_append holds quiet 0 []
  rw [List.append_nil] at asked
  rw [changed, asked]
  rfl

theorem changedCells_signal {cell : Cell W} {id : FeedId} (held : cell.feed = some id)
    (signal : (host.poll id).1 = .signal) (step : Nat) (rest : List (Cell W)) :
    changedCells host step (cell :: rest) =
      (let cut := invalidateCells (host.poll id).2 step (cell :: rest)
       (.ofInvalidation step cut.1, cut.2.1, cut.2.2)) := by
  rcases polled : host.poll id with ⟨answer, taken⟩
  rw [polled] at signal
  obtain rfl : answer = .signal := signal
  simp only [changedCells, held, polled]

theorem changed_of_firstSignal? (holds : host.Holds (cellFeeds chain.cells)) {step : Nat}
    (first : chain.firstSignal? host = some step) :
    (chain.changed host).1 = .ofInvalidation step (chain.failures host step).head? ∧
      (chain.changed host).2.1.cells =
        (chain.cells.take step).map (Cell.forgetEnded host) ++
          (chain.cells.drop step).map Cell.cleared ∧
      ∀ id ∈ cellFeeds (chain.cells.drop step), (chain.changed host).2.2.isCancelled id = true := by
  obtain ⟨inside, fires, before⟩ := List.findIdx?_eq_some_iff_getElem.mp first
  obtain ⟨id, held, signal⟩ : ∃ id, chain.cells[step].feed = some id ∧
      (host.poll id).1 = .signal := by
    cases held : chain.cells[step].feed with
    | none => simp [held] at fires
    | some id => exact ⟨id, rfl, by simpa [held] using fires⟩
  have quiet : ∀ other ∈ cellFeeds (chain.cells.take step), host.IsQuiet other := by
    intro other member
    obtain ⟨cell, among, held⟩ := mem_cellFeeds.mp member
    obtain ⟨index, less, rfl⟩ := List.mem_take_iff_getElem.mp among
    have silent := before index (by omega)
    refine isQuiet_of_poll fun signal => ?_
    simp [held, signal] at silent
  have cells := List.take_append_drop step chain.cells
  have behind : chain.cells.drop step = chain.cells[step] :: chain.cells.drop (step + 1) :=
    List.drop_eq_getElem_cons inside
  have length : 0 + (chain.cells.take step).length = step := by
    rw [List.length_take]
    omega
  rw [← cells, cellFeeds_append] at holds
  -- The feeds in front are not those behind, where the signal still waits.
  have agrees : host.Agrees (host.dropEnded (cellFeeds (chain.cells.take step)))
      (cellFeeds (chain.cells.drop step)) := Host.agrees_dropEnded holds.apart
  have still : ((host.dropEnded (cellFeeds (chain.cells.take step))).poll id).1 = .signal := by
    have among : id ∈ cellFeeds (chain.cells.drop step) := behind ▸ mem_cellFeeds_head held
    rw [Host.poll_congr (agrees id among), signal]
  have onward := changedCells_signal held still step (chain.cells.drop (step + 1))
  have asked := changedCells_append holds.left quiet 0 (chain.cells.drop step)
  rw [cells, length, behind, onward, ← behind] at asked
  have hooks (other : FeedId) : ((host.dropEnded (cellFeeds (chain.cells.take step))).poll
      id).2.hookFailure? other = host.hookFailure? other := by
    rw [Host.hookFailure?_poll, Host.dropEnded, Host.hookFailure?_dropAll]
  have reported := invalidateCells_failure ((holds.right.agrees agrees).poll id) step
  rw [cellFailures_congr hooks] at reported
  rw [changed, asked]
  dsimp only
  rw [reported, invalidateCells_cells]
  exact ⟨rfl, rfl, fun other member => isCancelled_invalidateCells member step⟩

theorem reports_of_holds (holds : host.Holds (cellFeeds chain.cells)) : chain.Reports host where
  invalidateFrom := invalidateFrom_reports holds
  close := invalidateFrom_reports holds 0
  pending := pending_of_firstSignal? holds
  changed := fun _ => changed_of_firstSignal? holds

theorem firstSignal?_unfailing (chain : WatchChain W) (host : Host W) :
    chain.unfailing.firstSignal? host.unfailing = chain.firstSignal? host := by
  rw [firstSignal?, unfailing, List.findIdx?_map]
  simp only [host.unfailing_poll]
  rfl

end WatchChain

/-! ## Two chains -/

namespace WatchChain

/-- Two runs of the same operations on chains whose hooks differ in nothing but whether they fail,
and with which messages. The world may do anything in between but cancel the feeds that are
held. -/
inductive Twins : WatchChain W → Host W → WatchChain W → Host W → Prop
  | created {host away : Host W} (hosts : host.unfailing = away.unfailing) :
      Twins empty host empty away
  | moved {chain other : WatchChain W} {host away after left : Host W}
      (twins : Twins chain host other away) (spares : host.Spares after (cellFeeds chain.cells))
      (hosts : after.unfailing = left.unfailing) : Twins chain after other left
  | appended {chain other : WatchChain W} {host away : Host W}
      (twins : Twins chain host other away) {step twin : Step W}
      (steps : step.unfailing = twin.unfailing) :
      Twins (chain.append step) host (other.append twin) away
  | armEnded {chain other : WatchChain W} {host away : Host W}
      (twins : Twins chain host other away) : Twins chain.endArm host other.endArm away
  | pulled {chain other : WatchChain W} {host away : Host W}
      (twins : Twins chain host other away) :
      Twins (chain.pull host).2.1 (chain.pull host).2.2
        (other.pull away).2.1 (other.pull away).2.2
  | asked {chain other : WatchChain W} {host away : Host W}
      (twins : Twins chain host other away) :
      Twins (chain.changed host).2.1 (chain.changed host).2.2
        (other.changed away).2.1 (other.changed away).2.2
  | invalidated {chain other : WatchChain W} {host away : Host W}
      (twins : Twins chain host other away) (step : Nat) :
      Twins (chain.invalidateFrom host step).2.1 (chain.invalidateFrom host step).2.2
        (other.invalidateFrom away step).2.1 (other.invalidateFrom away step).2.2
  | closed {chain other : WatchChain W} {host away : Host W}
      (twins : Twins chain host other away) :
      Twins (chain.close host).2.1 (chain.close host).2.2
        (other.close away).2.1 (other.close away).2.2

/-- What two such runs keep: the caches, the feeds and the calls are the same but for the failures
of hooks, and the feeds that are held are live. -/
structure Alike (chain : WatchChain W) (host : Host W) (other : WatchChain W) (away : Host W) :
    Prop where
  chains : chain.unfailing = other.unfailing
  hosts : host.unfailing = away.unfailing
  holds : host.Holds (cellFeeds chain.cells)

namespace Alike

variable {chain other : WatchChain W} {host away : Host W} (alike : Alike chain host other away)

include alike

theorem holdsTwin : away.Holds (cellFeeds other.cells) := by
  have feeds : cellFeeds other.unfailing.cells = cellFeeds chain.unfailing.cells := by
    rw [alike.chains]
  rw [unfailing, unfailing, cellFeeds_unfailing, cellFeeds_unfailing] at feeds
  rw [feeds, ← away.unfailing_holds, ← alike.hosts, host.unfailing_holds]
  exact alike.holds

theorem firstSignal?_eq : chain.firstSignal? host = other.firstSignal? away := by
  rw [← firstSignal?_unfailing, alike.chains, alike.hosts, firstSignal?_unfailing]

theorem text_eq : (chain.pull host).1 = (other.pull away).1 := by
  have first := chain.unfailing_pull host
  rw [alike.chains, alike.hosts, other.unfailing_pull] at first
  exact (congrArg Prod.fst first).symm

theorem pull : Alike (chain.pull host).2.1 (chain.pull host).2.2
    (other.pull away).2.1 (other.pull away).2.2 := by
  have first := chain.unfailing_pull host
  rw [alike.chains, alike.hosts, other.unfailing_pull, Prod.mk.injEq, Prod.mk.injEq] at first
  obtain ⟨-, chains, hosts⟩ := first
  exact ⟨chains.symm, hosts.symm,
    @Host.IsKept.pullCells _ _ Host.holds_isKept host [] .initial _ alike.holds⟩

theorem ask : Alike (chain.changed host).2.1 (chain.changed host).2.2
    (other.changed away).2.1 (other.changed away).2.2 := by
  have first := unfailing_changedCells host 0 chain.cells
  have twin := unfailing_changedCells away 0 other.cells
  have cells : chain.cells.map Cell.unfailing = other.cells.map Cell.unfailing :=
    congrArg WatchChain.cells alike.chains
  rw [cells, alike.hosts] at first
  exact ⟨congrArg WatchChain.mk (first.cells.symm.trans twin.cells),
    first.host.symm.trans twin.host,
    @Host.IsKept.changedCells _ _ Host.holds_isKept host [] 0 _ alike.holds⟩

theorem invalidate (step : Nat) :
    Alike (chain.invalidateFrom host step).2.1 (chain.invalidateFrom host step).2.2
      (other.invalidateFrom away step).2.1 (other.invalidateFrom away step).2.2 := by
  obtain ⟨chains, hosts⟩ := chain.unfailing_invalidateFrom host step
  obtain ⟨others, aways⟩ := other.unfailing_invalidateFrom away step
  rw [alike.chains, alike.hosts] at chains hosts
  exact ⟨chains.symm.trans others, hosts.symm.trans aways,
    Host.holds_isKept.invalidateFrom step alike.holds⟩

theorem append {step twin : Step W} (steps : step.unfailing = twin.unfailing) :
    Alike (chain.append step) host (other.append twin) away := by
  refine ⟨?_, alike.hosts, ?_⟩
  · rw [unfailing_append, unfailing_append, alike.chains, steps]
  · rw [WatchChain.append, cellFeeds_append]
    simpa [cellFeeds, Cell.ofInstruction] using alike.holds

theorem endArm : Alike chain.endArm host other.endArm away := by
  refine ⟨?_, alike.hosts, ?_⟩
  · rw [unfailing_endArm, unfailing_endArm, alike.chains]
  · rw [WatchChain.endArm, cellFeeds_markLast]
    exact alike.holds

end Alike

theorem Twins.alike {chain other : WatchChain W} {host away : Host W}
    (twins : Twins chain host other away) : Alike chain host other away := by
  induction twins with
  | created hosts => exact ⟨rfl, hosts, Host.holds_nil _⟩
  | moved _ spares hosts ih => exact ⟨ih.chains, hosts, ih.holds.spare spares⟩
  | appended _ steps ih => exact ih.append steps
  | armEnded _ ih => exact ih.endArm
  | pulled _ ih => exact ih.pull
  | asked _ ih => exact ih.ask
  | invalidated _ step ih => exact ih.invalidate step
  | closed _ ih => exact ih.invalidate 0

/-- Nothing that two chains do depends on failures but the errors, and these are as they have to
be in both. -/
structure DifferInErrors (chain : WatchChain W) (host : Host W) (other : WatchChain W)
    (away : Host W) : Prop where
  chains : chain.unfailing = other.unfailing
  hosts : host.unfailing = away.unfailing
  texts : (chain.pull host).1 = (other.pull away).1
  signals : chain.firstSignal? host = other.firstSignal? away
  reports : chain.Reports host
  twin : other.Reports away

theorem Alike.differ {chain other : WatchChain W} {host away : Host W}
    (alike : Alike chain host other away) : DifferInErrors chain host other away :=
  ⟨alike.chains, alike.hosts, alike.text_eq, alike.firstSignal?_eq,
    reports_of_holds alike.holds, reports_of_holds alike.holdsTwin⟩

end WatchChain

/-! ## Two streams -/

/-- The failures of the hooks of an element, in the order of its steps. -/
def LiveElement.failures (host : Host W) : LiveElement W → List CancelError
  | text _ => []
  | chain steps _ => steps.failures host 0

theorem LiveElement.failures_congr {host after : Host W}
    (same : ∀ id, after.hookFailure? id = host.hookFailure? id) (element : LiveElement W) :
    element.failures after = element.failures host := by
  cases element with
  | text raw => rfl
  | chain steps last => exact cellFailures_congr same 0 _

theorem LiveElement.close_fst {host : Host W} {element : LiveElement W}
    (holds : host.Holds element.feeds) :
    (element.close host).1 = (element.failures host).head? := by
  cases element with
  | text raw => rfl
  | chain steps last =>
    have reported : (steps.close host).1 = toExcept (steps.failures host 0).head? :=
      (invalidateFrom_reports holds 0).1
    rw [close, failures]
    rcases closed : steps.close host with ⟨result, cells, after⟩
    rw [closed] at reported
    dsimp only at reported
    rw [reported]
    cases (steps.failures host 0).head? <;> rfl

/-- Of the failures of all elements the first is reported. -/
theorem closeElements_failure {host : Host W} {elements : List (LiveElement W)}
    (holds : host.Holds (elementFeeds elements)) :
    (RenderStream.closeElements host elements).1 =
      (elements.flatMap (LiveElement.failures host)).head? := by
  induction elements generalizing host with
  | nil => rfl
  | cons element rest ih =>
    rw [elementFeeds_cons] at holds
    have first := LiveElement.close_fst holds.left
    have dropped : (element.close host).2.2 = host.dropAll element.feeds := element.close_host host
    have onward : (host.dropAll element.feeds).Holds (elementFeeds rest) :=
      Host.holds_isKept.dropAll (holds.perm List.perm_append_comm)
    have hooks := host.hookFailure?_dropAll element.feeds
    have later := ih onward
    rw [List.flatMap_congr fun other _ => other.failures_congr hooks] at later
    rw [RenderStream.closeElements, List.flatMap_cons, List.head?_append, ← first, ← later,
      ← dropped]

namespace RenderStream

/-- The failures of all hooks, in the order of elements and steps. -/
def failures (stream : RenderStream W) (host : Host W) : List CancelError :=
  stream.elements.flatMap (LiveElement.failures host)

/-- What closing a stream reports, and that it cancels every feed, whatever it reports. -/
structure Reports (stream : RenderStream W) (host : Host W) : Prop where
  close : stream.closed = false →
    (stream.close host).1 = WatchChain.toExcept (stream.failures host).head? ∧
    ∀ id ∈ elementFeeds stream.elements, (stream.close host).2.2.isCancelled id = true
  again : stream.closed = true → stream.close host = (.ok (), stream, host)

theorem reports_of_holds {stream : RenderStream W} {host : Host W}
    (holds : host.Holds (elementFeeds stream.elements)) : stream.Reports host where
  close := by
    intro isOpen
    rw [RenderStream.close, if_neg (by simp [isOpen])]
    dsimp only
    rw [closeElements_failure holds, closeElements_host]
    exact ⟨rfl, fun id member => Host.isCancelled_dropAll host member⟩
  again := fun closed => close_of_closed closed host

/-- Two runs of the same operations on streams whose hooks differ in nothing but whether they
fail, and with which messages. -/
inductive Twins : RenderStream W → Host W → RenderStream W → Host W → Prop
  | opened {template twin : BoundTemplate W} {context : Value} {viewer : Option Value}
      {config : Config} {host away : Host W}
      (programs : (ofBound template context viewer config).unfailing =
        (ofBound twin context viewer config).unfailing)
      (hosts : host.unfailing = away.unfailing) :
      Twins (ofBound template context viewer config) host (ofBound twin context viewer config) away
  | moved {stream other : RenderStream W} {host away after left : Host W}
      (twins : Twins stream host other away)
      (spares : host.Spares after (elementFeeds stream.elements))
      (hosts : after.unfailing = left.unfailing) : Twins stream after other left
  | polled {stream other : RenderStream W} {host away : Host W}
      (twins : Twins stream host other away) :
      Twins (stream.next host).2.1 (stream.next host).2.2 (other.next away).2.1
        (other.next away).2.2
  | cancelled {stream other : RenderStream W} {host away : Host W}
      (twins : Twins stream host other away) : Twins stream.cancel host other.cancel away
  | closed {stream other : RenderStream W} {host away : Host W}
      (twins : Twins stream host other away) :
      Twins (stream.close host).2.1 (stream.close host).2.2 (other.close away).2.1
        (other.close away).2.2

/-- What two such runs keep. -/
structure Alike (stream : RenderStream W) (host : Host W) (other : RenderStream W)
    (away : Host W) : Prop where
  streams : stream.unfailing = other.unfailing
  hosts : host.unfailing = away.unfailing
  holds : host.Holds (elementFeeds stream.elements)

namespace Alike

variable {stream other : RenderStream W} {host away : Host W}
  (alike : Alike stream host other away)

include alike

theorem holdsTwin : away.Holds (elementFeeds other.elements) := by
  have feeds : elementFeeds other.unfailing.elements = elementFeeds stream.unfailing.elements := by
    rw [alike.streams]
  rw [unfailing, unfailing, elementFeeds_unfailing, elementFeeds_unfailing] at feeds
  rw [feeds, ← away.unfailing_holds, ← alike.hosts, host.unfailing_holds]
  exact alike.holds

theorem next_eq : (stream.next host).1 = (other.next away).1 := by
  have first := stream.unfailing_next host
  rw [alike.streams, alike.hosts, other.unfailing_next] at first
  exact (congrArg Prod.fst first).symm

theorem next : Alike (stream.next host).2.1 (stream.next host).2.2 (other.next away).2.1
    (other.next away).2.2 := by
  have first := stream.unfailing_next host
  rw [alike.streams, alike.hosts, other.unfailing_next, Prod.mk.injEq, Prod.mk.injEq] at first
  obtain ⟨-, streams, hosts⟩ := first
  exact ⟨streams.symm, hosts.symm, Host.holds_isKept.next alike.holds⟩

theorem cancel : Alike stream.cancel host other.cancel away := by
  refine ⟨?_, alike.hosts, alike.holds⟩
  have streams := congrArg RenderStream.cancel alike.streams
  exact streams

theorem close : Alike (stream.close host).2.1 (stream.close host).2.2 (other.close away).2.1
    (other.close away).2.2 := by
  obtain ⟨streams, hosts⟩ := stream.unfailing_close host
  obtain ⟨others, aways⟩ := other.unfailing_close away
  rw [alike.streams, alike.hosts] at streams hosts
  exact ⟨streams.symm.trans others, hosts.symm.trans aways, Host.holds_isKept.close alike.holds⟩

end Alike

theorem Twins.alike {stream other : RenderStream W} {host away : Host W}
    (twins : Twins stream host other away) : Alike stream host other away := by
  induction twins with
  | opened programs hosts =>
    refine ⟨programs, hosts, ?_⟩
    rw [elementFeeds_ofBound]
    exact Host.holds_nil _
  | moved _ spares hosts ih => exact ⟨ih.streams, hosts, ih.holds.spare spares⟩
  | polled _ ih => exact ih.next
  | cancelled _ ih => exact ih.cancel
  | closed _ ih => exact ih.close

/-- Nothing that two streams do depends on failures but the errors of closing, and these are as
they have to be in both. -/
structure DifferInErrors (stream : RenderStream W) (host : Host W) (other : RenderStream W)
    (away : Host W) : Prop where
  streams : stream.unfailing = other.unfailing
  hosts : host.unfailing = away.unfailing
  next : (stream.next host).1 = (other.next away).1
  reports : stream.Reports host
  twin : other.Reports away

theorem Alike.differ {stream other : RenderStream W} {host away : Host W}
    (alike : Alike stream host other away) : DifferInErrors stream host other away :=
  ⟨alike.streams, alike.hosts, alike.next_eq, reports_of_holds alike.holds,
    reports_of_holds alike.holdsTwin⟩

end RenderStream

/-- Failing cancel hooks change nothing but the reported error. Two runs of the same operations
that differ only in whether and how hooks fail have the same caches, feeds, calls and texts at
every point; an operation that reports an error reports the first failure among the feeds that it
invalidates, and reports none if none of their hooks fails; and all of these feeds are cancelled in
any case. -/
theorem differ_in_errors :
    (∀ {chain other : WatchChain W} {host away : Host W},
      WatchChain.Twins chain host other away →
        WatchChain.DifferInErrors chain host other away) ∧
    (∀ {stream other : RenderStream W} {host away : Host W},
      RenderStream.Twins stream host other away →
        RenderStream.DifferInErrors stream host other away) :=
  ⟨fun twins => twins.alike.differ, fun twins => twins.alike.differ⟩

/-- A clock whose hook fails beside one whose hook does not: the chains have been read, have been
asked when it has struck and are read again; the streams have shown the clock. -/
theorem differ_in_errors_strikingClock :
    let made (clock : Mapping String) :=
      ((WatchChain.empty.append (.begin (.context []))).append (.map clock))
    let start : Host String := { state := "1" }
    let read (clock : Mapping String) := ((made clock).pull start).2
    let struck (clock : Mapping String) := ((read clock).2.signal 0).2
    let asked (clock : Mapping String) := (read clock).1.changed (struck clock)
    let template (clock : Mapping String) : BoundTemplate String :=
      ⟨[.placeholder ⟨"clock", [⟨.cons clock .nil .nil, clockText⟩]⟩]⟩
    let shown (clock : Mapping String) :=
      ((RenderStream.ofBound (template clock) (.context []) none {}).next start).2
    (asked strikingClock).1 = .failed ⟨1, "stuck"⟩ ∧
      (asked strikingClock.unfailing).1 = .changed 1 ∧
      WatchChain.DifferInErrors (asked strikingClock).2.1 (asked strikingClock).2.2
        (asked strikingClock.unfailing).2.1 (asked strikingClock.unfailing).2.2 ∧
      ((shown strikingClock).1.close (shown strikingClock).2).1 = .error ⟨1, "stuck"⟩ ∧
      RenderStream.DifferInErrors (shown strikingClock).1 (shown strikingClock).2
        (shown strikingClock.unfailing).1 (shown strikingClock.unfailing).2 := by
  intro made start read struck asked template shown
  have clocks : (Step.map strikingClock).unfailing =
      (Step.map strikingClock.unfailing).unfailing := rfl
  have chains : WatchChain.Twins (made strikingClock) start (made strikingClock.unfailing) start :=
    ((WatchChain.Twins.created rfl).appended rfl).appended clocks
  have spares : (read strikingClock).2.Spares (struck strikingClock)
      (cellFeeds (read strikingClock).1.cells) := by
    intro id _ feed found
    obtain ⟨later, present, same, -⟩ :=
      (Host.drifts_signal (read strikingClock).2 0 "1").feeds id feed found
    exact ⟨later, present, same⟩
  have moved : WatchChain.Twins (read strikingClock).1 (struck strikingClock)
      (read strikingClock.unfailing).1 (struck strikingClock.unfailing) :=
    .moved chains.pulled spares rfl
  have streams : RenderStream.Twins (shown strikingClock).1 (shown strikingClock).2
      (shown strikingClock.unfailing).1 (shown strikingClock.unfailing).2 :=
    .polled (.opened rfl rfl)
  exact ⟨rfl, rfl, differ_in_errors.1 moved.asked, rfl, differ_in_errors.2 streams⟩

end TypedTemplate
