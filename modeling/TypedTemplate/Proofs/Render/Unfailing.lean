import TypedTemplate.Proofs.Render.Custody

/-!
Runs with hooks that cannot fail. Taking the failures out of the hooks of a host, and out of
those that its mappings will start, commutes with everything that a consumer does: the caches,
the feeds, the calls and the texts do not depend on whether a hook fails. Only what an operation
reports does.
-/
namespace TypedTemplate

variable {W : Type}

/-! ## Hosts -/

def CancelHook.unfailing (hook : CancelHook) : CancelHook := { hook with failure := none }

def Subscription.unfailing (subscription : Subscription) : Subscription :=
  { subscription with hook := subscription.hook.map CancelHook.unfailing }

def Feed.unfailing (feed : Feed) : Feed :=
  { feed with hook := feed.hook.map CancelHook.unfailing }

/-- The mapping whose change streams have hooks that cannot fail. -/
def Mapping.unfailing (mapping : Mapping W) : Mapping W :=
  { mapping with
    watch := mapping.watch.map fun watch state receiver args =>
      (watch state receiver args).unfailing }

def HostCall.unfailing : HostCall W → HostCall W
  | map mapping receiver args => map mapping.unfailing receiver args
  | subscribe mapping receiver args feed => subscribe mapping.unfailing receiver args feed
  | display shown value viewer => display shown value viewer
  | cancel feed hook => cancel feed hook.unfailing

namespace Host

/-- The host on which no hook fails. -/
def unfailing (host : Host W) : Host W where
  state := host.state
  feeds := host.feeds.map Feed.unfailing
  calls := host.calls.map HostCall.unfailing

variable (host : Host W)

@[simp] theorem unfailing_feed? (id : FeedId) :
    host.unfailing.feed? id = (host.feed? id).map Feed.unfailing :=
  List.getElem?_map

@[simp] theorem unfailing_note (call : HostCall W) :
    host.unfailing.note call.unfailing = (host.note call).unfailing := by
  simp [note, unfailing]

@[simp] theorem unfailing_setFeed (id : FeedId) (feed : Feed) :
    host.unfailing.setFeed id feed.unfailing = (host.setFeed id feed).unfailing := by
  simp [setFeed, unfailing, List.map_set]

theorem unfailing_isCancelled (id : FeedId) :
    host.unfailing.isCancelled id = host.isCancelled id := by
  rw [isCancelled, isCancelled, unfailing_feed?]
  cases host.feed? id <;> rfl

theorem unfailing_holds (ids : List FeedId) : host.unfailing.Holds ids ↔ host.Holds ids := by
  constructor
  · intro holds
    exact ⟨holds.distinct, fun id member => host.unfailing_isCancelled id ▸ holds.live id member⟩
  · intro holds
    exact ⟨holds.distinct,
      fun id member => (host.unfailing_isCancelled id).trans (holds.live id member)⟩

theorem unfailing_poll (id : FeedId) :
    host.unfailing.poll id = ((host.poll id).1, (host.poll id).2.unfailing) := by
  unfold poll
  rw [unfailing_feed?]
  cases host.feed? id with
  | none => rfl
  | some feed =>
    simp only [Option.map_some, Feed.unfailing]
    split
    · rfl
    · split
      · rw [← unfailing_setFeed]
        rfl
      · rfl

theorem unfailing_cancel (id : FeedId) :
    (host.unfailing.cancel id).2 = (host.cancel id).2.unfailing := by
  unfold cancel
  rw [unfailing_feed?]
  cases host.feed? id with
  | none => rfl
  | some feed =>
    simp only [Option.map_some, Feed.unfailing]
    split
    · rfl
    · cases hooked : feed.hook with
      | none =>
        rw [← unfailing_setFeed]
        simp [Feed.unfailing, hooked]
      | some hook =>
        simp only [Option.map_some]
        rw [← unfailing_note, ← unfailing_setFeed]
        simp [Feed.unfailing, HostCall.unfailing, hooked]

theorem unfailing_drop (id : FeedId) : host.unfailing.drop id = (host.drop id).unfailing :=
  host.unfailing_cancel id

theorem unfailing_dropAll (ids : List FeedId) :
    host.unfailing.dropAll ids = (host.dropAll ids).unfailing := by
  induction ids generalizing host with
  | nil => rfl
  | cons id rest ih =>
    rw [dropAll, List.foldl_cons, host.unfailing_drop]
    exact ih (host.drop id)

theorem unfailing_subscribe (mapping : Mapping W) (receiver : Value) (args : Arguments) :
    host.unfailing.subscribe mapping.unfailing receiver args =
      ((host.subscribe mapping receiver args).1,
        (host.subscribe mapping receiver args).2.unfailing) := by
  unfold subscribe
  cases watched : mapping.watch with
  | none => simp [Mapping.unfailing, watched]
  | some watch =>
    simp [Mapping.unfailing, watched, unfailing, listen, note, HostCall.unfailing,
      Feed.unfailing, Subscription.unfailing]

end Host

/-! ## Steps -/

def Step.unfailing : Step W → Step W
  | map mapping => map mapping.unfailing
  | step => step

def Ran.unfailing (ran : Ran W) : Ran W := { ran with host := ran.host.unfailing }

namespace Step

theorem unfailing_applyTop (watch : Bool) (host : Host W) (mapping : Mapping W) (top : Frame) :
    applyTop watch host.unfailing mapping.unfailing top =
      (let applied := applyTop watch host mapping top
       (applied.1, applied.2.1, applied.2.2.unfailing)) := by
  unfold applyTop
  cases top.receiver with
  | none => rfl
  | some receiver =>
    have called (host : Host W) : host.unfailing.apply mapping.unfailing receiver top.args =
        ((host.apply mapping receiver top.args).1,
          (host.apply mapping receiver top.args).2.unfailing) := by
      rw [Host.apply, Host.apply, ← Host.unfailing_note]
      rfl
    cases watch with
    | false => simp [called]
    | true => simp [called, host.unfailing_subscribe]

theorem unfailing_run (watch : Bool) (host : Host W) (input : Slot) (step : Step W) :
    step.unfailing.run watch host.unfailing input = (step.run watch host input).unfailing := by
  cases step with
  | map mapping =>
    simp only [Step.unfailing, run]
    cases input.stack with
    | nil => rfl
    | cons top rest =>
      simp only [unfailing_applyTop]
      rfl
  | display shown viewer marker =>
    simp only [Step.unfailing, run]
    cases input.stack.getLast?.bind Frame.receiver with
    | none => rfl
    | some value =>
      simp only [Host.render, Ran.unfailing]
      rw [← Host.unfailing_note]
      rfl
  | collect count =>
    simp only [Step.unfailing, run]
    cases input.stack <;> rfl
  | pop alternative =>
    simp only [Step.unfailing, run]
    rcases input.stack with _ | ⟨top, _ | ⟨parent, rest⟩⟩ <;> rfl
  | begin context => rfl
  | push context alternative => rfl
  | const value => rfl
  | unset => rfl
  | fallback text => rfl

end Step

/-! ## Chains -/

def Cell.unfailing (cell : Cell W) : Cell W := { cell with step := cell.step.unfailing }

def WatchChain.unfailing (chain : WatchChain W) : WatchChain W :=
  ⟨chain.cells.map Cell.unfailing⟩

theorem cellFeeds_unfailing (cells : List (Cell W)) :
    cellFeeds (cells.map Cell.unfailing) = cellFeeds cells :=
  List.filterMap_map

namespace Cell

variable (cell : Cell W) (host : Host W)

theorem unfailing_release :
    cell.unfailing.release host.unfailing = (cell.release host).unfailing := by
  unfold release
  rw [show cell.unfailing.feed = cell.feed from rfl]
  cases cell.feed with
  | none => rfl
  | some id => exact host.unfailing_drop id

theorem unfailing_compute (input : Slot) :
    cell.unfailing.compute host.unfailing input =
      (let computed := cell.compute host input
       (computed.1, computed.2.1.unfailing, computed.2.2.unfailing)) := by
  unfold compute
  rw [show cell.unfailing.slot = cell.slot from rfl]
  cases cell.slot with
  | some slot => rfl
  | none =>
    have ran := cell.step.unfailing_run true host input
    dsimp only
    rw [show cell.unfailing.step = cell.step.unfailing from rfl, ran]
    dsimp only [Ran.unfailing]
    rw [unfailing_release]
    rfl

end Cell

namespace WatchChain

theorem unfailing_append (chain : WatchChain W) (step : Step W) :
    (chain.append step).unfailing = chain.unfailing.append step.unfailing := by
  rw [append, unfailing, List.map_append]
  rfl

theorem unfailing_endArm (chain : WatchChain W) :
    chain.endArm.unfailing = chain.unfailing.endArm := by
  have marked (cells : List (Cell W)) :
      (markLast cells).map Cell.unfailing = markLast (cells.map Cell.unfailing) := by
    fun_induction markLast cells with
    | case1 => rfl
    | case2 cell => rfl
    | case3 cell rest nonempty ih =>
      rw [List.map_cons, ih, List.map_cons, markLast]
      simpa using nonempty
  exact congrArg WatchChain.mk (marked chain.cells)

theorem unfailing_pullCells (host : Host W) (input : Slot) (cells : List (Cell W)) :
    pullCells host.unfailing input (cells.map Cell.unfailing) =
      (let pulled := pullCells host input cells
       (pulled.1, pulled.2.1.map Cell.unfailing, pulled.2.2.unfailing)) := by
  induction cells generalizing host input with
  | nil => rfl
  | cons cell rest ih =>
    rw [List.map_cons, pullCells, pullCells, cell.unfailing_compute]
    rcases cell.compute host input with ⟨slot, taken, after⟩
    dsimp only
    rw [ih, show taken.unfailing.stopsAt slot = taken.stopsAt slot from rfl]
    split <;> rfl

theorem unfailing_pull (chain : WatchChain W) (host : Host W) :
    chain.unfailing.pull host.unfailing =
      (let pulled := chain.pull host
       (pulled.1, pulled.2.1.unfailing, pulled.2.2.unfailing)) := by
  rw [pull, unfailing, unfailing_pullCells]
  rfl

theorem unfailing_invalidateCells (host : Host W) (step : Nat) (cells : List (Cell W)) :
    (invalidateCells host.unfailing step (cells.map Cell.unfailing)).2.1 =
        (invalidateCells host step cells).2.1.map Cell.unfailing ∧
      (invalidateCells host.unfailing step (cells.map Cell.unfailing)).2.2 =
        (invalidateCells host step cells).2.2.unfailing := by
  rw [invalidateCells_cells, invalidateCells_cells, invalidateCells_host, invalidateCells_host,
    foldl_release, foldl_release, cellFeeds_unfailing, host.unfailing_dropAll, List.map_map,
    List.map_map]
  exact ⟨rfl, rfl⟩

theorem unfailing_invalidateFrom (chain : WatchChain W) (host : Host W) (step : Nat) :
    (chain.unfailing.invalidateFrom host.unfailing step).2.1 =
        (chain.invalidateFrom host step).2.1.unfailing ∧
      (chain.unfailing.invalidateFrom host.unfailing step).2.2 =
        (chain.invalidateFrom host step).2.2.unfailing := by
  obtain ⟨cells, hosts⟩ := unfailing_invalidateCells host step (chain.cells.drop step)
  simp only [invalidateFrom, unfailing, List.map_append, List.map_take]
  rw [← List.map_drop, cells]
  exact ⟨rfl, hosts⟩

/-- What asking for a change leaves behind, but for the failure that it reports. -/
structure AskedAlike (asked unfailing : Change × List (Cell W) × Host W) : Prop where
  cells : unfailing.2.1 = asked.2.1.map Cell.unfailing
  host : unfailing.2.2 = asked.2.2.unfailing
  pending : unfailing.1 = .pending ↔ asked.1 = .pending

/-- A failing hook changes what a question gives, but not whether it gives something. -/
theorem unfailing_changedCells (host : Host W) (step : Nat) (cells : List (Cell W)) :
    AskedAlike (changedCells host step cells)
      (changedCells host.unfailing step (cells.map Cell.unfailing)) := by
  induction cells generalizing host step with
  | nil => exact ⟨rfl, rfl, Iff.rfl⟩
  | cons cell rest ih =>
    have onward {cell : Cell W} {asked unfailing : Change × List (Cell W) × Host W}
        (alike : AskedAlike asked unfailing) : AskedAlike (asked.1, cell :: asked.2.1, asked.2.2)
          (unfailing.1, cell.unfailing :: unfailing.2.1, unfailing.2.2) :=
      ⟨congrArg (cell.unfailing :: ·) alike.cells, alike.host, alike.pending⟩
    rw [List.map_cons]
    unfold changedCells
    rw [show cell.unfailing.feed = cell.feed from rfl]
    cases cell.feed with
    | none => exact onward (ih host (step + 1))
    | some id =>
      dsimp only
      rw [host.unfailing_poll]
      rcases host.poll id with ⟨_ | _ | _, after⟩
      · exact onward (ih after (step + 1))
      · obtain ⟨cells, hosts⟩ := unfailing_invalidateCells after step (cell :: rest)
        rw [List.map_cons] at cells hosts
        refine ⟨cells, hosts, ?_⟩
        simp only [Change.ofInvalidation_ne_pending]
      · dsimp only
        rw [after.unfailing_drop]
        exact onward (ih (after.drop id) (step + 1))

end WatchChain

/-! ## Elements -/

namespace LiveElement

def unfailing : LiveElement W → LiveElement W
  | text raw => text raw
  | chain steps last => chain steps.unfailing last

variable (element : LiveElement W) (host : Host W)

theorem feeds_unfailing : element.unfailing.feeds = element.feeds := by
  cases element with
  | text raw => rfl
  | chain steps last => exact cellFeeds_unfailing steps.cells

theorem current_unfailing : element.unfailing.current = element.current := by
  cases element <;> rfl

theorem unfailing_pull : element.unfailing.pull host.unfailing =
    ((element.pull host).1.unfailing, (element.pull host).2.unfailing) := by
  cases element with
  | text raw => rfl
  | chain steps last =>
    simp only [unfailing, pull, steps.unfailing_pull]

/-- Whether an element has changed, and what comes of it, does not depend on failures. -/
theorem unfailing_refresh : element.unfailing.refresh host.unfailing =
    ((element.refresh host).1, (element.refresh host).2.1.unfailing,
      (element.refresh host).2.2.unfailing) := by
  cases element with
  | text raw => rfl
  | chain steps last =>
    obtain ⟨cells, hosts, pending⟩ := WatchChain.unfailing_changedCells host 0 steps.cells
    rw [unfailing, refresh_chain, refresh_chain, WatchChain.unfailing]
    dsimp only
    rw [cells, hosts]
    by_cases same : (WatchChain.changedCells host 0 steps.cells).1 = .pending
    · rw [if_pos (pending.mpr same), if_pos same]
      rfl
    · rw [if_neg (mt pending.mp same), if_neg same, WatchChain.unfailing_pullCells]
      rfl

theorem unfailing_close : (element.unfailing.close host.unfailing).2.1 =
      (element.close host).2.1.unfailing ∧
    (element.unfailing.close host.unfailing).2.2 = (element.close host).2.2.unfailing := by
  constructor
  · cases element with
    | text raw => rfl
    | chain steps last =>
      rw [close_chain, unfailing, close_chain, unfailing, WatchChain.unfailing,
        WatchChain.unfailing, List.map_map, List.map_map]
      rfl
  · rw [close_host, close_host, feeds_unfailing, host.unfailing_dropAll]

end LiveElement

theorem elementFeeds_unfailing (elements : List (LiveElement W)) :
    elementFeeds (elements.map LiveElement.unfailing) = elementFeeds elements := by
  rw [elementFeeds, List.flatMap_map]
  exact List.flatMap_congr fun element _ => element.feeds_unfailing

namespace RenderStream

def unfailing (stream : RenderStream W) : RenderStream W :=
  { stream with elements := stream.elements.map LiveElement.unfailing }

theorem current_unfailing (elements : List (LiveElement W)) :
    current (elements.map LiveElement.unfailing) = current elements := by
  rw [current, List.map_map]
  exact congrArg String.join (List.map_congr_left fun element _ => element.current_unfailing)

theorem unfailing_pullElements (host : Host W) (elements : List (LiveElement W)) :
    pullElements host.unfailing (elements.map LiveElement.unfailing) =
      ((pullElements host elements).1.map LiveElement.unfailing,
        (pullElements host elements).2.unfailing) := by
  induction elements generalizing host with
  | nil => rfl
  | cons element rest ih =>
    rw [List.map_cons, pullElements, pullElements, element.unfailing_pull]
    dsimp only
    rw [ih]
    rfl

theorem unfailing_refreshElements (host : Host W) (elements : List (LiveElement W)) :
    refreshElements host.unfailing (elements.map LiveElement.unfailing) =
      ((refreshElements host elements).1,
        (refreshElements host elements).2.1.map LiveElement.unfailing,
        (refreshElements host elements).2.2.unfailing) := by
  induction elements generalizing host with
  | nil => rfl
  | cons element rest ih =>
    rw [List.map_cons, refreshElements, refreshElements, element.unfailing_refresh]
    rcases element.refresh host with ⟨_ | _, later, after⟩
    · dsimp only
      rw [ih]
      rfl
    · rfl

theorem unfailing_closeElements (host : Host W) (elements : List (LiveElement W)) :
    (closeElements host.unfailing (elements.map LiveElement.unfailing)).2.1 =
        (closeElements host elements).2.1.map LiveElement.unfailing ∧
      (closeElements host.unfailing (elements.map LiveElement.unfailing)).2.2 =
        (closeElements host elements).2.2.unfailing := by
  induction elements generalizing host with
  | nil => exact ⟨rfl, rfl⟩
  | cons element rest ih =>
    obtain ⟨first, hosts⟩ := element.unfailing_close host
    obtain ⟨others, after⟩ := ih (element.close host).2.2
    rw [List.map_cons, closeElements, closeElements]
    dsimp only
    rw [first, hosts]
    exact ⟨congrArg _ others, after⟩

theorem unfailing_close (stream : RenderStream W) (host : Host W) :
    (stream.unfailing.close host.unfailing).2.1 = (stream.close host).2.1.unfailing ∧
      (stream.unfailing.close host.unfailing).2.2 = (stream.close host).2.2.unfailing := by
  obtain ⟨elements, hosts⟩ := unfailing_closeElements host stream.elements
  unfold close
  rw [show stream.unfailing.closed = stream.closed from rfl]
  split
  · exact ⟨rfl, rfl⟩
  · refine ⟨?_, hosts⟩
    dsimp only [unfailing]
    rw [elements]

/-- What a poll gives does not depend on failures. -/
theorem unfailing_next (stream : RenderStream W) (host : Host W) :
    stream.unfailing.next host.unfailing =
      ((stream.next host).1, (stream.next host).2.1.unfailing,
        (stream.next host).2.2.unfailing) := by
  obtain ⟨closed, hosts⟩ := stream.unfailing_close host
  have pulled := unfailing_pullElements host stream.elements
  have asked := unfailing_refreshElements host stream.elements
  unfold next
  rw [show stream.unfailing.closed = stream.closed from rfl,
    show stream.unfailing.cancelled = stream.cancelled from rfl,
    show stream.unfailing.started = stream.started from rfl,
    show stream.unfailing.elements = stream.elements.map LiveElement.unfailing from rfl,
    pulled, asked]
  cases stream.closed with
  | true => rfl
  | false =>
    cases stream.cancelled with
    | true => simp only [closed, hosts, Bool.false_eq_true, if_false, if_true]
    | false =>
      cases stream.started with
      | true =>
        rcases refreshElements host stream.elements with ⟨_ | _, elements, after⟩
        · rfl
        · simp only [current_unfailing, Bool.false_eq_true, if_false, if_true]
          rfl
      | false =>
        simp only [current_unfailing, Bool.false_eq_true, if_false]
        rfl

end RenderStream

end TypedTemplate
