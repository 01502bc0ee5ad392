import TypedTemplate.Proofs.Render.Accounting
import TypedTemplate.Proofs.Render.Freshness

/-!
What one question leaves behind. Of the feeds that are held, those before the first one with
a signal are given up if they have ended, and nothing else happens to them
(`changedCells_append`, `refreshElements_append`); the signal is taken, and the cells from its
own on are cleared (`LiveElement.refresh_of_signal`). Asking in one go comes to the same as
racing for the first signal again and again until no feed that has ended wins
(`races_changedCells`).
-/
namespace TypedTemplate

variable {W : Type}

/-! ## Giving feeds up -/

namespace Host

/-- The call that runs the hook of a feed, if it has one. -/
def hookCall? (host : Host W) (id : FeedId) : Option (HostCall W) :=
  (host.feed? id).bind fun feed => feed.hook.map (.cancel id)

/-- Whether a feed has ended and no signal waits in it any more. -/
def hasEnded (host : Host W) (id : FeedId) : Bool :=
  match host.feed? id with
  | none => false
  | some feed => feed.ended && feed.queued == 0

/-- Gives feeds up, one after another. -/
def dropAll (host : Host W) (ids : List FeedId) : Host W := ids.foldl drop host

/-- Gives up those feeds that have ended. -/
def dropEnded (host : Host W) (ids : List FeedId) : Host W :=
  host.dropAll (ids.filter host.hasEnded)

variable {host after : Host W} {ids first next : List FeedId} {id : FeedId}

theorem feed?_drop (host : Host W) (id other : FeedId) :
    (host.drop id).feed? other =
      if other = id then (host.feed? id).map fun feed => { feed with cancelled := true }
      else host.feed? other := by
  unfold drop cancel
  split
  · rename_i missing
    split
    · rename_i same
      rw [same, missing]
      rfl
    · rfl
  · rename_i feed found
    have set : (host.setFeed id { feed with cancelled := true }).feed? other =
        if other = id then some { feed with cancelled := true } else host.feed? other := by
      split
      · rename_i same
        subst same
        exact host.feed?_setFeed_self _ found
      · rename_i different
        exact host.feed?_setFeed_of_ne _ different
    rw [found, Option.map_some]
    split
    · rename_i cancelled
      split
      · rename_i same
        rw [same, found, ← cancelled]
      · rfl
    · dsimp only
      split <;> exact set

theorem dropAll_append (host : Host W) (first next : List FeedId) :
    host.dropAll (first ++ next) = (host.dropAll first).dropAll next :=
  List.foldl_append

theorem feed?_dropAll (host : Host W) (ids : List FeedId) (other : FeedId) :
    (host.dropAll ids).feed? other =
      if other ∈ ids then (host.feed? other).map fun feed => { feed with cancelled := true }
      else host.feed? other := by
  induction ids generalizing host with
  | nil => rfl
  | cons id rest ih =>
    rw [dropAll, List.foldl_cons, ← dropAll, ih, feed?_drop]
    by_cases same : other = id
    · subst same
      simp [Option.map_map, Function.comp_def]
    · simp [same]

theorem feed?_dropAll_of_notMem (outside : id ∉ ids) :
    (host.dropAll ids).feed? id = host.feed? id := by
  rw [feed?_dropAll, if_neg outside]

/-- Giving feeds up takes no signal. -/
theorem exists_feed?_dropAll {feed : Feed} (found : host.feed? id = some feed)
    (ids : List FeedId) :
    ∃ later, (host.dropAll ids).feed? id = some later ∧ later.queued = feed.queued := by
  rw [feed?_dropAll, found]
  split <;> exact ⟨_, rfl, rfl⟩

theorem isCancelled_dropAll (host : Host W) (member : id ∈ ids) :
    (host.dropAll ids).isCancelled id = true := by
  rw [isCancelled, feed?_dropAll, if_pos member]
  cases host.feed? id <;> rfl

/-! ## Held feeds -/

/-- Feeds of which each is held once and none has been cancelled. -/
structure Holds (host : Host W) (ids : List FeedId) : Prop where
  distinct : ids.Nodup
  live : ∀ id ∈ ids, host.isCancelled id = false

/-- Two hosts in which some feeds are the same. -/
def Agrees (host after : Host W) (ids : List FeedId) : Prop :=
  ∀ id ∈ ids, after.feed? id = host.feed? id

theorem hasEnded_congr (same : after.feed? id = host.feed? id) :
    after.hasEnded id = host.hasEnded id := by
  rw [hasEnded, hasEnded, same]

theorem isQuiet_congr (same : after.feed? id = host.feed? id) :
    after.IsQuiet id ↔ host.IsQuiet id := by
  rw [IsQuiet, IsQuiet, same]

theorem Agrees.dropEnded (agrees : host.Agrees after ids) :
    after.dropEnded ids = after.dropAll (ids.filter host.hasEnded) := by
  rw [Host.dropEnded, List.filter_congr fun id member => hasEnded_congr (agrees id member)]

theorem poll_congr (same : after.feed? id = host.feed? id) :
    (after.poll id).1 = (host.poll id).1 := by
  unfold poll
  rw [same]
  split
  · rfl
  · split
    · rfl
    · split <;> rfl

namespace Holds

theorem sublist (holds : host.Holds next) (sub : first.Sublist next) : host.Holds first :=
  ⟨holds.distinct.sublist sub, fun id member => holds.live id (sub.subset member)⟩

theorem agrees (holds : host.Holds ids) (agrees : host.Agrees after ids) : after.Holds ids := by
  refine ⟨holds.distinct, fun id member => ?_⟩
  rw [isCancelled, agrees id member]
  exact holds.live id member

theorem left (holds : host.Holds (first ++ next)) : host.Holds first :=
  holds.sublist (List.sublist_append_left first next)

theorem right (holds : host.Holds (first ++ next)) : host.Holds next :=
  holds.sublist (List.sublist_append_right first next)

theorem apart (holds : host.Holds (first ++ next)) : ∀ id ∈ next, id ∉ first := by
  intro id behind ahead
  exact (List.nodup_append.mp holds.distinct).2.2 id ahead id behind rfl

theorem exists_feed (holds : host.Holds ids) (member : id ∈ ids) :
    ∃ feed, host.feed? id = some feed ∧ feed.cancelled = false := by
  have live := holds.live id member
  rw [isCancelled] at live
  split at live
  · cases live
  · rename_i feed found
    exact ⟨feed, found, live⟩

theorem owns (holds : host.Holds ids) : host.Owns ids := by
  refine ⟨holds.distinct, fun id member => ?_⟩
  obtain ⟨feed, found, -⟩ := holds.exists_feed member
  exact host.feed?_lt found

end Holds

theorem hookCall?_congr (same : after.feed? id = host.feed? id) :
    after.hookCall? id = host.hookCall? id := by
  rw [hookCall?, hookCall?, same]

/-- Giving held feeds up runs the hook of each, in order. -/
theorem Holds.calls_dropAll (holds : host.Holds ids) :
    (host.dropAll ids).calls = host.calls ++ ids.filterMap host.hookCall? := by
  induction ids generalizing host with
  | nil => simp [dropAll]
  | cons id rest ih =>
    obtain ⟨feed, found, live⟩ := holds.exists_feed List.mem_cons_self
    have apart := (List.nodup_cons.mp holds.distinct).1
    have agrees : host.Agrees (host.drop id) rest := by
      intro other member
      have different : other ≠ id := fun same => apart (same ▸ member)
      rw [feed?_drop, if_neg different]
    have called : (host.drop id).calls = host.calls ++ (host.hookCall? id).toList := by
      rw [hookCall?, found]
      simp only [drop, cancel, found, live, Bool.false_eq_true, if_false, Option.bind_some]
      cases feed.hook with
      | none => simp [setFeed]
      | some hook => simp [setFeed, note]
    have behind := ih ((holds.sublist (List.sublist_cons_self id rest)).agrees agrees)
    rw [dropAll, List.foldl_cons, ← dropAll, behind, called, List.append_assoc,
      List.filterMap_congr fun other member => hookCall?_congr (agrees other member)]
    cases called : host.hookCall? id <;> simp [called]

/-- Giving up ended feeds among the first ones is nothing to those that are held behind. -/
theorem agrees_dropEnded (apart : ∀ id ∈ next, id ∉ first) :
    host.Agrees (host.dropEnded first) next := by
  intro id member
  exact feed?_dropAll_of_notMem fun ended => apart id member (List.mem_of_mem_filter ended)

theorem dropEnded_append (apart : ∀ id ∈ next, id ∉ first) :
    host.dropEnded (first ++ next) = (host.dropEnded first).dropEnded next := by
  rw [(agrees_dropEnded apart).dropEnded, dropEnded, List.filter_append, dropAll_append]
  rfl

/-- A feed that is not quiet gives its first signal when it is asked. -/
theorem poll_of_signal (signal : ¬ host.IsQuiet id) :
    ∃ feed queued, host.feed? id = some feed ∧ feed.queued = queued + 1 ∧
      host.poll id = (.signal, host.setFeed id { feed with queued }) := by
  rcases host.poll_cases id with
    ⟨-, seen, found, -, empty, -⟩ | ⟨-, spent⟩ | ⟨feed, queued, found, -, waiting, polled⟩
  · refine absurd (fun feed present _ => ?_) signal
    rw [found] at present
    cases present
    exact empty
  · refine absurd (fun feed present live => ?_) signal
    rcases spent feed present with cancelled | ⟨empty, -⟩
    · rw [live] at cancelled
      cases cancelled
    · exact empty
  · exact ⟨feed, queued, found, waiting, polled⟩

/-- Taking signals of a feed changes neither whether it is live nor its hook. -/
theorem sameHooks_setFeed {feed : Feed} (found : host.feed? id = some feed) (queued : Nat)
    (other : FeedId) :
    (host.setFeed id { feed with queued }).isCancelled other = host.isCancelled other ∧
      (host.setFeed id { feed with queued }).hookCall? other = host.hookCall? other := by
  by_cases same : other = id
  · subst same
    have set := host.feed?_setFeed_self { feed with queued } found
    rw [isCancelled, isCancelled, hookCall?, hookCall?, set, found]
    exact ⟨rfl, rfl⟩
  · have kept := host.feed?_setFeed_of_ne { feed with queued } same
    rw [isCancelled, isCancelled, hookCall?, hookCall?, kept]
    exact ⟨rfl, rfl⟩

/-- Asking a held feed without a signal changes nothing. -/
theorem poll_of_quiet (holds : host.Holds ids) (member : id ∈ ids) (quiet : host.IsQuiet id) :
    host.poll id = (if host.hasEnded id then .ended else .pending, host) := by
  obtain ⟨feed, found, live⟩ := holds.exists_feed member
  have empty := quiet feed found live
  rw [poll, hasEnded, found]
  simp [live, empty]

end Host

/-! ## Asking a chain -/

theorem cellFeeds_append (first next : List (Cell W)) :
    cellFeeds (first ++ next) = cellFeeds first ++ cellFeeds next :=
  List.filterMap_append

namespace Cell

/-- The cell without its feed, if that has ended. -/
def forgetEnded (host : Host W) (cell : Cell W) : Cell W :=
  { cell with feed := cell.feed.filter fun id => !host.hasEnded id }

/-- The cell as it is before its step is taken. -/
def cleared (cell : Cell W) : Cell W := { cell with slot := none, feed := none }

theorem forgetEnded_unwatched {cell : Cell W} (unwatched : cell.feed = none) (host : Host W) :
    cell.forgetEnded host = cell := by
  rw [forgetEnded, unwatched, Option.filter_none, ← unwatched]

theorem forgetEnded_watched {cell : Cell W} {id : FeedId} (held : cell.feed = some id)
    (host : Host W) : cell.forgetEnded host =
      if host.hasEnded id then { cell with feed := none } else cell := by
  rw [forgetEnded, held, Option.filter_some]
  cases host.hasEnded id with
  | true => rfl
  | false => simp [← held]

theorem toList_forgetEnded (host : Host W) (cell : Cell W) :
    (cell.forgetEnded host).feed.toList =
      cell.feed.toList.filter fun id => !host.hasEnded id := by
  cases held : cell.feed with
  | none => rw [forgetEnded_unwatched held, held]; rfl
  | some id =>
    rw [forgetEnded_watched held, Option.toList_some]
    cases ended : host.hasEnded id <;> simp [ended, held]

theorem forgetEnded_congr {host after : Host W} {cell : Cell W}
    (agrees : host.Agrees after cell.feed.toList) :
    cell.forgetEnded after = cell.forgetEnded host := by
  cases held : cell.feed with
  | none => rw [forgetEnded_unwatched held, forgetEnded_unwatched held]
  | some id =>
    have same := Host.hasEnded_congr (agrees id (by simp [held]))
    rw [forgetEnded_watched held, forgetEnded_watched held, same]

end Cell

theorem map_forgetEnded_congr {host after : Host W} {cells : List (Cell W)}
    (agrees : host.Agrees after (cellFeeds cells)) :
    cells.map (Cell.forgetEnded after) = cells.map (Cell.forgetEnded host) := by
  refine List.map_congr_left fun cell member => Cell.forgetEnded_congr fun id held => ?_
  rw [Option.mem_toList] at held
  exact agrees id (mem_cellFeeds.mpr ⟨cell, member, held⟩)

theorem cellFeeds_forgetEnded (host : Host W) (cells : List (Cell W)) :
    cellFeeds (cells.map (Cell.forgetEnded host)) =
      (cellFeeds cells).filter fun id => !host.hasEnded id := by
  induction cells with
  | nil => rfl
  | cons cell rest ih =>
    rw [List.map_cons, cellFeeds_cons, cellFeeds_cons, List.filter_append,
      cell.toList_forgetEnded, ih]

open WatchChain

/-- Cells without signals are passed over, and ended feeds among theirs are given up. -/
theorem changedCells_append {host : Host W} {front : List (Cell W)}
    (holds : host.Holds (cellFeeds front)) (quiet : ∀ id ∈ cellFeeds front, host.IsQuiet id)
    (step : Nat) (rest : List (Cell W)) :
    changedCells host step (front ++ rest) =
      (let onward := changedCells (host.dropEnded (cellFeeds front)) (step + front.length) rest
       (onward.1, front.map (Cell.forgetEnded host) ++ onward.2.1, onward.2.2)) := by
  induction front generalizing host step with
  | nil => rfl
  | cons cell front ih =>
    have length : step + (cell :: front).length = step + 1 + front.length := by
      rw [List.length_cons]
      omega
    rw [length, List.map_cons, List.cons_append]
    cases held : cell.feed with
    | none =>
      have feeds : cellFeeds (cell :: front) = cellFeeds front := by simp [cellFeeds_cons, held]
      rw [feeds] at holds quiet ⊢
      simp only [changedCells, held, ih holds quiet, Cell.forgetEnded_unwatched held,
        List.cons_append]
    | some id =>
      have feeds : cellFeeds (cell :: front) = [id] ++ cellFeeds front := by
        simp [cellFeeds_cons, held]
      rw [feeds] at holds quiet ⊢
      have polled := Host.poll_of_quiet holds List.mem_cons_self (quiet id List.mem_cons_self)
      have later : ∀ other ∈ cellFeeds front, host.IsQuiet other :=
        fun other member => quiet other (List.mem_cons_of_mem _ member)
      rw [Host.dropEnded_append holds.apart, Cell.forgetEnded_watched held]
      cases ended : host.hasEnded id with
      | true =>
        -- The feed is given up; it is none of those of the cells behind.
        have dropped : host.dropEnded [id] = host.drop id := by
          rw [Host.dropEnded, List.filter_cons_of_pos ended]
          rfl
        have agrees : host.Agrees (host.drop id) (cellFeeds front) :=
          dropped ▸ Host.agrees_dropEnded holds.apart
        rw [ended] at polled
        rw [dropped, ← map_forgetEnded_congr agrees]
        simp only [changedCells, held, polled, if_true]
        rw [ih (holds.right.agrees agrees) fun other member =>
          (Host.isQuiet_congr (agrees other member)).mpr (later other member)]
        rfl
      | false =>
        have dropped : host.dropEnded [id] = host := by
          rw [Host.dropEnded, List.filter_cons_of_neg (by simp [ended])]
          rfl
        rw [ended] at polled
        rw [dropped]
        simp only [changedCells, held, polled, Bool.false_eq_true, if_false]
        rw [ih holds.right later]
        rfl

theorem invalidateCells_cells (host : Host W) (step : Nat) (cells : List (Cell W)) :
    (invalidateCells host step cells).2.1 = cells.map Cell.cleared := by
  induction cells generalizing host step with
  | nil => rfl
  | cons cell rest ih =>
    rw [invalidateCells_cons, List.map_cons]
    exact congrArg _ (ih _ _)

theorem foldl_release (host : Host W) (cells : List (Cell W)) :
    cells.foldl (fun host cell => cell.release host) host = host.dropAll (cellFeeds cells) := by
  induction cells generalizing host with
  | nil => rfl
  | cons cell rest ih =>
    rw [List.foldl_cons, ih, cellFeeds_cons, Host.dropAll_append, Cell.release]
    cases cell.feed <;> rfl

/-! ## Races -/

/-- What comes of racing for the first signal. In each race the feeds are asked in order until
one is ready, and those behind it are not asked. If the ready one has ended, it is given up and
the next race begins. -/
inductive Races : Host W → List (Cell W) → Change × List (Cell W) × Host W → Prop
  | pending {host : Host W} {cells : List (Cell W)}
      (waiting : ∀ id ∈ cellFeeds cells, (host.poll id).1 = .pending) :
      Races host cells (.pending, cells, host)
  | ended {host : Host W} {front later : List (Cell W)} {cell : Cell W} {id : FeedId}
      {outcome : Change × List (Cell W) × Host W}
      (waiting : ∀ other ∈ cellFeeds front, (host.poll other).1 = .pending)
      (held : cell.feed = some id) (spent : (host.poll id).1 = .ended)
      (again : Races (host.drop id) (front ++ { cell with feed := none } :: later) outcome) :
      Races host (front ++ cell :: later) outcome
  | signal {host : Host W} {front later : List (Cell W)} {cell : Cell W} {id : FeedId}
      {failure : Option CancelError} {cells : List (Cell W)} {after : Host W}
      (waiting : ∀ other ∈ cellFeeds front, (host.poll other).1 = .pending)
      (held : cell.feed = some id) (signal : (host.poll id).1 = .signal)
      (cut : invalidateCells (host.poll id).2 front.length (cell :: later) =
        (failure, cells, after)) :
      Races host (front ++ cell :: later)
        (.ofInvalidation front.length failure, front ++ cells, after)

/-- Giving up the feed of a cell is nothing to the feeds of the other cells. -/
theorem holds_drop {host : Host W} {front rest : List (Cell W)} {cell : Cell W} {id : FeedId}
    (holds : host.Holds (cellFeeds (front ++ cell :: rest))) (held : cell.feed = some id) :
    host.Agrees (host.drop id) (cellFeeds (front ++ { cell with feed := none } :: rest)) ∧
      (host.drop id).Holds (cellFeeds (front ++ { cell with feed := none } :: rest)) := by
  have without : cellFeeds (front ++ { cell with feed := none } :: rest) =
      cellFeeds front ++ cellFeeds rest := by
    rw [cellFeeds_append, cellFeeds_cons]
    rfl
  rw [cellFeeds_append, cellFeeds_cons, held] at holds
  rw [without]
  have agrees : host.Agrees (host.drop id) (cellFeeds front ++ cellFeeds rest) := by
    intro other member
    have different : other ≠ id := by
      rintro rfl
      exact (List.nodup_cons.mp (List.nodup_middle.mp holds.distinct)).1 member
    rw [Host.feed?_drop, if_neg different]
  have fewer := (List.Sublist.refl (cellFeeds front)).append
    (List.sublist_cons_self id (cellFeeds rest))
  exact ⟨agrees, (holds.sublist fewer).agrees agrees⟩

/-- Asking all feeds in one go is racing for a signal, over and over as long as feeds that have
ended win: those asked again wait as before. -/
theorem races_changedCells {host : Host W} {front rest : List (Cell W)}
    (holds : host.Holds (cellFeeds (front ++ rest)))
    (waiting : ∀ id ∈ cellFeeds front, (host.poll id).1 = .pending) :
    Races host (front ++ rest)
      (let onward := changedCells host front.length rest
       (onward.1, front ++ onward.2.1, onward.2.2)) := by
  induction rest generalizing host front with
  | nil =>
    simp only [changedCells, List.append_nil]
    exact .pending waiting
  | cons cell rest ih =>
    -- A cell that waits joins those in front.
    have onward (next : Cell W) {now : Host W}
        (holds : now.Holds (cellFeeds (front ++ next :: rest)))
        (waiting : ∀ id ∈ cellFeeds (front ++ [next]), (now.poll id).1 = .pending) :
        Races now (front ++ next :: rest)
          (let onward := changedCells now (front.length + 1) rest
           (onward.1, front ++ next :: onward.2.1, onward.2.2)) := by
      have split (cells : List (Cell W)) : front ++ next :: cells = front ++ [next] ++ cells := by
        simp
      have raced := @ih now (front ++ [next]) (split rest ▸ holds) waiting
      simpa using raced
    have feeds (next : Cell W) : cellFeeds (front ++ [next]) =
        cellFeeds front ++ next.feed.toList := by
      rw [cellFeeds_append, cellFeeds_cons]
      simp [cellFeeds]
    cases held : cell.feed with
    | none =>
      simp only [changedCells, held]
      refine onward cell holds fun id member => waiting id ?_
      rwa [feeds, held, Option.toList_none, List.append_nil] at member
    | some id =>
      rcases host.poll_cases id with
        ⟨polled, -⟩ | ⟨polled, -⟩ | ⟨feed, queued, found, -, -, polled⟩
      · simp only [changedCells, held, polled]
        refine onward cell holds fun other member => ?_
        rw [feeds, held, Option.toList_some, List.mem_append, List.mem_singleton] at member
        rcases member with before | rfl
        · exact waiting other before
        · rw [polled]
      · -- The next race begins without this feed, and those before it still wait.
        obtain ⟨agrees, holdsRest⟩ := holds_drop holds held
        simp only [changedCells, held, polled]
        refine .ended waiting held (by rw [polled])
          (onward _ holdsRest fun other member => ?_)
        rw [feeds, Option.toList_none, List.append_nil] at member
        rw [Host.poll_congr (agrees other ?_)]
        · exact waiting other member
        · rw [cellFeeds_append]
          exact List.mem_append_left _ member
      · simp only [changedCells, held, polled]
        refine .signal waiting held (by rw [polled]) ?_
        rw [polled]

/-! ## Asking elements -/

namespace LiveElement

/-- The element without those of its feeds that have ended. -/
def forgetEnded (host : Host W) : LiveElement W → LiveElement W
  | text raw => text raw
  | chain steps last => chain ⟨steps.cells.map (Cell.forgetEnded host)⟩ last

theorem forgetEnded_congr {host after : Host W} {element : LiveElement W}
    (agrees : host.Agrees after element.feeds) :
    element.forgetEnded after = element.forgetEnded host := by
  cases element with
  | text raw => rfl
  | chain steps last => rw [forgetEnded, forgetEnded, map_forgetEnded_congr agrees]

/-- An element without signals keeps its text. -/
theorem refresh_of_quiet {host : Host W} {element : LiveElement W}
    (holds : host.Holds element.feeds) (quiet : ∀ id ∈ element.feeds, host.IsQuiet id) :
    element.refresh host = (false, element.forgetEnded host, host.dropEnded element.feeds) := by
  cases element with
  | text raw => rfl
  | chain steps last =>
    rw [refresh_chain, ← List.append_nil steps.cells, changedCells_append holds quiet]
    simp only [changedCells, if_true, List.append_nil, forgetEnded, feeds_chain]

/-- A signal of a cell is taken, the cells from this one on are cleared, and the element is
pulled. -/
theorem refresh_of_signal {host : Host W} {front later : List (Cell W)} {cell : Cell W}
    {last : String} {id : FeedId} (holds : host.Holds (cellFeeds front))
    (quiet : ∀ other ∈ cellFeeds front, host.IsQuiet other) (held : cell.feed = some id)
    (signal : ((host.dropEnded (cellFeeds front)).poll id).1 = .signal) :
    (chain ⟨front ++ cell :: later⟩ last).refresh host =
      (let taken := ((host.dropEnded (cellFeeds front)).poll id).2
       let pulled := pullCells (taken.dropAll (cellFeeds (cell :: later))) .initial
         (front.map (Cell.forgetEnded host) ++ (cell :: later).map Cell.cleared)
       (true, chain ⟨pulled.2.1⟩ pulled.1, pulled.2.2)) := by
  rw [refresh_chain]
  dsimp only
  rw [changedCells_append holds quiet]
  rcases polled : (host.dropEnded (cellFeeds front)).poll id with ⟨answer, taken⟩
  rw [polled] at signal
  obtain rfl : answer = .signal := signal
  simp only [changedCells, held, polled, Change.ofInvalidation_ne_pending, if_false,
    invalidateCells_cells, invalidateCells_host, foldl_release]

end LiveElement

theorem map_forgetEnded_elements_congr {host after : Host W} {elements : List (LiveElement W)}
    (agrees : host.Agrees after (elementFeeds elements)) :
    elements.map (LiveElement.forgetEnded after) = elements.map (LiveElement.forgetEnded host) :=
  List.map_congr_left fun element member => LiveElement.forgetEnded_congr fun id held =>
    agrees id (List.mem_flatMap.mpr ⟨element, member, held⟩)

theorem map_current_forgetEnded (host : Host W) (elements : List (LiveElement W)) :
    (elements.map (LiveElement.forgetEnded host)).map LiveElement.current =
      elements.map LiveElement.current := by
  rw [List.map_map]
  exact List.map_congr_left fun element _ => by cases element <;> rfl

theorem elementFeeds_forgetEnded (host : Host W) (elements : List (LiveElement W)) :
    elementFeeds (elements.map (LiveElement.forgetEnded host)) =
      (elementFeeds elements).filter fun id => !host.hasEnded id := by
  induction elements with
  | nil => rfl
  | cons element rest ih =>
    rw [List.map_cons, elementFeeds_cons, elementFeeds_cons, List.filter_append, ih]
    cases element with
    | text raw => rfl
    | chain steps last => exact congrArg (· ++ _) (cellFeeds_forgetEnded host steps.cells)

/-- Elements without signals are passed over. -/
theorem refreshElements_append {host : Host W} {before : List (LiveElement W)}
    (holds : host.Holds (elementFeeds before))
    (quiet : ∀ id ∈ elementFeeds before, host.IsQuiet id) (rest : List (LiveElement W)) :
    RenderStream.refreshElements host (before ++ rest) =
      (let onward := RenderStream.refreshElements (host.dropEnded (elementFeeds before)) rest
       (onward.1, before.map (LiveElement.forgetEnded host) ++ onward.2.1, onward.2.2)) := by
  induction before generalizing host with
  | nil => rfl
  | cons element before ih =>
    rw [elementFeeds_cons] at holds quiet
    have passed := LiveElement.refresh_of_quiet holds.left fun id member =>
      quiet id (List.mem_append_left _ member)
    have agrees : host.Agrees (host.dropEnded element.feeds) (elementFeeds before) :=
      Host.agrees_dropEnded holds.apart
    rw [elementFeeds_cons, Host.dropEnded_append holds.apart, List.map_cons,
      ← map_forgetEnded_elements_congr agrees, List.cons_append, RenderStream.refreshElements,
      passed]
    dsimp only
    rw [ih (holds.right.agrees agrees) fun id member =>
      (Host.isQuiet_congr (agrees id member)).mpr (quiet id (List.mem_append_right _ member))]
    rfl

end TypedTemplate
