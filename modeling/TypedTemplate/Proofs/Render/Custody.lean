import TypedTemplate.Proofs.Render.Turns

/-!
Rules on the feeds that somebody holds. All that a consumer does to a host is to evaluate, to
subscribe, to take a signal and to cancel a feed that it holds. A rule which these four keep
(`Host.IsKept`) is kept by whole pulls, questions and closings, for chains and for streams, from
any state: whatever a cell gives out of its hands it cancels first.
-/
namespace TypedTemplate

variable {W : Type}

namespace Host

/-- A rule on a host and the feeds that are held, in any order, which everything that a consumer
does keeps. A feed is held from the moment it is started and until it is cancelled. -/
structure IsKept (rule : Host W → List FeedId → Prop) : Prop where
  perm : ∀ {host : Host W} {old new : List FeedId}, rule host old → new.Perm old → rule host new
  evaluate : ∀ {host : Host W} {held : List FeedId} {call : HostCall W}, rule host held →
    call.isEvaluation = true → rule (host.note call) held
  subscribe : ∀ {host : Host W} {held : List FeedId} (mapping : Mapping W) (receiver : Value)
    (args : Arguments) (subscription : Subscription), rule host held →
    rule ((host.listen subscription).2.note
      (.subscribe mapping receiver args host.feeds.length)) (held ++ [host.feeds.length])
  take : ∀ {host : Host W} {held : List FeedId} {id : FeedId} {feed : Feed} (queued : Nat),
    rule host held → host.feed? id = some feed → rule (host.setFeed id { feed with queued }) held
  cancel : ∀ {host : Host W} {held : List FeedId} {id : FeedId}, rule host (held ++ [id]) →
    rule (host.cancel id).2 held

namespace IsKept

variable {rule : Host W → List FeedId → Prop} (kept : IsKept rule) {host : Host W}
  {held : List FeedId}

include kept

theorem swap {first next : List FeedId} (holds : rule host (held ++ first ++ next)) :
    rule host (held ++ next ++ first) := by
  refine kept.perm holds ?_
  rw [List.append_assoc, List.append_assoc]
  exact List.perm_append_comm.append_left held

theorem noteAll {calls : List (HostCall W)} (holds : rule host held)
    (evaluations : ∀ call ∈ calls, call.isEvaluation = true) : rule (host.noteAll calls) held := by
  induction calls generalizing host with
  | nil =>
    rw [noteAll_nil]
    exact holds
  | cons call rest ih =>
    have first := kept.evaluate holds (evaluations call List.mem_cons_self)
    have others := ih first fun later member => evaluations later (List.mem_cons_of_mem _ member)
    rw [note_eq_noteAll, noteAll_noteAll, List.singleton_append] at others
    exact others

theorem dropAll {ids : List FeedId} (holds : rule host (held ++ ids)) :
    rule (host.dropAll ids) held := by
  induction ids generalizing host with
  | nil =>
    rw [List.append_nil] at holds
    exact holds
  | cons id rest ih =>
    rw [← List.singleton_append, ← List.append_assoc] at holds
    exact ih (kept.cancel (kept.swap holds))

/-! ## Pulling -/

theorem run (step : Step W) (input : Slot) (holds : rule host held) :
    rule (step.run true host input).host (held ++ (step.run true host input).feed.toList) := by
  rcases step.run_watching host input with
    ⟨calls, evaluations, started, after⟩ |
      ⟨mapping, receiver, args, watch, -, -, started, after⟩
  · rw [started, after, Option.toList_none, List.append_nil]
    exact kept.noteAll holds evaluations
  · have subscribed := kept.subscribe mapping receiver args (watch host.state receiver args) holds
    rw [started, after, Option.toList_some]
    refine kept.noteAll subscribed fun call member => ?_
    rw [List.mem_singleton.mp member]
    rfl

theorem release {cell : Cell W} (holds : rule host (held ++ cell.feed.toList)) :
    rule (cell.release host) held := by
  unfold Cell.release
  cases watched : cell.feed with
  | none =>
    rw [watched, Option.toList_none, List.append_nil] at holds
    exact holds
  | some id =>
    rw [watched] at holds
    exact kept.cancel holds

/-- A feed that a cell still holds when its step is taken again is given up. -/
theorem compute {cell : Cell W} (input : Slot) (holds : rule host (held ++ cell.feed.toList)) :
    rule (cell.compute host input).2.2
      (held ++ (cell.compute host input).2.1.feed.toList) := by
  unfold Cell.compute
  cases cell.slot with
  | some slot => exact holds
  | none => exact kept.release (kept.swap (kept.run cell.step input holds))

theorem pullCells (input : Slot) {cells : List (Cell W)}
    (holds : rule host (held ++ cellFeeds cells)) :
    rule (WatchChain.pullCells host input cells).2.2
      (held ++ cellFeeds (WatchChain.pullCells host input cells).2.1) := by
  induction cells generalizing host held input with
  | nil => exact holds
  | cons cell rest ih =>
    rw [cellFeeds_cons, ← List.append_assoc] at holds
    have onward := kept.swap (kept.compute input (kept.swap holds))
    rw [WatchChain.pullCells]
    rcases taken : cell.compute host input with ⟨slot, later, after⟩
    rw [taken] at onward
    dsimp only
    split
    · rw [cellFeeds_cons, ← List.append_assoc]
      exact onward
    · rw [cellFeeds_cons, ← List.append_assoc]
      exact ih slot onward

/-! ## Asking -/

theorem invalidateCells (step : Nat) {cells : List (Cell W)}
    (holds : rule host (held ++ cellFeeds cells)) :
    rule (WatchChain.invalidateCells host step cells).2.2
      (held ++ cellFeeds (WatchChain.invalidateCells host step cells).2.1) := by
  obtain ⟨-, blank, -⟩ := invalidateCells_spec host step cells
  rw [cellFeeds_of_blank blank, List.append_nil, WatchChain.invalidateCells_host, foldl_release]
  exact kept.dropAll holds

theorem invalidateFrom {chain : WatchChain W} (step : Nat)
    (holds : rule host (cellFeeds chain.cells)) :
    rule (chain.invalidateFrom host step).2.2
      (cellFeeds (chain.invalidateFrom host step).2.1.cells) := by
  rw [← List.take_append_drop step chain.cells, cellFeeds_append] at holds
  rw [WatchChain.invalidateFrom, cellFeeds_append]
  exact kept.invalidateCells step holds

theorem changedCells (step : Nat) {cells : List (Cell W)}
    (holds : rule host (held ++ cellFeeds cells)) :
    rule (WatchChain.changedCells host step cells).2.2
      (held ++ cellFeeds (WatchChain.changedCells host step cells).2.1) := by
  induction cells generalizing host held step with
  | nil => exact holds
  | cons cell rest ih =>
    have whole := holds
    rw [cellFeeds_cons, ← List.append_assoc] at holds
    cases watched : cell.feed with
    | none =>
      simp only [WatchChain.changedCells, watched]
      rw [cellFeeds_cons, ← List.append_assoc]
      exact ih (step + 1) holds
    | some id =>
      rcases host.poll_cases id with
        ⟨polled, -⟩ | ⟨polled, -⟩ | ⟨feed, queued, found, -, -, polled⟩
      · simp only [WatchChain.changedCells, watched, polled]
        rw [cellFeeds_cons, ← List.append_assoc]
        exact ih (step + 1) holds
      · -- The ended feed is cancelled, and the cell no longer holds it.
        rw [watched] at holds
        simp only [WatchChain.changedCells, watched, polled]
        rw [cellFeeds_cons, Option.toList_none, List.nil_append]
        exact ih (step + 1) (kept.cancel (kept.swap holds))
      · simp only [WatchChain.changedCells, watched, polled]
        exact kept.invalidateCells step (kept.take queued whole found)

/-! ## Elements -/

theorem pull {element : LiveElement W} (holds : rule host (held ++ element.feeds)) :
    rule (element.pull host).2 (held ++ (element.pull host).1.feeds) := by
  cases element with
  | text raw => exact holds
  | chain steps last => exact kept.pullCells .initial holds

theorem refresh {element : LiveElement W} (holds : rule host (held ++ element.feeds)) :
    rule (element.refresh host).2.2 (held ++ (element.refresh host).2.1.feeds) := by
  cases element with
  | text raw => exact holds
  | chain steps last =>
    have asked := kept.changedCells 0 holds
    rw [LiveElement.refresh_chain]
    dsimp only
    split
    · exact asked
    · exact kept.pullCells .initial asked

theorem pullElements {elements : List (LiveElement W)}
    (holds : rule host (held ++ elementFeeds elements)) :
    rule (RenderStream.pullElements host elements).2
      (held ++ elementFeeds (RenderStream.pullElements host elements).1) := by
  induction elements generalizing host held with
  | nil => exact holds
  | cons element rest ih =>
    rw [elementFeeds_cons, ← List.append_assoc] at holds
    have onward := kept.swap (kept.pull (kept.swap holds))
    rw [RenderStream.pullElements]
    dsimp only
    rw [elementFeeds_cons, ← List.append_assoc]
    exact ih onward

theorem refreshElements {elements : List (LiveElement W)}
    (holds : rule host (held ++ elementFeeds elements)) :
    rule (RenderStream.refreshElements host elements).2.2
      (held ++ elementFeeds (RenderStream.refreshElements host elements).2.1) := by
  induction elements generalizing host held with
  | nil => exact holds
  | cons element rest ih =>
    rw [elementFeeds_cons, ← List.append_assoc] at holds
    have onward := kept.swap (kept.refresh (kept.swap holds))
    rw [RenderStream.refreshElements]
    rcases asked : element.refresh host with ⟨found, later, after⟩
    rw [asked] at onward
    cases found with
    | true =>
      dsimp only
      rw [elementFeeds_cons, ← List.append_assoc]
      exact onward
    | false =>
      dsimp only
      rw [elementFeeds_cons, ← List.append_assoc]
      exact ih onward

end IsKept

/-- A feed that is held stays alive until it is cancelled. -/
theorem holds_isKept : IsKept (Holds (W := W)) where
  perm := fun holds perm => holds.perm perm
  evaluate := fun holds _ => holds.agrees fun _ _ => rfl
  subscribe := by
    intro host held mapping receiver args subscription holds
    have leaves : Leaves [] host ((host.listen subscription).2.note
        (.subscribe mapping receiver args host.feeds.length)) :=
      (leaves_listen host subscription).trans (leaves_note _ _ _)
    refine holds.append leaves ⟨List.nodup_singleton _, fun id member => ?_⟩ fun id member => ?_
    · rw [List.mem_singleton.mp member]
      simp [isCancelled, feed?, note, listen]
    · exact Nat.le_of_eq (List.mem_singleton.mp member).symm
  take := by
    intro host held id feed queued holds found
    refine ⟨holds.distinct, fun other member => ?_⟩
    rw [(sameHooks_setFeed found queued other).1]
    exact holds.live other member
  cancel := by
    intro host held id holds
    refine holds.left.agrees fun other member => ?_
    have different : other ≠ id := by
      rintro rfl
      exact holds.apart other (List.mem_singleton_self other) member
    exact (host.feed?_drop id other).trans (if_neg different)

end Host

/-! ## Closing -/

theorem LiveElement.close_host (host : Host W) (element : LiveElement W) :
    (element.close host).2.2 = host.dropAll element.feeds := by
  cases element with
  | text raw => rfl
  | chain steps last =>
    have dropped := steps.close_host host
    rw [WatchChain.drop, foldl_release] at dropped
    rw [close, feeds_chain, ← dropped]
    rcases steps.close host with ⟨_ | _, cells, after⟩ <;> rfl

theorem closeElements_host (host : Host W) (elements : List (LiveElement W)) :
    (RenderStream.closeElements host elements).2.2 = host.dropAll (elementFeeds elements) := by
  induction elements generalizing host with
  | nil => rfl
  | cons element rest ih =>
    rw [RenderStream.closeElements, elementFeeds_cons, Host.dropAll_append, ← element.close_host]
    exact ih (element.close host).2.2

theorem closeElements_feeds (host : Host W) (elements : List (LiveElement W)) :
    elementFeeds (RenderStream.closeElements host elements).2.1 = [] := by
  refine List.flatMap_eq_nil_iff.mpr fun element member => ?_
  cases element with
  | text raw => rfl
  | chain steps last =>
    exact cellFeeds_of_blank (closeElements_blank host elements steps last member)

/-- A stream of which nothing has been pulled holds no feeds. -/
theorem elementFeeds_ofBound (template : BoundTemplate W) (context : Value)
    (viewer : Option Value) (config : Config) :
    elementFeeds (RenderStream.ofBound template context viewer config).elements = [] := by
  refine List.flatMap_eq_nil_iff.mpr fun element member => ?_
  obtain ⟨bound, -, rfl⟩ := List.mem_map.mp member
  cases bound with
  | text raw => rfl
  | placeholder placeholder => exact cellFeeds_of_blank (isBlank_ofInstruction _)

namespace Host.IsKept

variable {rule : Host W → List FeedId → Prop} (kept : IsKept rule) {host : Host W}
  {stream : RenderStream W}

include kept

theorem close (holds : rule host (elementFeeds stream.elements)) :
    rule (stream.close host).2.2 (elementFeeds (stream.close host).2.1.elements) := by
  unfold RenderStream.close
  split
  · exact holds
  · have dropped := @dropAll _ _ kept host [] (elementFeeds stream.elements) holds
    rw [← closeElements_host, ← closeElements_feeds host stream.elements] at dropped
    exact dropped

theorem next (holds : rule host (elementFeeds stream.elements)) :
    rule (stream.next host).2.2 (elementFeeds (stream.next host).2.1.elements) := by
  unfold RenderStream.next
  split
  · exact holds
  · split
    · exact kept.close holds
    · split
      · have asked := @refreshElements _ _ kept host [] stream.elements holds
        rcases outcome : RenderStream.refreshElements host stream.elements with
          ⟨_ | _, elements, after⟩ <;> rw [outcome] at asked <;> exact asked
      · exact @pullElements _ _ kept host [] stream.elements holds

end Host.IsKept

end TypedTemplate
