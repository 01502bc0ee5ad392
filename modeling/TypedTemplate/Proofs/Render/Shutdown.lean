import TypedTemplate.Proofs.Render.Custody

/-!
Cancellation is final. Once somebody has asked a stream to end or has closed it, polls give
nothing any more and the host hears of the stream only through cancel hooks
(`RenderStream.Later.isFinal`). The first such poll or close leaves no feed behind: a feed that
has been started and is not cancelled is held by a cell (`Host.Tallies`), and closing cancels
all that are held.
-/
namespace TypedTemplate

variable {W : Type}

/-- Whether the call runs a cancel hook. -/
def HostCall.isHook : HostCall W → Bool
  | cancel _ _ => true
  | _ => false

namespace Host

variable {host after : Host W} {held : List FeedId} {id : FeedId}

/-! ## Feeds that have been started -/

theorem started_cancel (host : Host W) (id other : FeedId) :
    (host.cancel id).2.Started other ↔ host.Started other := by
  unfold cancel
  split
  · exact Iff.rfl
  · split
    · exact Iff.rfl
    · dsimp only
      split
      · exact Iff.rfl
      · rw [started_note]
        exact or_iff_left (by simp)

/-- A hook runs when its feed is cancelled for the first time. -/
theorem hookRuns_cancel {feed : Feed} (found : host.feed? id = some feed) (other : FeedId) :
    (host.cancel id).2.hookRuns other = host.hookRuns other +
      if other = id ∧ feed.cancelled = false ∧ feed.hook.isSome = true then 1 else 0 := by
  have set : ∀ later, (host.setFeed id later).hookRuns other = host.hookRuns other :=
    fun _ => rfl
  unfold cancel
  rw [found]
  cases live : feed.cancelled with
  | true => simp [live]
  | false =>
    cases hooked : feed.hook with
    | none => simp [live, hooked, set]
    | some hook =>
      simp only [live, hooked, Bool.false_eq_true, if_false]
      rw [hookRuns_note, set]
      by_cases same : other = id
      · simp [HostCall.cancels, same]
      · simp [HostCall.cancels, same, Ne.symm same]

/-- How often the hook of a feed has to have run. -/
def hookDue (feed : Feed) : Nat := if feed.cancelled && feed.hook.isSome then 1 else 0

/-- Each feed that has been started is held as long as it has not been cancelled, and its hook,
if it has one, has run once if it has been cancelled. No other hook has run. -/
structure Tallies (host : Host W) (held : List FeedId) : Prop where
  started : ∀ id ∈ held, host.Started id
  feeds : ∀ id, host.Started id → ∃ feed, host.feed? id = some feed ∧
    (feed.cancelled = false → id ∈ held) ∧ host.hookRuns id = hookDue feed
  silent : ∀ id, ¬ host.Started id → host.hookRuns id = 0

theorem tallies_nil (world : W) : Tallies { state := world } [] := by
  have none : ∀ id, ¬ Started ({ state := world } : Host W) id := by simp [Started]
  exact ⟨fun _ held => absurd held List.not_mem_nil, fun id started => absurd started (none id),
    fun _ _ => rfl⟩

namespace Tallies

theorem exists_feed (tallies : host.Tallies held) (member : id ∈ held) :
    ∃ feed, host.feed? id = some feed ∧ host.hookRuns id = hookDue feed := by
  obtain ⟨feed, found, -, runs⟩ := tallies.feeds id (tallies.started id member)
  exact ⟨feed, found, runs⟩

theorem perm {new : List FeedId} (tallies : host.Tallies held) (perm : new.Perm held) :
    host.Tallies new := by
  refine ⟨fun id member => tallies.started id (perm.subset member), ?_, tallies.silent⟩
  intro id known
  obtain ⟨feed, found, keeps, runs⟩ := tallies.feeds id known
  exact ⟨feed, found, fun live => perm.symm.subset (keeps live), runs⟩

/-- What neither starts feeds nor runs hooks does not matter. -/
theorem of_same (tallies : host.Tallies held) (started : ∀ id, after.Started id ↔ host.Started id)
    (runs : ∀ id, after.hookRuns id = host.hookRuns id)
    (feeds : ∀ id feed, host.feed? id = some feed → ∃ later, after.feed? id = some later ∧
      later.cancelled = feed.cancelled ∧ later.hook = feed.hook) : after.Tallies held := by
  refine ⟨fun id member => (started id).mpr (tallies.started id member), ?_, ?_⟩
  · intro id known
    obtain ⟨feed, found, keeps, due⟩ := tallies.feeds id ((started id).mp known)
    obtain ⟨later, present, cancelled, hook⟩ := feeds id feed found
    refine ⟨later, present, fun live => keeps (cancelled ▸ live), ?_⟩
    rw [runs, due, hookDue, hookDue, cancelled, hook]
  · intro id unknown
    rw [runs]
    exact tallies.silent id fun known => unknown ((started id).mpr known)

theorem drift (tallies : host.Tallies held) (drifts : host.Drifts after) : after.Tallies held := by
  refine tallies.of_same (fun id => ?_) (fun id => ?_) drifts.feeds
  · rw [Started, Started, drifts.calls]
  · rw [hookRuns, hookRuns, drifts.calls]

theorem evaluate {call : HostCall W} (tallies : host.Tallies held)
    (evaluation : call.isEvaluation = true) : (host.note call).Tallies held := by
  refine tallies.of_same (fun id => ?_) (fun id => ?_) fun id feed found => ⟨feed, found, rfl, rfl⟩
  · rw [started_note]
    refine or_iff_left ?_
    rintro ⟨mapping, receiver, args, rfl⟩
    cases evaluation
  · have quiet : call.cancels id = false := by
      cases call with
      | cancel feed hook => cases evaluation
      | _ => rfl
    rw [hookRuns_note, quiet]
    rfl

/-- A new feed has a new number, for which no hook has run. -/
theorem subscribe (tallies : host.Tallies held) (mapping : Mapping W) (receiver : Value)
    (args : Arguments) (subscription : Subscription) :
    ((host.listen subscription).2.note
      (.subscribe mapping receiver args host.feeds.length)).Tallies
        (held ++ [host.feeds.length]) := by
  have known : ∀ id, host.Started id → id < host.feeds.length := by
    intro id started
    obtain ⟨feed, found, -⟩ := tallies.feeds id started
    exact host.feed?_lt found
  have fresh : ¬ host.Started host.feeds.length := fun started => Nat.lt_irrefl _ (known _ started)
  have started_iff := host.started_subscribe subscription mapping receiver args
  have runs : ∀ id, ((host.listen subscription).2.note
      (.subscribe mapping receiver args host.feeds.length)).hookRuns id = host.hookRuns id :=
    fun id => hookRuns_note _ _ id
  constructor
  · intro id member
    rw [started_iff]
    exact (List.mem_append.mp member).imp (tallies.started id) List.mem_singleton.mp
  · intro id started
    rcases (started_iff id).mp started with old | rfl
    · obtain ⟨feed, found, keeps, due⟩ := tallies.feeds id old
      have less := known id old
      refine ⟨feed, ?_, fun live => List.mem_append_left _ (keeps live), (runs id).trans due⟩
      simpa [listen, note, feed?, List.getElem?_append_left less] using found
    · refine ⟨{ toSubscription := subscription }, by simp [listen, note, feed?], by simp, ?_⟩
      rw [runs, tallies.silent _ fresh]
      simp [hookDue]
  · intro id unknown
    rw [runs]
    exact tallies.silent id fun old => unknown ((started_iff id).mpr (.inl old))

/-- Cancelling a feed that is held runs its hook unless it has been cancelled before. -/
theorem cancel (tallies : host.Tallies (held ++ [id])) : (host.cancel id).2.Tallies held := by
  have member : id ∈ held ++ [id] := by simp
  obtain ⟨feed, found, due⟩ := tallies.exists_feed member
  have after (other : FeedId) : (host.cancel id).2.feed? other =
      if other = id then some { feed with cancelled := true } else host.feed? other := by
    have dropped := host.feed?_drop id other
    rw [found, Option.map_some] at dropped
    exact dropped
  constructor
  · intro other inside
    rw [started_cancel]
    exact tallies.started other (List.mem_append_left _ inside)
  · intro other known
    rw [started_cancel] at known
    obtain ⟨seen, present, keeps, ran⟩ := tallies.feeds other known
    rw [after, hookRuns_cancel found]
    by_cases here : other = id
    · subst here
      refine ⟨_, if_pos rfl, nofun, ?_⟩
      rw [due, hookDue, hookDue]
      cases feed.cancelled <;> cases feed.hook <;> simp
    · refine ⟨seen, by rw [if_neg here, present], fun live => ?_, ?_⟩
      · simpa [here] using keeps live
      · rw [if_neg (by simp [here]), Nat.add_zero, ran]
  · intro other unknown
    rw [started_cancel] at unknown
    have elsewhere : other ≠ id := by
      rintro rfl
      exact unknown (tallies.started other member)
    rw [hookRuns_cancel found, if_neg (by simp [elsewhere]), Nat.add_zero]
    exact tallies.silent other unknown

end Tallies

theorem tallies_isKept : IsKept (Tallies (W := W)) where
  perm := Tallies.perm
  evaluate := Tallies.evaluate
  subscribe mapping receiver args subscription tallies :=
    tallies.subscribe mapping receiver args subscription
  take _ tallies found := tallies.drift (drifts_setFeed found rfl rfl)
  cancel := Tallies.cancel

/-! ## Hooks only -/

/-- Whether nothing has been called in between but cancel hooks. -/
def OnlyHooks (before after : Host W) : Prop :=
  ∃ hooks, after.calls = before.calls ++ hooks ∧ ∀ call ∈ hooks, call.isHook = true

theorem OnlyHooks.refl (host : Host W) : host.OnlyHooks host := ⟨[], by simp, nofun⟩

theorem OnlyHooks.trans {first next last : Host W} (left : first.OnlyHooks next)
    (right : next.OnlyHooks last) : first.OnlyHooks last := by
  obtain ⟨hooks, after, all⟩ := left
  obtain ⟨more, now, others⟩ := right
  refine ⟨hooks ++ more, ?_, List.forall_mem_append.mpr ⟨all, others⟩⟩
  rw [now, after, List.append_assoc]

theorem onlyHooks_drop (host : Host W) (id : FeedId) : host.OnlyHooks (host.drop id) := by
  unfold drop cancel
  split
  · exact .refl host
  · split
    · exact .refl host
    · dsimp only
      split
      · exact ⟨[], by simp [setFeed], nofun⟩
      · rename_i hook _
        exact ⟨[.cancel id hook], rfl, by simp [HostCall.isHook]⟩

theorem onlyHooks_dropAll (host : Host W) (ids : List FeedId) : host.OnlyHooks (host.dropAll ids) := by
  induction ids generalizing host with
  | nil => exact .refl host
  | cons id rest ih => exact (host.onlyHooks_drop id).trans (ih (host.drop id))

end Host

/-! ## Streams -/

namespace RenderStream

/-- What can happen to a stream from a state on, in any order: polls, each of which may be given
up, requests to end, and closings. In between the outside does what it likes to its own state and
to the signals of feeds. A request that comes while a poll is at work is seen by the next one. -/
inductive Later (stream : RenderStream W) (host : Host W) : RenderStream W → Host W → Prop
  | now : Later stream host stream host
  | drifted {later : RenderStream W} {before after : Host W}
      (run : Later stream host later before) (drifts : before.Drifts after) :
      Later stream host later after
  | polled {later : RenderStream W} {after : Host W} (run : Later stream host later after) :
      Later stream host (later.next after).2.1 (later.next after).2.2
  | cancelled {later : RenderStream W} {after : Host W} (run : Later stream host later after) :
      Later stream host later.cancel after
  | closed {later : RenderStream W} {after : Host W} (run : Later stream host later after) :
      Later stream host (later.close after).2.1 (later.close after).2.2

/-- The two ways to end a stream. -/
inductive Stops (stream : RenderStream W) (host : Host W) : RenderStream W → Host W → Prop
  | cancelled : Stops stream host stream.cancel host
  | closed : Stops stream host (stream.close host).2.1 (stream.close host).2.2

/-- All feeds that were ever started have been cancelled, each hook has run exactly once, and
closing does nothing. -/
structure IsOver (stream : RenderStream W) (host : Host W) : Prop where
  feeds : ∀ id, host.Started id → ∃ feed, host.feed? id = some feed ∧ feed.cancelled = true ∧
    host.hookRuns id = if feed.hook.isSome then 1 else 0
  close : stream.close host = (.ok (), stream, host)

/-- What holds in every state of a stream that has been stopped when the host was `stopped`. -/
structure IsFinal (stopped : Host W) (stream : RenderStream W) (host : Host W) : Prop where
  /-- A poll gives nothing, whatever signals wait. -/
  next : (stream.next host).1 = .ended
  /-- No mapping, subscription or display has been called since. -/
  silent : stopped.OnlyHooks host
  /-- After one poll or close it is over for good. -/
  polled : ∀ {later : RenderStream W} {after : Host W},
    (stream.next host).2.1.Later (stream.next host).2.2 later after → later.IsOver after
  closed : ∀ {later : RenderStream W} {after : Host W},
    (stream.close host).2.1.Later (stream.close host).2.2 later after → later.IsOver after
  settled : stream.closed = true → stream.IsOver host

variable {stream later : RenderStream W} {host after : Host W}

theorem next_of_stopped (stopped : stream.cancelled = true) (host : Host W) :
    stream.next host = (.ended, (stream.close host).2) := by
  unfold next close
  cases stream.closed with
  | true => rfl
  | false => simp only [stopped, Bool.false_eq_true, if_false, if_true]

theorem close_of_closed (closed : stream.closed = true) (host : Host W) :
    stream.close host = (.ok (), stream, host) := by
  rw [close, if_pos closed]

theorem onlyHooks_close (stream : RenderStream W) (host : Host W) :
    host.OnlyHooks (stream.close host).2.2 := by
  unfold close
  split
  · exact .refl host
  · dsimp only
    rw [closeElements_host]
    exact host.onlyHooks_dropAll _

/-- What every state of a stream keeps: a closed one counts as cancelled and holds no feeds. -/
structure IsTallied (stream : RenderStream W) (host : Host W) : Prop where
  tallies : host.Tallies (elementFeeds stream.elements)
  closed : stream.closed = true → stream.cancelled = true ∧ elementFeeds stream.elements = []

theorem IsTallied.close (tallied : stream.IsTallied host) :
    (stream.close host).2.1.IsTallied (stream.close host).2.2 := by
  refine ⟨Host.tallies_isKept.close tallied.tallies, fun _ => ?_⟩
  unfold RenderStream.close
  split
  · rename_i closed
    exact tallied.closed closed
  · exact ⟨rfl, closeElements_feeds host stream.elements⟩

theorem next_closed (isOpen : stream.closed = false) (uncancelled : stream.cancelled = false)
    (host : Host W) : (stream.next host).2.1.closed = false := by
  unfold next
  rw [if_neg (by simp [isOpen]), if_neg (by simp [uncancelled])]
  split
  · split <;> exact isOpen
  · exact isOpen

theorem IsTallied.next (tallied : stream.IsTallied host) :
    (stream.next host).2.1.IsTallied (stream.next host).2.2 := by
  cases stopped : stream.cancelled with
  | true =>
    rw [next_of_stopped stopped]
    exact tallied.close
  | false =>
    have isOpen : stream.closed = false := by
      by_contra closed
      rw [(tallied.closed (by simpa using closed)).1] at stopped
      cases stopped
    refine ⟨Host.tallies_isKept.next tallied.tallies, fun closed => ?_⟩
    rw [next_closed isOpen stopped] at closed
    cases closed

theorem Later.isTallied (run : stream.Later host later after) (tallied : stream.IsTallied host) :
    later.IsTallied after := by
  induction run with
  | now => exact tallied
  | drifted _ drifts ih => exact ⟨ih.tallies.drift drifts, ih.closed⟩
  | polled _ ih => exact ih.next
  | cancelled _ ih => exact ⟨ih.tallies, fun closed => ⟨rfl, (ih.closed closed).2⟩⟩
  | closed _ ih => exact ih.close

theorem isTallied_ofBound (template : BoundTemplate W) (context : Value) (viewer : Option Value)
    (config : Config) (world : W) :
    (ofBound template context viewer config).IsTallied { state := world } := by
  refine ⟨?_, nofun⟩
  rw [elementFeeds_ofBound]
  exact Host.tallies_nil world

/-- Nobody can take a request to end back, and it keeps the host from being called. -/
theorem Later.stopped (run : stream.Later host later after) (stopped : stream.cancelled = true) :
    later.cancelled = true ∧ host.OnlyHooks after := by
  have close : ∀ {before : RenderStream W} {now : Host W}, before.cancelled = true →
      (before.close now).2.1.cancelled = true := by
    intro before now stopped
    unfold RenderStream.close
    split
    · exact stopped
    · rfl
  induction run with
  | now => exact ⟨stopped, .refl host⟩
  | drifted _ drifts ih =>
    refine ⟨ih.1, ih.2.trans ⟨[], ?_, nofun⟩⟩
    rw [drifts.calls, List.append_nil]
  | polled _ ih =>
    rw [next_of_stopped ih.1]
    exact ⟨close ih.1, ih.2.trans (onlyHooks_close _ _)⟩
  | cancelled _ ih => exact ⟨rfl, ih.2⟩
  | closed _ ih => exact ⟨close ih.1, ih.2.trans (onlyHooks_close _ _)⟩

theorem Later.stays_closed (run : stream.Later host later after) (closed : stream.closed = true) :
    later.closed = true := by
  induction run with
  | now => exact closed
  | drifted _ _ ih => exact ih
  | polled _ ih =>
    rw [RenderStream.next, if_pos ih]
    exact ih
  | cancelled _ ih => exact ih
  | closed _ _ => exact close_closed _ _

theorem IsTallied.isOver (tallied : stream.IsTallied host) (closed : stream.closed = true) :
    stream.IsOver host := by
  refine ⟨fun id started => ?_, close_of_closed closed host⟩
  obtain ⟨feed, found, keeps, due⟩ := tallied.tallies.feeds id started
  rw [(tallied.closed closed).2] at keeps
  have cancelled : feed.cancelled = true := by
    by_contra live
    exact List.not_mem_nil (keeps (by simpa using live))
  refine ⟨feed, found, cancelled, ?_⟩
  rw [due, Host.hookDue, cancelled, Bool.true_and]

theorem IsTallied.isOver_later (tallied : stream.IsTallied host) (closed : stream.closed = true)
    (run : stream.Later host later after) : later.IsOver after :=
  (run.isTallied tallied).isOver (run.stays_closed closed)

theorem Stops.stopped (stops : stream.Stops host later after) (tallied : stream.IsTallied host) :
    later.IsTallied after ∧ later.cancelled = true := by
  cases stops with
  | cancelled => exact ⟨⟨tallied.tallies, fun closed => ⟨rfl, (tallied.closed closed).2⟩⟩, rfl⟩
  | closed => exact ⟨tallied.close, (tallied.close.closed (close_closed stream host)).1⟩

/-- Cancellation is final. However a stream has been used and whatever signals wait, once it has
been asked to end or has been closed, every poll gives nothing and no host function is called
again but cancel hooks; and after one more poll or close, all feeds that were ever started have
been cancelled, their hooks have run exactly once, and closing again does nothing. -/
theorem Later.isFinal {template : BoundTemplate W} {context : Value} {viewer : Option Value}
    {config : Config} {world : W} {stopped last : RenderStream W} {since present : Host W}
    (run : (ofBound template context viewer config).Later { state := world } stream host)
    (stops : stream.Stops host stopped since) (goes : stopped.Later since last present) :
    last.IsFinal since present := by
  have opened := isTallied_ofBound template context viewer config world
  obtain ⟨tallied, ended⟩ := stops.stopped (run.isTallied opened)
  have present := goes.isTallied tallied
  obtain ⟨stillEnded, silent⟩ := goes.stopped ended
  have polls := next_of_stopped stillEnded
  refine ⟨?_, silent, ?_, ?_, present.isOver⟩
  · rw [polls]
  · rw [polls]
    exact present.close.isOver_later (close_closed _ _)
  · exact present.close.isOver_later (close_closed _ _)

/-- The clock has been read and has struck, and nobody waits for it any more. -/
theorem isFinal_strikingClock :
    let template : BoundTemplate String :=
      ⟨[.placeholder ⟨"clock", [⟨.cons strikingClock .nil .nil, clockText⟩]⟩]⟩
    let opened := ofBound template (.context []) none {}
    let shown := (opened.next { state := "1" }).2
    let struck := { (shown.2.signal 0).2 with state := "2" }
    let last := (shown.1.cancel.next struck).2
    opened.Later { state := "1" } shown.1 struck ∧
      shown.1.Stops struck shown.1.cancel struck ∧
      shown.1.cancel.Later struck last.1 last.2 ∧ last.1.IsFinal struck last.2 ∧
      struck.hookRuns 0 = 0 ∧ last.2.hookRuns 0 = 1 := by
  intro template opened shown struck last
  have run : opened.Later { state := "1" } shown.1 struck :=
    (Later.now.polled).drifted (Host.drifts_signal shown.2 0 "2")
  have goes : shown.1.cancel.Later struck last.1 last.2 := Later.now.polled
  exact ⟨run, .cancelled, goes, run.isFinal .cancelled goes, rfl, rfl⟩

end RenderStream

end TypedTemplate
