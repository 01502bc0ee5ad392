import TypedTemplate.Host

/-!
What the operations of a host leave alone. Consumers never change the outside state,
never take a call back and never reopen a feed; apart from the feeds that an operation
names, existing feeds stay exactly as they are (`Host.Leaves`).
-/
namespace TypedTemplate.Host

variable {W : Type}

/-! ## Single feeds -/

section Feeds

variable (host : Host W)

theorem feed?_lt {id : FeedId} {feed : Feed} (h : host.feed? id = some feed) :
    id < host.feeds.length :=
  (List.getElem?_eq_some_iff.mp h).1

theorem feed?_setFeed_self {id : FeedId} {old : Feed} (feed : Feed)
    (h : host.feed? id = some old) : (host.setFeed id feed).feed? id = some feed := by
  have inside := host.feed?_lt h
  simp [setFeed, feed?, inside]

theorem feed?_setFeed_of_ne {id other : FeedId} (feed : Feed) (h : other ≠ id) :
    (host.setFeed id feed).feed? other = host.feed? other := by
  simp [setFeed, feed?, List.getElem?_set_ne (Ne.symm h)]

end Feeds

/-! ## Frames -/

/-- The outside state, the calls made so far, the end of feeds and all feeds but the
touched ones are as before; there may be more calls and more feeds. -/
structure Leaves (touched : List FeedId) (before after : Host W) : Prop where
  state : after.state = before.state
  calls : ∀ call ∈ before.calls, call ∈ after.calls
  size : before.feeds.length ≤ after.feeds.length
  ended : ∀ {id feed}, before.feed? id = some feed → feed.ended = true →
    ∃ later, after.feed? id = some later ∧ later.ended = true
  same : ∀ {id feed}, before.feed? id = some feed → id ∉ touched → after.feed? id = some feed

namespace Leaves

theorem refl (touched : List FeedId) (host : Host W) : Leaves touched host host :=
  ⟨rfl, fun _ member => member, Nat.le_refl _, fun found ended => ⟨_, found, ended⟩,
    fun found _ => found⟩

theorem trans {touched : List FeedId} {first second third : Host W}
    (left : Leaves touched first second) (right : Leaves touched second third) :
    Leaves touched first third := by
  refine ⟨right.state.trans left.state, ?_, Nat.le_trans left.size right.size, ?_, ?_⟩
  · intro call member
    exact right.calls call (left.calls call member)
  · intro id feed found ended
    obtain ⟨later, found, ended⟩ := left.ended found ended
    exact right.ended found ended
  · intro id feed found other
    exact right.same (left.same found other) other

theorem mono {touched wider : List FeedId} {before after : Host W}
    (leaves : Leaves touched before after) (sub : touched ⊆ wider) : Leaves wider before after :=
  ⟨leaves.state, leaves.calls, leaves.size, leaves.ended,
    fun found other => leaves.same found fun member => other (sub member)⟩

end Leaves

theorem leaves_note (touched : List FeedId) (host : Host W) (call : HostCall W) :
    Leaves touched host (host.note call) :=
  ⟨rfl, fun _ member => List.mem_append_left _ member, Nat.le_refl _,
    fun found ended => ⟨_, found, ended⟩, fun found _ => found⟩

/-- Changing a feed without reopening it touches this feed only. -/
theorem leaves_setFeed {host : Host W} {id : FeedId} {old feed : Feed}
    (found : host.feed? id = some old) (ends : old.ended = true → feed.ended = true) :
    Leaves [id] host (host.setFeed id feed) := by
  refine ⟨rfl, fun _ member => member, Nat.le_of_eq List.length_set.symm, ?_, ?_⟩
  · intro other seen present ended
    by_cases same : other = id
    · subst same
      rw [found] at present
      cases present
      exact ⟨feed, host.feed?_setFeed_self feed found, ends ended⟩
    · exact ⟨seen, by rw [host.feed?_setFeed_of_ne feed same, present], ended⟩
  · intro other seen present outside
    have different : other ≠ id := by simpa using outside
    rw [host.feed?_setFeed_of_ne feed different, present]

theorem leaves_cancel (host : Host W) (id : FeedId) : Leaves [id] host (host.cancel id).2 := by
  unfold cancel
  split
  · exact Leaves.refl _ _
  · rename_i feed found
    split
    · exact Leaves.refl _ _
    · have set : Leaves [id] host (host.setFeed id { feed with cancelled := true }) :=
        leaves_setFeed found fun ended => ended
      dsimp only
      split
      · exact set
      · exact set.trans (leaves_note _ _ _)

theorem leaves_drop (host : Host W) (id : FeedId) : Leaves [id] host (host.drop id) :=
  host.leaves_cancel id

theorem leaves_apply (host : Host W) (mapping : Mapping W) (receiver : Value) (args : Arguments) :
    Leaves [] host (host.apply mapping receiver args).2 :=
  leaves_note _ _ _

theorem leaves_render (host : Host W) (display : Display W) (value : Value)
    (viewer : Option Value) : Leaves [] host (host.render display value viewer).2 :=
  leaves_note _ _ _

theorem leaves_listen (host : Host W) (subscription : Subscription) :
    Leaves [] host (host.listen subscription).2 := by
  refine ⟨rfl, fun _ member => member, by simp [listen], ?_, ?_⟩
  · intro id feed found ended
    refine ⟨feed, ?_, ended⟩
    rw [feed?, listen, List.getElem?_append_left (host.feed?_lt found)]
    exact found
  · intro id feed found _
    rw [feed?, listen, List.getElem?_append_left (host.feed?_lt found)]
    exact found

theorem leaves_subscribe (host : Host W) (mapping : Mapping W) (receiver : Value)
    (args : Arguments) : Leaves [] host (host.subscribe mapping receiver args).2 := by
  unfold subscribe
  split
  · exact Leaves.refl _ _
  · exact (leaves_listen host _).trans (leaves_note _ _ _)

/-! ## Asking a feed -/

/-- What one question to a feed says about it. Only taking a signal changes the host. -/
theorem poll_cases (host : Host W) (id : FeedId) :
    (host.poll id = (.pending, host) ∧
      ∃ feed, host.feed? id = some feed ∧ feed.cancelled = false ∧ feed.queued = 0 ∧
        feed.ended = false) ∨
    (host.poll id = (.ended, host) ∧
      ∀ feed, host.feed? id = some feed →
        feed.cancelled = true ∨ (feed.queued = 0 ∧ feed.ended = true)) ∨
    (∃ feed queued, host.feed? id = some feed ∧ feed.cancelled = false ∧
      feed.queued = queued + 1 ∧
      host.poll id = (.signal, host.setFeed id { feed with queued })) := by
  unfold poll
  cases found : host.feed? id with
  | none => exact .inr (.inl ⟨rfl, by simp⟩)
  | some feed =>
    cases cancelled : feed.cancelled with
    | true => exact .inr (.inl ⟨by simp [cancelled], by simp [cancelled]⟩)
    | false =>
      cases waiting : feed.queued with
      | succ queued =>
        exact .inr (.inr ⟨feed, queued, rfl, cancelled, waiting, by simp [cancelled, waiting]⟩)
      | zero =>
        cases ended : feed.ended with
        | true => exact .inr (.inl ⟨by simp [cancelled, waiting, ended], by simp [waiting, ended]⟩)
        | false =>
          exact .inl ⟨by simp [cancelled, waiting, ended], feed, rfl, cancelled, waiting, ended⟩

end TypedTemplate.Host
