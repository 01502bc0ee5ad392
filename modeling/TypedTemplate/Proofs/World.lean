import TypedTemplate.Host

/-!
How the outside world moves while a template is rendered. Its state may change in any
way, feeds may get signals and may end, and others may call and subscribe as well. It
keeps two promises. When the result of a mapping changes for some inputs, every open
feed that the mapping has returned for these inputs gets a signal; and a feed ends only
when the result it is about will not change any more.
-/
namespace TypedTemplate

/-- Whether a feed can still get signals. -/
def Feed.isOpen (feed : Feed) : Bool := !feed.cancelled && !feed.ended

/-- What the world may do to a feed: queue signals and end it. A cancelled feed is out
of its reach, and nobody but the consumer cancels a feed or takes signals. -/
structure Feed.Grows (before after : Feed) : Prop where
  cancelled : after.cancelled = before.cancelled
  queued : before.queued ≤ after.queued
  ended : before.ended = true → after.ended = true
  gone : before.cancelled = true → after = before

def Feed.signalled (feed : Feed) : Feed :=
  if feed.cancelled then feed else { feed with queued := feed.queued + 1 }

theorem Feed.grows_signalled (feed : Feed) : feed.Grows feed.signalled := by
  unfold signalled
  split
  · exact ⟨rfl, Nat.le_refl _, id, fun _ => rfl⟩
  · rename_i live
    exact ⟨rfl, Nat.le_succ _, id, fun gone => absurd gone live⟩

namespace Host

variable {W : Type}

/-- A move of the world. -/
structure Evolves (before after : Host W) : Prop where
  calls : ∀ call ∈ before.calls, call ∈ after.calls
  feeds : ∀ {id feed}, before.feed? id = some feed →
    ∃ later, after.feed? id = some later ∧ feed.Grows later
  /-- A changed result is signalled to all who can still hear of it. -/
  signals : ∀ {mapping receiver args id feed later},
    .subscribe mapping receiver args id ∈ before.calls →
    before.feed? id = some feed → feed.isOpen = true →
    mapping.map after.state receiver args ≠ mapping.map before.state receiver args →
    after.feed? id = some later → feed.queued < later.queued
  /-- The result that an ended feed was about has settled. -/
  settled : ∀ {mapping receiver args id feed},
    .subscribe mapping receiver args id ∈ before.calls →
    before.feed? id = some feed → feed.ended = true →
    mapping.map after.state receiver args = mapping.map before.state receiver args

theorem Evolves.size {before after : Host W} (moved : before.Evolves after) :
    before.feeds.length ≤ after.feeds.length := by
  refine Nat.le_of_not_lt fun shorter => ?_
  have found : before.feed? after.feeds.length = some before.feeds[after.feeds.length] :=
    List.getElem?_eq_getElem shorter
  obtain ⟨later, laterFound, -⟩ := moved.feeds found
  exact Nat.lt_irrefl _ (List.getElem?_eq_some_iff.mp laterFound).1

/-- The move to another state that is signalled in every feed. -/
def announce (host : Host W) (state : W) : Host W :=
  { host with state := state, feeds := host.feeds.map Feed.signalled }

theorem evolves_announce {host : Host W} (lasting : ∀ feed ∈ host.feeds, feed.ended = false)
    (state : W) : host.Evolves (host.announce state) where
  calls := fun _ member => member
  feeds := by
    intro id feed found
    rw [feed?] at found
    refine ⟨feed.signalled, ?_, feed.grows_signalled⟩
    rw [announce, feed?, List.getElem?_map, found]
    rfl
  signals := by
    intro mapping receiver args id feed later _ found isOpen _ laterFound
    rw [feed?] at found
    rw [announce, feed?, List.getElem?_map, found] at laterFound
    cases laterFound
    simp only [Feed.isOpen, Bool.and_eq_true, Bool.not_eq_true'] at isOpen
    rw [Feed.signalled, isOpen.1]
    exact Nat.lt_succ_self feed.queued
  settled := by
    intro mapping receiver args id feed _ found ended
    rw [lasting feed (List.mem_of_getElem? found)] at ended
    cases ended

end Host

end TypedTemplate
