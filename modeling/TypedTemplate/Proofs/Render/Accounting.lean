import Mathlib.Data.List.Nodup
import TypedTemplate.Proofs.Render.FirstPull
import TypedTemplate.Proofs.Render.Recompute

/-!
Every feed that a chain has started is accounted for. Its hook has not run exactly while a
cell holds it (`Host.Accounts`), and only the computed cell of a mutable mapping holds one
(`Stored`). Both survive each operation on a chain, in any order: pulling starts feeds in
blank cells only, and whatever takes a feed out of its cell cancels it.
-/
namespace TypedTemplate

variable {W : Type}

/-! ## Hooks -/

/-- Whether the call runs the hook of a feed. -/
def HostCall.cancels (id : FeedId) : HostCall W → Bool
  | cancel feed _ => feed == id
  | _ => false

namespace Host

/-- How often the hook of a feed has run. -/
def hookRuns (host : Host W) (id : FeedId) : Nat := host.calls.countP (HostCall.cancels id)

/-- Whether a subscription has returned the feed. -/
def Started (host : Host W) (id : FeedId) : Prop :=
  ∃ mapping receiver args, .subscribe mapping receiver args id ∈ host.calls

/-- The feeds that have been started are those that are held, with hooks that have not run,
and those that have been cancelled, with hooks that have run once. -/
structure Accounts (host : Host W) (held : List FeedId) : Prop where
  distinct : held.Nodup
  started : ∀ id ∈ held, host.Started id
  feeds : ∀ id, host.Started id → ∃ feed, host.feed? id = some feed ∧
    feed.hook.isSome = true ∧ (feed.cancelled = false ↔ id ∈ held)
  waiting : ∀ id, (host.Started id → id ∈ held) → host.hookRuns id = 0
  settled : ∀ id, host.Started id → id ∉ held → host.hookRuns id = 1

/-- What the outside world may do while nobody operates on the chain: anything to its own
state and to the signals of feeds, which it can neither cancel nor give other hooks. -/
structure Drifts (before after : Host W) : Prop where
  calls : after.calls = before.calls
  feeds : ∀ id feed, before.feed? id = some feed →
    ∃ later, after.feed? id = some later ∧ later.cancelled = feed.cancelled ∧
      later.hook = feed.hook

theorem drifts_setFeed {host : Host W} {id : FeedId} {feed later : Feed}
    (found : host.feed? id = some feed) (cancelled : later.cancelled = feed.cancelled)
    (hook : later.hook = feed.hook) : host.Drifts (host.setFeed id later) := by
  refine ⟨rfl, fun other seen present => ?_⟩
  by_cases same : other = id
  · subst same
    rw [found] at present
    cases present
    exact ⟨later, host.feed?_setFeed_self later found, cancelled, hook⟩
  · exact ⟨seen, (host.feed?_setFeed_of_ne later same).trans present, rfl, rfl⟩

theorem hookRuns_note (host : Host W) (call : HostCall W) (id : FeedId) :
    (host.note call).hookRuns id = host.hookRuns id + if call.cancels id then 1 else 0 := by
  simp [hookRuns, note, List.countP_append, List.countP_cons]

theorem started_note {host : Host W} {call : HostCall W} {id : FeedId} :
    (host.note call).Started id ↔
      host.Started id ∨ ∃ mapping receiver args, call = .subscribe mapping receiver args id := by
  simp [Started, note, exists_or, eq_comm]

/-- A subscription starts the feed with the next number. -/
theorem started_subscribe (host : Host W) (subscription : Subscription) (mapping : Mapping W)
    (receiver : Value) (args : Arguments) (id : FeedId) :
    ((host.listen subscription).2.note
      (.subscribe mapping receiver args host.feeds.length)).Started id ↔
        host.Started id ∨ id = host.feeds.length := by
  rw [started_note]
  refine or_congr Iff.rfl ⟨?_, ?_⟩
  · rintro ⟨_, _, _, same⟩
    cases same
    rfl
  · rintro rfl
    exact ⟨mapping, receiver, args, rfl⟩

theorem accounts_nil (world : W) : Accounts { state := world } [] := by
  have none : ∀ id, ¬ Started ({ state := world } : Host W) id := by simp [Started]
  exact ⟨List.nodup_nil, by simp, fun id started => absurd started (none id), fun _ _ => rfl,
    fun id started => absurd started (none id)⟩

theorem hookRuns_noteAll (host : Host W) {calls : List (HostCall W)}
    (evaluations : ∀ call ∈ calls, call.isEvaluation = true) (id : FeedId) :
    (host.noteAll calls).hookRuns id = host.hookRuns id := by
  have none : calls.countP (HostCall.cancels id) = 0 := by
    refine List.countP_eq_zero.mpr fun call member => ?_
    have evaluation := evaluations call member
    cases call <;> simp_all [HostCall.isEvaluation, HostCall.cancels]
  simp [hookRuns, noteAll, List.countP_append, none]

namespace Accounts

variable {host after : Host W} {held : List FeedId}

/-- What neither starts feeds nor runs hooks does not matter. -/
theorem of_same (accounts : host.Accounts held)
    (started : ∀ id, after.Started id ↔ host.Started id)
    (runs : ∀ id, after.hookRuns id = host.hookRuns id)
    (feeds : ∀ id feed, host.feed? id = some feed → ∃ later, after.feed? id = some later ∧
      later.cancelled = feed.cancelled ∧ later.hook = feed.hook) : after.Accounts held := by
  refine ⟨accounts.distinct, fun id member => (started id).mpr (accounts.started id member), ?_,
    fun id kept => (runs id).trans (accounts.waiting id fun known => kept ((started id).mpr known)),
    fun id known free => (runs id).trans (accounts.settled id ((started id).mp known) free)⟩
  intro id known
  obtain ⟨feed, found, hooked, open_iff⟩ := accounts.feeds id ((started id).mp known)
  obtain ⟨later, laterFound, cancelled, hook⟩ := feeds id feed found
  exact ⟨later, laterFound, hook ▸ hooked, cancelled ▸ open_iff⟩

theorem drift (accounts : host.Accounts held) (drifts : host.Drifts after) :
    after.Accounts held := by
  refine accounts.of_same (fun id => ?_) (fun id => ?_) drifts.feeds
  · rw [Started, Started, drifts.calls]
  · rw [hookRuns, hookRuns, drifts.calls]

theorem noteAll (accounts : host.Accounts held) {calls : List (HostCall W)}
    (evaluations : ∀ call ∈ calls, call.isEvaluation = true) :
    (host.noteAll calls).Accounts held := by
  refine accounts.of_same (fun id => ?_) (host.hookRuns_noteAll evaluations)
    fun id feed found => ⟨feed, found, rfl, rfl⟩
  have none : ∀ mapping receiver args, HostCall.subscribe mapping receiver args id ∉ calls :=
    fun mapping receiver args member => nomatch evaluations _ member
  simp [Started, Host.noteAll, none]

/-- A new feed is held from the moment it is started. -/
theorem subscribe (accounts : host.Accounts held) (mapping : Mapping W) (receiver : Value)
    (args : Arguments) {subscription : Subscription} (hooked : subscription.hook.isSome = true) :
    ((host.listen subscription).2.note
      (.subscribe mapping receiver args host.feeds.length)).Accounts
        (held ++ [host.feeds.length]) := by
  have known : ∀ id, host.Started id → id < host.feeds.length := by
    intro id started
    obtain ⟨feed, found, -⟩ := accounts.feeds id started
    exact host.feed?_lt found
  have fresh : ¬ host.Started host.feeds.length := fun started => Nat.lt_irrefl _ (known _ started)
  have started_iff := host.started_subscribe subscription mapping receiver args
  have runs : ∀ id, ((host.listen subscription).2.note
      (.subscribe mapping receiver args host.feeds.length)).hookRuns id = host.hookRuns id :=
    fun id => hookRuns_note _ _ id
  refine ⟨?_, ?_, ?_, ?_, ?_⟩
  · refine List.nodup_append.mpr ⟨accounts.distinct, List.nodup_singleton _, ?_⟩
    rintro id member _ new rfl
    rw [List.mem_singleton] at new
    exact fresh (new ▸ accounts.started id member)
  · intro id member
    rw [started_iff]
    exact (List.mem_append.mp member).imp (accounts.started id) List.mem_singleton.mp
  · intro id started
    rcases (started_iff id).mp started with old | rfl
    · obtain ⟨feed, found, hook, open_iff⟩ := accounts.feeds id old
      have less := known id old
      refine ⟨feed, ?_, hook, ?_⟩
      · simpa [listen, note, feed?, List.getElem?_append_left less] using found
      · simp [open_iff, Nat.ne_of_lt less]
    · exact ⟨{ toSubscription := subscription }, by simp [listen, note, feed?], hooked, by simp⟩
  · intro id kept
    rw [runs]
    refine accounts.waiting id fun old => ?_
    have different : id ≠ host.feeds.length := fun same => fresh (same ▸ old)
    simpa [different] using kept ((started_iff id).mpr (.inl old))
  · intro id started free
    rw [List.mem_append, not_or, List.mem_singleton] at free
    rw [runs]
    exact accounts.settled id (((started_iff id).mp started).resolve_right free.2) free.1

/-- A held feed has not been cancelled, so cancelling it runs its hook. -/
theorem cancel_eq {id : FeedId} (accounts : host.Accounts held) (member : id ∈ held) :
    ∃ feed hook, host.feed? id = some feed ∧
      (host.cancel id).2 =
        (host.setFeed id { feed with cancelled := true }).note (.cancel id hook) := by
  obtain ⟨feed, found, hooked, open_iff⟩ := accounts.feeds id (accounts.started id member)
  obtain ⟨hook, hook_eq⟩ := Option.isSome_iff_exists.mp hooked
  have live : feed.cancelled = false := open_iff.mpr member
  exact ⟨feed, hook, found, by simp [Host.cancel, found, live, hook_eq]⟩

/-- Cancelling a held feed runs its hook and takes it off the list. -/
theorem cancel {first rest : List FeedId} {id : FeedId}
    (accounts : host.Accounts (first ++ id :: rest)) :
    (host.cancel id).2.Accounts (first ++ rest) := by
  have member : id ∈ first ++ id :: rest := by simp
  have started := accounts.started id member
  obtain ⟨feed, hook, found, after⟩ := accounts.cancel_eq member
  have distinct := accounts.distinct
  rw [List.nodup_middle, List.nodup_cons] at distinct
  have still : ∀ other, other ∈ first ++ rest ↔ other ∈ first ++ id :: rest ∧ other ≠ id := by
    intro other
    by_cases same : other = id
    · subst same
      simpa using distinct.1
    · simp [same]
  have started_iff : ∀ other, (host.cancel id).2.Started other ↔ host.Started other := by
    intro other
    rw [after, started_note]
    exact or_iff_left (by simp)
  have runs : ∀ other, (host.cancel id).2.hookRuns other =
      host.hookRuns other + if id = other then 1 else 0 := by
    intro other
    rw [after, hookRuns_note]
    simp [HostCall.cancels, hookRuns, setFeed]
  refine ⟨distinct.2, ?_, ?_, ?_, ?_⟩
  · intro other inside
    exact (started_iff other).mpr (accounts.started other ((still other).mp inside).1)
  · intro other known
    obtain ⟨seen, present, hook, alive⟩ := accounts.feeds other ((started_iff other).mp known)
    by_cases same : other = id
    · subst same
      rw [found] at present
      cases present
      refine ⟨{ feed with cancelled := true }, ?_, hook, ?_⟩
      · rw [after]
        exact host.feed?_setFeed_self _ found
      · simpa using distinct.1
    · refine ⟨seen, ?_, hook, ?_⟩
      · rw [after]
        exact (host.feed?_setFeed_of_ne _ same).trans present
      · rw [alive, still]
        exact (and_iff_left same).symm
  · intro other kept
    have different : id ≠ other := by
      rintro rfl
      exact ((still id).mp (kept ((started_iff id).mpr started))).2 rfl
    rw [runs, if_neg different]
    exact accounts.waiting other fun old =>
      ((still other).mp (kept ((started_iff other).mpr old))).1
  · intro other known free
    rw [runs]
    by_cases same : id = other
    · subst same
      rw [accounts.waiting id fun _ => member, if_pos rfl]
    · have outside : other ∉ first ++ id :: rest :=
        fun inside => free ((still other).mpr ⟨inside, Ne.symm same⟩)
      rw [accounts.settled other ((started_iff other).mp known) outside, if_neg same]

end Accounts

end Host

/-! ## Steps -/

/-- Whether all feeds of the mapping that the step applies have hooks. -/
def Step.IsHooked : Step W → Prop
  | map mapping => ∀ watch ∈ mapping.watch, ∀ world receiver args,
      (watch world receiver args).hook.isSome = true
  | _ => True

/-- Whether the cell's step is a mutable mapping that, for the input, has been watched by
this feed and applied. -/
def Cell.IsWatching (host : Host W) (input : Slot) (id : FeedId) (cell : Cell W) : Prop :=
  ∃ mapping receiver args, cell.step.Applies mapping receiver args input ∧
    mapping.isMutable = true ∧ .subscribe mapping receiver args id ∈ host.calls ∧
    .map mapping receiver args ∈ host.calls

/-- A step that is watched starts a feed just if it applies a mutable mapping. -/
theorem Step.run_watching (step : Step W) (host : Host W) (input : Slot) :
    (∃ calls : List (HostCall W), (∀ call ∈ calls, call.isEvaluation = true) ∧
      (step.run true host input).feed = none ∧
      (step.run true host input).host = host.noteAll calls) ∨
    ∃ mapping receiver args watch, step.Applies mapping receiver args input ∧
      mapping.watch = some watch ∧
      (step.run true host input).feed = some host.feeds.length ∧
      (step.run true host input).host =
        ((host.listen (watch host.state receiver args)).2.note
          (.subscribe mapping receiver args host.feeds.length)).noteAll
            [.map mapping receiver args] := by
  have quiet : ∃ calls : List (HostCall W), (∀ call ∈ calls, call.isEvaluation = true) ∧
      (none : Option FeedId) = none ∧ host = host.noteAll calls := ⟨[], by simp⟩
  cases step with
  | map mapping =>
    cases stack : input.stack with
    | nil => exact .inl (by simpa only [run, stack] using quiet)
    | cons top rest =>
      obtain ⟨receiver, args⟩ := top
      cases receiver with
      | none => exact .inl (by simpa only [run, stack, applyTop] using quiet)
      | some receiver =>
        cases watching : mapping.watch with
        | none =>
          refine .inl ⟨[.map mapping receiver args], by simp [HostCall.isEvaluation], ?_⟩
          simp [run, stack, applyTop, Host.subscribe, watching, Host.apply, Host.note,
            Host.noteAll]
        | some watch =>
          refine .inr ⟨mapping, receiver, args, watch, ⟨rfl, rest, stack⟩, watching, ?_⟩
          simp [run, stack, applyTop, Host.subscribe, watching, Host.listen, Host.apply,
            Host.note, Host.noteAll]
  | collect count =>
    unfold run
    cases input.stack <;> exact .inl quiet
  | pop alternative =>
    unfold run
    rcases input.stack with _ | ⟨top, _ | ⟨parent, rest⟩⟩ <;> exact .inl quiet
  | display shown viewer marker =>
    unfold run
    cases input.stack.getLast?.bind Frame.receiver with
    | none => exact .inl quiet
    | some value =>
      exact .inl ⟨[.display shown value viewer], by simp [HostCall.isEvaluation], rfl, rfl⟩
  | _ => exact .inl quiet

/-! ## Cells -/

/-- Cells of which a beginning is computed and all others are blank, and of which only those
that watch a mapping hold a feed. -/
inductive Stored (host : Host W) : Slot → List (Cell W) → Prop
  | blank {input : Slot} {cells : List (Cell W)} (blank : ∀ cell ∈ cells, cell.IsBlank) :
      Stored host input cells
  | next {input slot : Slot} {cell : Cell W} {rest : List (Cell W)}
      (computed : cell.slot = some slot)
      (watching : ∀ id, cell.feed = some id → cell.IsWatching host input id)
      (stored : Stored host slot rest) : Stored host input (cell :: rest)

theorem WatchChain.mem_markLast {cells : List (Cell W)} {cell : Cell W}
    (member : cell ∈ markLast cells) :
    ∃ old ∈ cells, cell.step = old.step ∧ cell.slot = old.slot ∧ cell.feed = old.feed := by
  induction cells with
  | nil => cases member
  | cons first rest ih =>
    cases rest with
    | nil =>
      rw [List.mem_singleton.mp member]
      exact ⟨first, List.mem_cons_self, rfl, rfl, rfl⟩
    | cons next others =>
      rcases List.mem_cons.mp member with rfl | later
      · exact ⟨cell, List.mem_cons_self, rfl, rfl, rfl⟩
      · obtain ⟨old, inside, same⟩ := ih later
        exact ⟨old, List.mem_cons_of_mem _ inside, same⟩

theorem WatchChain.cellFeeds_markLast (cells : List (Cell W)) :
    cellFeeds (markLast cells) = cellFeeds cells := by
  induction cells with
  | nil => rfl
  | cons first rest ih =>
    cases rest with
    | nil => rfl
    | cons next others =>
      rw [markLast, cellFeeds_cons, cellFeeds_cons, ih]
      simp

theorem Cell.IsWatching.mono {host after : Host W} {input : Slot} {id : FeedId} {cell : Cell W}
    (watching : cell.IsWatching host input id) (calls : ∀ call ∈ host.calls, call ∈ after.calls) :
    cell.IsWatching after input id := by
  obtain ⟨mapping, receiver, args, applied, mutable, subscribed, mapped⟩ := watching
  exact ⟨mapping, receiver, args, applied, mutable, calls _ subscribed, calls _ mapped⟩

namespace Stored

variable {host after : Host W} {input : Slot} {cells : List (Cell W)}

theorem mono (stored : Stored host input cells) (calls : ∀ call ∈ host.calls, call ∈ after.calls) :
    Stored after input cells := by
  induction stored with
  | blank blank => exact .blank blank
  | next computed watching _ ih =>
    exact .next computed (fun id held => (watching id held).mono calls) ih

theorem append (stored : Stored host input cells) {cell : Cell W} (blank : cell.IsBlank) :
    Stored host input (cells ++ [cell]) := by
  induction stored with
  | blank others =>
    refine .blank fun later member => ?_
    rcases List.mem_append.mp member with ahead | last
    · exact others later ahead
    · rw [List.mem_singleton.mp last]
      exact blank
  | next computed watching _ ih => exact .next computed watching ih

theorem take (stored : Stored host input cells) (count : Nat) {others : List (Cell W)}
    (blank : ∀ cell ∈ others, cell.IsBlank) : Stored host input (cells.take count ++ others) := by
  induction stored generalizing count with
  | blank all =>
    refine .blank fun cell member => ?_
    rcases List.mem_append.mp member with ahead | behind
    · exact all cell (List.mem_of_mem_take ahead)
    · exact blank cell behind
  | next computed watching _ ih =>
    cases count with
    | zero => exact .blank blank
    | succ count => exact .next computed watching (ih count)

theorem markLast (stored : Stored host input cells) :
    Stored host input (WatchChain.markLast cells) := by
  induction stored with
  | blank blank =>
    refine .blank fun cell member => ?_
    obtain ⟨old, inside, -, slot, feed⟩ := WatchChain.mem_markLast member
    exact ⟨slot.trans (blank old inside).1, feed.trans (blank old inside).2⟩
  | @next input slot cell rest computed watching stored ih =>
    cases rest with
    | nil => exact .next computed watching stored
    | cons later rest => exact .next computed watching ih

end Stored

/-! ## Pulling -/

/-- A step holds the feed that it starts, and runs no hook. -/
theorem Step.run_accounts {step : Step W} (hooked : step.IsHooked) {held : List FeedId}
    {host : Host W} (accounts : host.Accounts held) (input : Slot) :
    (step.run true host input).host.Accounts (held ++ (step.run true host input).feed.toList) ∧
      (∀ id, (step.run true host input).host.hookRuns id = host.hookRuns id) ∧
      ∀ id, (step.run true host input).feed = some id →
        ∃ mapping receiver args, step.Applies mapping receiver args input ∧
          mapping.isMutable = true ∧
          .subscribe mapping receiver args id ∈ (step.run true host input).host.calls ∧
          .map mapping receiver args ∈ (step.run true host input).host.calls := by
  rcases step.run_watching host input with
    ⟨calls, evaluations, started, after⟩ |
      ⟨mapping, receiver, args, watch, applied, watched, started, after⟩
  · rw [started, after, Option.toList_none, List.append_nil]
    exact ⟨accounts.noteAll evaluations, host.hookRuns_noteAll evaluations, nofun⟩
  · have evaluation : ∀ call ∈ [HostCall.map mapping receiver args], call.isEvaluation = true := by
      simp [HostCall.isEvaluation]
    have hook : (watch host.state receiver args).hook.isSome = true := by
      obtain ⟨rfl, -⟩ := applied
      exact hooked watch watched host.state receiver args
    rw [started, after]
    refine ⟨(accounts.subscribe mapping receiver args hook).noteAll evaluation, fun id => ?_, ?_⟩
    · rw [Host.hookRuns_noteAll _ evaluation, Host.hookRuns_note]
      rfl
    · rintro id held
      cases held
      refine ⟨mapping, receiver, args, applied, by simp [Mapping.isMutable, watched], ?_, ?_⟩
      · simp [Host.noteAll, Host.note]
      · simp [Host.noteAll]

/-- What taking the step of a cell in front of others leaves behind: the cell is computed,
still holds the feed that it held, if any, and no hook has run. -/
structure ComputeAccount (first : List FeedId) (host : Host W) (input : Slot) (cell : Cell W)
    (rest : List (Cell W)) (outcome : Slot × Cell W × Host W) : Prop where
  instruction : outcome.2.1.toInstruction = cell.toInstruction
  computed : outcome.2.1.slot = some outcome.1
  watching : ∀ id, outcome.2.1.feed = some id → outcome.2.1.IsWatching outcome.2.2 input id
  stored : Stored outcome.2.2 outcome.1 rest
  accounts : outcome.2.2.Accounts (first ++ outcome.2.1.feed.toList ++ cellFeeds rest)
  keeps : cell.feed.toList ⊆ outcome.2.1.feed.toList
  runs : ∀ id, outcome.2.2.hookRuns id = host.hookRuns id
  calls : ∀ call ∈ host.calls, call ∈ outcome.2.2.calls

theorem Stored.compute {host : Host W} {input : Slot} {cell : Cell W} {rest : List (Cell W)}
    (stored : Stored host input (cell :: rest)) (hooked : cell.step.IsHooked)
    {first : List FeedId} (accounts : host.Accounts (first ++ cellFeeds (cell :: rest))) :
    ComputeAccount first host input cell rest (cell.compute host input) := by
  cases stored with
  | blank blank =>
    have alone := blank cell List.mem_cons_self
    have others : ∀ later ∈ rest, later.IsBlank :=
      fun later member => blank later (List.mem_cons_of_mem _ member)
    rw [cellFeeds_of_blank blank, List.append_nil] at accounts
    obtain ⟨held, runs, watching⟩ := Step.run_accounts hooked accounts input
    rw [alone.compute_eq]
    refine ⟨rfl, rfl, watching, .blank others, ?_, by simp [alone.2], runs,
      (cell.step.run_host true host input).calls⟩
    rw [cellFeeds_of_blank others, List.append_nil]
    exact held
  | next computed watching stored =>
    rw [cellFeeds_cons, ← List.append_assoc] at accounts
    simp only [Cell.compute, computed]
    exact ⟨rfl, computed, watching, stored, accounts, List.Subset.refl _, fun _ => rfl,
      fun _ member => member⟩

/-- What a pull leaves behind. -/
structure PullAccount (first : List FeedId) (host : Host W) (input : Slot) (cells : List (Cell W))
    (outcome : String × List (Cell W) × Host W) : Prop where
  stored : Stored outcome.2.2 input outcome.2.1
  accounts : outcome.2.2.Accounts (first ++ cellFeeds outcome.2.1)
  keeps : cellFeeds cells ⊆ cellFeeds outcome.2.1
  runs : ∀ id, outcome.2.2.hookRuns id = host.hookRuns id
  program : cellProgram outcome.2.1 = cellProgram cells
  calls : ∀ call ∈ host.calls, call ∈ outcome.2.2.calls

theorem Stored.pullCells {host : Host W} {input : Slot} {cells : List (Cell W)}
    (stored : Stored host input cells) (hooked : ∀ cell ∈ cells, cell.step.IsHooked)
    {first : List FeedId} (accounts : host.Accounts (first ++ cellFeeds cells)) :
    PullAccount first host input cells (WatchChain.pullCells host input cells) := by
  induction cells generalizing host input first with
  | nil => exact ⟨stored, accounts, List.Subset.refl _, fun _ => rfl, rfl, fun _ member => member⟩
  | cons cell rest ih =>
    have taken := stored.compute (hooked cell List.mem_cons_self) accounts
    rw [WatchChain.pullCells]
    rcases made : cell.compute host input with ⟨slot, later, after⟩
    rw [made] at taken
    obtain ⟨same, computed, watching, storedRest, held, keeps, runs, calls⟩ := taken
    dsimp only at same computed watching storedRest held keeps runs calls ⊢
    have keepsAll : ∀ {others}, cellFeeds rest ⊆ cellFeeds others →
        cellFeeds (cell :: rest) ⊆ cellFeeds (later :: others) := by
      intro others sub
      rw [cellFeeds_cons, cellFeeds_cons]
      exact List.append_subset.mpr ⟨List.subset_append_of_subset_left _ keeps,
        List.subset_append_of_subset_right _ sub⟩
    split
    · refine ⟨.next computed watching storedRest, ?_, keepsAll (List.Subset.refl _), runs, ?_,
        calls⟩
      · rw [cellFeeds_cons, ← List.append_assoc]
        exact held
      · simp [cellProgram, same]
    · have onward := ih storedRest
        (fun other member => hooked other (List.mem_cons_of_mem _ member)) held
      refine ⟨.next computed (fun id holds => (watching id holds).mono onward.calls) onward.stored,
        ?_, keepsAll onward.keeps, fun id => (onward.runs id).trans (runs id), ?_,
        fun call member => onward.calls call (calls call member)⟩
      · rw [cellFeeds_cons, ← List.append_assoc]
        exact onward.accounts
      · have program := onward.program
        simp only [cellProgram, List.map_cons, same, List.cons.injEq, true_and] at program ⊢
        exact program

/-! ## Giving feeds up -/

theorem WatchChain.invalidateCells_host (host : Host W) (step : Nat) (cells : List (Cell W)) :
    (invalidateCells host step cells).2.2 =
      cells.foldl (fun host cell => cell.release host) host := by
  induction cells generalizing host step with
  | nil => rfl
  | cons cell rest ih =>
    rw [invalidateCells_cons, List.foldl_cons]
    exact ih (cell.release host) (step + 1)

theorem Host.Accounts.release {host : Host W} {first : List FeedId} {cell : Cell W}
    {rest : List (Cell W)} (accounts : host.Accounts (first ++ cellFeeds (cell :: rest))) :
    (cell.release host).Accounts (first ++ cellFeeds rest) := by
  rw [cellFeeds_cons] at accounts
  unfold Cell.release
  cases held : cell.feed with
  | none =>
    rw [held] at accounts
    exact accounts
  | some id =>
    rw [held] at accounts
    exact accounts.cancel

theorem Host.Accounts.releaseAll {host : Host W} {first : List FeedId} {cells : List (Cell W)}
    (accounts : host.Accounts (first ++ cellFeeds cells)) :
    (cells.foldl (fun host cell => cell.release host) host).Accounts first := by
  induction cells generalizing host with
  | nil =>
    rw [cellFeeds, List.filterMap_nil, List.append_nil] at accounts
    exact accounts
  | cons cell rest ih => exact ih accounts.release

/-! ## Asking for a change -/

/-- What one question for a change leaves behind. -/
structure ChangeAccount (first : List FeedId) (host : Host W) (input : Slot)
    (cells : List (Cell W)) (outcome : WatchChain.Change × List (Cell W) × Host W) : Prop where
  stored : Stored outcome.2.2 input outcome.2.1
  accounts : outcome.2.2.Accounts (first ++ cellFeeds outcome.2.1)
  program : cellProgram outcome.2.1 = cellProgram cells
  calls : ∀ call ∈ host.calls, call ∈ outcome.2.2.calls

/-- The question goes on to the cells behind one that stays valid, whether or not its feed
has been given up. -/
theorem ChangeAccount.onward {first : List FeedId} {host after : Host W} {input slot : Slot}
    {cell later : Cell W} {rest : List (Cell W)}
    {tail : WatchChain.Change × List (Cell W) × Host W}
    (asked : ChangeAccount (first ++ later.feed.toList) after slot rest tail)
    (same : later.toInstruction = cell.toInstruction) (computed : later.slot = some slot)
    (watching : ∀ id, later.feed = some id → later.IsWatching host input id)
    (calls : ∀ call ∈ host.calls, call ∈ after.calls) :
    ChangeAccount first host input (cell :: rest) (tail.1, later :: tail.2.1, tail.2.2) := by
  have grown : ∀ call ∈ host.calls, call ∈ tail.2.2.calls :=
    fun call member => asked.calls call (calls call member)
  refine ⟨.next computed (fun id held => (watching id held).mono grown) asked.stored, ?_, ?_, grown⟩
  · rw [cellFeeds_cons, ← List.append_assoc]
    exact asked.accounts
  · have program := asked.program
    simp only [cellProgram, List.map_cons, same, List.cons.injEq, true_and] at program ⊢
    exact program

theorem Stored.changedCells {host : Host W} {input : Slot} {cells : List (Cell W)}
    (stored : Stored host input cells) {first : List FeedId}
    (accounts : host.Accounts (first ++ cellFeeds cells)) (step : Nat) :
    ChangeAccount first host input cells (WatchChain.changedCells host step cells) := by
  induction cells generalizing host input first step with
  | nil => exact ⟨stored, accounts, rfl, fun _ member => member⟩
  | cons cell rest ih =>
    cases stored with
    | blank blank =>
      rw [changedCells_of_blank host step blank]
      exact ⟨.blank blank, accounts, rfl, fun _ member => member⟩
    | @next _ slot _ _ computed watching stored =>
      have whole := accounts
      rw [cellFeeds_cons, ← List.append_assoc] at accounts
      cases held : cell.feed with
      | none =>
        simp only [WatchChain.changedCells, held]
        exact (ih stored accounts (step + 1)).onward rfl computed watching fun _ member => member
      | some id =>
        rcases host.poll_cases id with
          ⟨polled, -⟩ | ⟨polled, -⟩ | ⟨feed, queued, found, -, -, polled⟩
        · simp only [WatchChain.changedCells, held, polled]
          exact (ih stored accounts (step + 1)).onward rfl computed watching fun _ member => member
        · -- The feed has ended: it is cancelled, and the cell keeps its slot without it.
          have released : (host.drop id).Accounts (first ++ cellFeeds rest) := by
            rw [cellFeeds_cons, held] at whole
            exact whole.cancel
          have calls := (host.leaves_drop id).calls
          simp only [WatchChain.changedCells, held, polled]
          refine ChangeAccount.onward ?_ rfl computed (fun _ same => by cases same) calls
          refine ih (stored.mono calls) ?_ (step + 1)
          rw [Option.toList_none, List.append_nil]
          exact released
        · obtain ⟨left, blank, program⟩ := invalidateCells_spec
            (host.setFeed id { feed with queued }) step (cell :: rest)
          simp only [WatchChain.changedCells, held, polled]
          refine ⟨.blank blank, ?_, program, left.calls⟩
          rw [cellFeeds_of_blank blank, List.append_nil, WatchChain.invalidateCells_host]
          have drifts : host.Drifts (host.setFeed id { feed with queued }) :=
            Host.drifts_setFeed found rfl rfl
          exact (whole.drift drifts).releaseAll

/-! ## Runs -/

/-- The slot that a step is taken from: what the step before it left. -/
def slotBefore (input : Slot) (cells : List (Cell W)) : Nat → Slot
  | 0 => input
  | step + 1 => (cells[step]?.bind fun cell => cell.slot).getD .initial

namespace WatchChain

/-- The states that operations on a chain lead to, from an empty chain on a host that has
not been used. Steps may be added and arms ended at any time, and between the operations
the world does what it likes. Asking for a change may be repeated or given up. -/
inductive Run : WatchChain W → Host W → Prop
  | created (world : W) : Run empty { state := world }
  | drifted {chain : WatchChain W} {host after : Host W} (run : Run chain host)
      (drifts : host.Drifts after) : Run chain after
  | appended {chain : WatchChain W} {host : Host W} (run : Run chain host) {step : Step W}
      (hooked : step.IsHooked) : Run (chain.append step) host
  | armEnded {chain : WatchChain W} {host : Host W} (run : Run chain host) :
      Run chain.endArm host
  | pulled {chain : WatchChain W} {host : Host W} (run : Run chain host) :
      Run (chain.pull host).2.1 (chain.pull host).2.2
  | asked {chain : WatchChain W} {host : Host W} (run : Run chain host) :
      Run (chain.changed host).2.1 (chain.changed host).2.2
  | invalidated {chain : WatchChain W} {host : Host W} (run : Run chain host) (step : Nat) :
      Run (chain.invalidateFrom host step).2.1 (chain.invalidateFrom host step).2.2
  | closed {chain : WatchChain W} {host : Host W} (run : Run chain host) :
      Run (chain.close host).2.1 (chain.close host).2.2

/-- What every operation keeps. -/
structure IsAccounted (chain : WatchChain W) (host : Host W) : Prop where
  stored : Stored host .initial chain.cells
  accounts : host.Accounts (cellFeeds chain.cells)
  hooked : ∀ instruction ∈ cellProgram chain.cells, instruction.step.IsHooked

namespace IsAccounted

variable {chain : WatchChain W} {host : Host W}

theorem append (accounted : chain.IsAccounted host) {step : Step W} (hooked : step.IsHooked) :
    (chain.append step).IsAccounted host := by
  have blank : (Cell.ofInstruction (.plain step)).IsBlank := ⟨rfl, rfl⟩
  refine ⟨accounted.stored.append blank, ?_, fun instruction member => ?_⟩
  · have same : cellFeeds (chain.append step).cells = cellFeeds chain.cells := by
      simp [WatchChain.append, cellFeeds, Cell.ofInstruction]
    rw [same]
    exact accounted.accounts
  · rw [cellProgram, WatchChain.append, List.map_append, List.mem_append] at member
    rcases member with old | new
    · exact accounted.hooked instruction old
    · rw [List.map_singleton, List.mem_singleton] at new
      rw [new]
      exact hooked

theorem endArm (accounted : chain.IsAccounted host) : chain.endArm.IsAccounted host := by
  refine ⟨accounted.stored.markLast, ?_, fun instruction member => ?_⟩
  · rw [WatchChain.endArm, cellFeeds_markLast]
    exact accounted.accounts
  · obtain ⟨cell, inside, rfl⟩ := List.mem_map.mp member
    obtain ⟨old, known, same, -⟩ := mem_markLast inside
    rw [same]
    exact accounted.hooked _ (List.mem_map_of_mem known)

theorem pullAccount (accounted : chain.IsAccounted host) :
    PullAccount [] host .initial chain.cells (pullCells host .initial chain.cells) :=
  accounted.stored.pullCells
    (fun _ member => accounted.hooked _ (List.mem_map_of_mem member)) accounted.accounts

theorem pull (accounted : chain.IsAccounted host) :
    (chain.pull host).2.1.IsAccounted (chain.pull host).2.2 := by
  have outcome := accounted.pullAccount
  refine ⟨outcome.stored, outcome.accounts, fun instruction member => ?_⟩
  exact accounted.hooked instruction (outcome.program ▸ member)

theorem ask (accounted : chain.IsAccounted host) :
    (chain.changed host).2.1.IsAccounted (chain.changed host).2.2 := by
  have outcome := @Stored.changedCells _ _ _ _ accounted.stored [] accounted.accounts 0
  refine ⟨outcome.stored, outcome.accounts, fun instruction member => ?_⟩
  exact accounted.hooked instruction (outcome.program ▸ member)

theorem invalidate (accounted : chain.IsAccounted host) (step : Nat) :
    (chain.invalidateFrom host step).2.1.IsAccounted (chain.invalidateFrom host step).2.2 := by
  obtain ⟨left, blank, program⟩ := invalidateCells_spec host step (chain.cells.drop step)
  refine ⟨(accounted.stored.take step blank).mono left.calls, ?_, fun instruction member => ?_⟩
  · have split : cellFeeds chain.cells =
        cellFeeds (chain.cells.take step) ++ cellFeeds (chain.cells.drop step) := by
      rw [cellFeeds, cellFeeds, cellFeeds, ← List.filterMap_append, List.take_append_drop]
    have accounts := accounted.accounts
    rw [split] at accounts
    have kept : cellFeeds (chain.invalidateFrom host step).2.1.cells =
        cellFeeds (chain.cells.take step) := by
      have none := cellFeeds_of_blank blank
      rw [cellFeeds] at none
      rw [invalidateFrom, cellFeeds, List.filterMap_append, none, List.append_nil, cellFeeds]
    rw [kept, invalidateFrom, invalidateCells_host]
    exact accounts.releaseAll
  · refine accounted.hooked instruction ?_
    have same : cellProgram (chain.invalidateFrom host step).2.1.cells =
        cellProgram chain.cells := by
      rw [cellProgram] at program
      rw [invalidateFrom, cellProgram, List.map_append, program, cellProgram, cellProgram,
        ← List.map_append, List.take_append_drop]
    exact same ▸ member

end IsAccounted

theorem Run.isAccounted {chain : WatchChain W} {host : Host W} (run : chain.Run host) :
    chain.IsAccounted host := by
  induction run with
  | created world =>
    exact ⟨.blank (by simp [empty]), Host.accounts_nil world, by simp [empty, cellProgram]⟩
  | drifted _ drifts ih =>
    refine ⟨ih.stored.mono fun call member => ?_, ih.accounts.drift drifts, ih.hooked⟩
    rw [drifts.calls]
    exact member
  | appended _ hooked ih => exact ih.append hooked
  | armEnded _ ih => exact ih.endArm
  | pulled _ ih => exact ih.pull
  | asked _ ih => exact ih.ask
  | invalidated _ step ih => exact ih.invalidate step
  | closed _ ih => exact ih.invalidate 0

/-- What the books of a chain say in every state. -/
structure IsBalanced (chain : WatchChain W) (host : Host W) : Prop where
  /-- The computed steps come before all others, and these hold no feed. -/
  computed : ∃ taken others, chain.cells = taken ++ others ∧
    (∀ cell ∈ taken, cell.isComputed = true) ∧
    ∀ cell ∈ others, cell.isComputed = false ∧ cell.isWatched = false
  /-- A feed is held only by a computed step that applied a mutable mapping to a receiver,
  by the cell for which it was started, and by no other. -/
  watching : ∀ (step : Nat) (cell : Cell W) (id : FeedId), chain.cells[step]? = some cell →
    cell.feed = some id →
      cell.isComputed = true ∧ cell.IsWatching host (slotBefore .initial chain.cells step) id
  distinct : (cellFeeds chain.cells).Nodup
  /-- The feeds whose hooks have not run are those that are held. -/
  held_iff : ∀ id, host.Started id → (id ∈ cellFeeds chain.cells ↔ host.hookRuns id = 0)
  once : ∀ id, host.hookRuns id ≤ 1
  /-- A pull overwrites no feed and cancels none. -/
  pull : cellFeeds chain.cells ⊆ cellFeeds (chain.pull host).2.1.cells ∧
    ∀ id, (chain.pull host).2.2.hookRuns id = host.hookRuns id
  close : ∀ id, host.Started id → (chain.close host).2.2.hookRuns id = 1
  drop : ∀ id, host.Started id → (chain.drop host).hookRuns id = 1

end WatchChain

namespace Stored

variable {host : Host W} {input : Slot} {cells : List (Cell W)}

theorem computed (stored : Stored host input cells) :
    ∃ taken others, cells = taken ++ others ∧ (∀ cell ∈ taken, cell.isComputed = true) ∧
      ∀ cell ∈ others, cell.isComputed = false ∧ cell.isWatched = false := by
  induction stored with
  | blank blank =>
    refine ⟨[], _, rfl, by simp, fun cell member => ?_⟩
    simp [Cell.isComputed, Cell.isWatched, (blank cell member).1, (blank cell member).2]
  | @next _ slot cell _ computed _ _ ih =>
    obtain ⟨taken, others, rfl, all, none⟩ := ih
    refine ⟨cell :: taken, others, rfl, fun later member => ?_, none⟩
    rcases List.mem_cons.mp member with rfl | member
    · simp [Cell.isComputed, computed]
    · exact all later member

theorem watching (stored : Stored host input cells) {step : Nat} {cell : Cell W} {id : FeedId}
    (found : cells[step]? = some cell) (held : cell.feed = some id) :
    cell.isComputed = true ∧ cell.IsWatching host (slotBefore input cells step) id := by
  induction stored generalizing step with
  | blank blank =>
    rw [(blank cell (List.mem_of_getElem? found)).2] at held
    cases held
  | @next input slot first rest computed watching _ ih =>
    cases step with
    | zero =>
      cases found
      exact ⟨by simp [Cell.isComputed, computed], watching id held⟩
    | succ step =>
      have before : slotBefore input (first :: rest) (step + 1) = slotBefore slot rest step := by
        cases step with
        | zero => simp [slotBefore, computed]
        | succ step => rfl
      rw [before]
      exact ih found

end Stored

theorem WatchChain.close_host (chain : WatchChain W) (host : Host W) :
    (chain.close host).2.2 = chain.drop host := by
  rw [close, invalidateFrom, List.drop_zero, invalidateCells_host]
  rfl

/-- In every state that operations on a chain lead to, in any order and whatever mappings,
hooks and feeds do, the feeds that have been started are accounted for: the chain holds those
whose hooks have not run, hooks run at most once, and closing or dropping the chain leaves
no feed behind. -/
theorem WatchChain.Run.isBalanced {chain : WatchChain W} {host : Host W}
    (run : chain.Run host) : chain.IsBalanced host := by
  obtain ⟨stored, accounts, -⟩ := run.isAccounted
  have pulled := run.isAccounted.pullAccount
  have dropped : ∀ id, host.Started id → (chain.drop host).hookRuns id = 1 := by
    rintro id ⟨mapping, receiver, args, subscribed⟩
    have calls := (invalidateCells_spec host 0 chain.cells).1.calls
    rw [invalidateCells_host] at calls
    have emptied : (chain.drop host).Accounts [] := Host.Accounts.releaseAll accounts
    exact emptied.settled id ⟨mapping, receiver, args, calls _ subscribed⟩ List.not_mem_nil
  refine ⟨stored.computed, fun step cell id => stored.watching, accounts.distinct, ?_, ?_,
    ⟨pulled.keeps, pulled.runs⟩, fun id started => ?_, dropped⟩
  · intro id started
    refine ⟨fun held => accounts.waiting id fun _ => held, fun none => ?_⟩
    by_contra gone
    rw [accounts.settled id started gone] at none
    cases none
  · intro id
    by_cases gone : host.Started id ∧ id ∉ cellFeeds chain.cells
    · exact Nat.le_of_eq (accounts.settled id gone.1 gone.2)
    · rw [accounts.waiting id (by simpa using gone)]
      exact Nat.zero_le 1
  · rw [close_host]
    exact dropped id started

/-- A clock that shows the state of the world. Its hook fails. -/
def strikingClock : Mapping String where
  name := ⟨["clock"]⟩
  source := "context"
  target := "text"
  map state _ _ := some (.text state)
  watch := some fun _ _ _ => ⟨none, 0, false, some ⟨"clock", some "stuck"⟩⟩

theorem Host.drifts_signal (host : Host W) (id : FeedId) (state : W) :
    host.Drifts { (host.signal id).2 with state := state } := by
  suffices drifts : host.Drifts (host.signal id).2 from ⟨drifts.calls, drifts.feeds⟩
  have unchanged : host.Drifts host := ⟨rfl, fun _ feed found => ⟨feed, found, rfl, rfl⟩⟩
  unfold signal
  split
  · exact unchanged
  · rename_i feed found
    split
    · exact unchanged
    · exact drifts_setFeed found rfl rfl

/-- The clock has been read, has struck and has been read again. -/
theorem WatchChain.isBalanced_strikingClock :
    let chain := ((empty : WatchChain String).append (.begin (.context []))).append
      (.map strikingClock)
    let read := (chain.pull { state := "1" }).2
    let asked := (read.1.changed { (read.2.signal 0).2 with state := "2" }).2
    let again := (asked.1.pull asked.2).2
    again.1.Run again.2 ∧ again.1.IsBalanced again.2 ∧
      cellFeeds again.1.cells = [1] ∧ again.2.hookRuns 0 = 1 := by
  intro chain read asked again
  have made : chain.Run ({ state := "1" } : Host String) := by
    refine Run.appended (Run.appended (Run.created "1") ?_) ?_
    · exact trivial
    · rintro watch ⟨⟩ world receiver args
      rfl
  have run : again.1.Run again.2 :=
    ((made.pulled.drifted (Host.drifts_signal read.2 0 "2")).asked).pulled
  exact ⟨run, run.isBalanced, rfl, rfl⟩

end TypedTemplate
