import TypedTemplate.Proofs.Render.Tracking

/-!
Chains keep their slots tracked. A pull completes a beginning of tracked slots
(`Resumable.pullCells`); asking for a change either finds nothing and leaves the slots
alone, or leaves a beginning of them (`Pulled.changedCells`). When no signal is waiting,
the text of the last pull is what rendering the program once would give now
(`Pulled.text_eq`).
-/
namespace TypedTemplate

variable {W : Type}

/-! ## Feeds of cells -/

theorem mem_cellFeeds {cells : List (Cell W)} {id : FeedId} :
    id ∈ cellFeeds cells ↔ ∃ cell ∈ cells, cell.feed = some id := by
  simp [cellFeeds]

theorem mem_cellFeeds_head {cell : Cell W} {rest : List (Cell W)} {id : FeedId}
    (held : cell.feed = some id) : id ∈ cellFeeds (cell :: rest) :=
  mem_cellFeeds.mpr ⟨cell, by simp, held⟩

theorem cellFeeds_cons (cell : Cell W) (rest : List (Cell W)) :
    cellFeeds (cell :: rest) = cell.feed.toList ++ cellFeeds rest := by
  cases held : cell.feed <;> simp [cellFeeds, held]

theorem cellFeeds_of_blank {cells : List (Cell W)} (blank : ∀ cell ∈ cells, cell.IsBlank) :
    cellFeeds cells = [] := by
  refine List.eq_nil_iff_forall_not_mem.mpr fun id member => ?_
  obtain ⟨cell, inside, held⟩ := mem_cellFeeds.mp member
  simp [(blank cell inside).2] at held

theorem isBlank_ofInstruction (program : List (Instruction W)) :
    ∀ cell ∈ program.map Cell.ofInstruction, cell.IsBlank := by
  intro cell member
  obtain ⟨instruction, -, rfl⟩ := List.mem_map.mp member
  exact ⟨rfl, rfl⟩

theorem cellProgram_ofInstruction (program : List (Instruction W)) :
    cellProgram (program.map Cell.ofInstruction) = program := by
  rw [cellProgram, List.map_map]
  exact List.map_id program

theorem cellFeeds_subset_cons (cell : Cell W) (rest : List (Cell W)) :
    cellFeeds rest ⊆ cellFeeds (cell :: rest) := by
  intro id member
  obtain ⟨later, inside, held⟩ := mem_cellFeeds.mp member
  exact mem_cellFeeds.mpr ⟨later, List.mem_cons_of_mem _ inside, held⟩

/-- Existing feeds, each held once. -/
structure Host.Owns (host : Host W) (ids : List FeedId) : Prop where
  distinct : ids.Nodup
  known : ∀ id ∈ ids, id < host.feeds.length

/-- The feeds held later are old ones or have been started in between. -/
structure Host.Renews (before after : Host W) (old new : List FeedId) : Prop where
  owns : after.Owns new
  origin : ∀ id ∈ new, id ∈ old ∨ before.feeds.length ≤ id

namespace Host

variable {before middle after : Host W} {first next newFirst newNext : List FeedId}

theorem owns_nil (host : Host W) : host.Owns [] := ⟨List.nodup_nil, by simp⟩

theorem Owns.left (owns : before.Owns (first ++ next)) : before.Owns first :=
  ⟨(List.nodup_append.mp owns.distinct).1, fun id member =>
    owns.known id (List.mem_append_left _ member)⟩

theorem Owns.right (owns : before.Owns (first ++ next)) : before.Owns next :=
  ⟨(List.nodup_append.mp owns.distinct).2.1, fun id member =>
    owns.known id (List.mem_append_right _ member)⟩

theorem Owns.apart (owns : before.Owns (first ++ next)) : ∀ id ∈ next, id ∉ first := by
  intro id behind ahead
  exact (List.nodup_append.mp owns.distinct).2.2 id ahead id behind rfl

theorem Owns.sublist (owns : before.Owns first) (sub : next.Sublist first) : before.Owns next :=
  ⟨owns.distinct.sublist sub, fun id member => owns.known id (sub.subset member)⟩

theorem Owns.grow (owns : before.Owns first) (size : before.feeds.length ≤ after.feeds.length) :
    after.Owns first :=
  ⟨owns.distinct, fun id member => Nat.lt_of_lt_of_le (owns.known id member) size⟩

theorem Owns.renews (owns : before.Owns first) : before.Renews before first first :=
  ⟨owns, fun _ member => .inl member⟩

theorem Renews.trans (left : before.Renews middle first newFirst)
    (right : middle.Renews after newFirst newNext)
    (grown : before.feeds.length ≤ middle.feeds.length) : before.Renews after first newNext := by
  refine ⟨right.owns, fun id member => ?_⟩
  rcases right.origin id member with old | new
  · exact left.origin id old
  · exact .inr (Nat.le_trans grown new)

/-- What is renewed later stays apart from what was renewed before. -/
theorem Renews.append (left : before.Renews middle first newFirst)
    (right : middle.Renews after next newNext) (owns : before.Owns (first ++ next))
    (grown : before.feeds.length ≤ middle.feeds.length)
    (size : middle.feeds.length ≤ after.feeds.length) :
    before.Renews after (first ++ next) (newFirst ++ newNext) := by
  have apart : ∀ id ∈ newFirst, ∀ other ∈ newNext, id ≠ other := by
    rintro id ahead _ behind rfl
    have inside := left.owns.known id ahead
    rcases right.origin id behind with old | new
    · rcases left.origin id ahead with older | newer
      · exact owns.apart id old older
      · exact Nat.not_le_of_lt (owns.right.known id old) newer
    · exact Nat.not_le_of_lt inside new
  refine ⟨⟨List.nodup_append.mpr ⟨left.owns.distinct, right.owns.distinct, apart⟩, ?_⟩, ?_⟩
  · intro id member
    rcases List.mem_append.mp member with ahead | behind
    · exact Nat.lt_of_lt_of_le (left.owns.known id ahead) size
    · exact right.owns.known id behind
  · intro id member
    rcases List.mem_append.mp member with ahead | behind
    · exact (left.origin id ahead).imp_left (List.mem_append_left _)
    · exact (right.origin id behind).imp (List.mem_append_right _) (Nat.le_trans grown)

end Host

/-! ## Frames -/

namespace Pulled

variable {host after : Host W} {input : Slot} {cells : List (Cell W)} {text : String}

theorem leaves {touched : List FeedId} (pulled : Pulled host input cells text)
    (kept : Host.Leaves touched host after) (apart : ∀ id ∈ cellFeeds cells, id ∉ touched) :
    Pulled after input cells text := by
  induction pulled with
  | done => exact .done
  | stop computed tracks stops blank =>
    have head := tracks.leaves kept fun id held => apart id (mem_cellFeeds_head held)
    exact .stop computed head stops blank
  | next computed tracks goes _ ih =>
    have head := tracks.leaves kept fun id held => apart id (mem_cellFeeds_head held)
    exact .next computed head goes (ih fun id member => apart id (cellFeeds_subset_cons _ _ member))

/-- The world cannot make a slot wrong without a signal. -/
theorem evolves (pulled : Pulled host input cells text) (moved : host.Evolves after)
    (steady : ∀ instruction ∈ cellProgram cells, instruction.step.IsSteady) :
    Pulled after input cells text := by
  induction pulled with
  | done => exact .done
  | stop computed tracks stops blank =>
    exact .stop computed (tracks.evolves (steady _ (by simp [cellProgram])) moved) stops blank
  | next computed tracks goes _ ih =>
    have head := tracks.evolves (steady _ (by simp [cellProgram])) moved
    exact .next computed head goes (ih fun instruction member =>
      steady instruction (List.mem_cons_of_mem _ member))

/-- Without waiting signals every slot is right for its input, and so, from the first on,
each is the slot that rendering once would come by. -/
theorem text_eq (pulled : Pulled host input cells text)
    (quiet : ∀ cell ∈ cells, ¬ cell.Signalled host) {now : Host W} (same : now.state = host.state) :
    text = (runOnce now input (cellProgram cells)).1 := by
  induction pulled generalizing now with
  | done => rfl
  | stop computed tracks stops _ =>
    have fresh := tracks.fresh.resolve_right (quiet _ (by simp))
    rw [cellProgram, List.map_cons, runOnce]
    simp only [Step.run_slot, same, ← fresh, stops, if_true]
  | next computed tracks goes _ ih =>
    have fresh := tracks.fresh.resolve_right (quiet _ (by simp))
    rw [cellProgram, List.map_cons, runOnce]
    simp only [Step.run_slot, same, ← fresh, goes, Bool.false_eq_true, if_false]
    exact ih (fun cell member => quiet cell (List.mem_cons_of_mem _ member))
      (((Step.run_host _ _ _ _).state).trans same)

end Pulled

/-! ## Pulling -/

namespace WatchChain

theorem pullCells_computed (host : Host W) (input : Slot) {slot : Slot} {cell : Cell W}
    (rest : List (Cell W)) (computed : cell.slot = some slot) (goes : cell.stopsAt slot = false) :
    pullCells host input (cell :: rest) =
      (let later := pullCells host slot rest
       (later.1, cell :: later.2.1, later.2.2)) := by
  simp [pullCells, Cell.compute, computed, goes]

theorem pullCells_blank (host : Host W) (input : Slot) {cell : Cell W} (rest : List (Cell W))
    (blank : cell.IsBlank) :
    pullCells host input (cell :: rest) =
      (let ran := cell.step.run true host input
       let taken := { cell with slot := some ran.slot, feed := ran.feed }
       if cell.stopsAt ran.slot then (ran.slot.textOrEmpty, taken :: rest, ran.host)
       else
         let later := pullCells ran.host ran.slot rest
         (later.1, taken :: later.2.1, later.2.2)) := by
  rw [pullCells, blank.compute_eq]

end WatchChain

open WatchChain

theorem Step.run_renews (host : Host W) (input : Slot) (step : Step W) :
    host.Renews (step.run true host input).host [] (step.run true host input).feed.toList := by
  cases started : (step.run true host input).feed with
  | none => exact ⟨Host.owns_nil _, by simp⟩
  | some id =>
    obtain ⟨new, inside⟩ := Step.run_feed started
    refine ⟨⟨by simp, ?_⟩, ?_⟩
    · simpa using inside
    · simpa using Nat.le_of_eq new.symm

/-- What a pull leaves behind. -/
structure PullOutcome (host : Host W) (input : Slot) (cells : List (Cell W))
    (outcome : String × List (Cell W) × Host W) : Prop where
  pulled : Pulled outcome.2.2 input outcome.2.1 outcome.1
  leaves : Host.Leaves [] host outcome.2.2
  renews : host.Renews outcome.2.2 (cellFeeds cells) (cellFeeds outcome.2.1)
  program : cellProgram outcome.2.1 = cellProgram cells

/-- Blank cells take their steps in the present state of the world. -/
theorem pullCells_of_blank (host : Host W) (input : Slot) {cells : List (Cell W)}
    (blank : ∀ cell ∈ cells, cell.IsBlank) :
    PullOutcome host input cells (pullCells host input cells) := by
  induction cells generalizing host input with
  | nil => exact ⟨.done, .refl _ _, host.owns_nil.renews, rfl⟩
  | cons cell rest ih =>
    have others : ∀ later ∈ rest, later.IsBlank :=
      fun later member => blank later (List.mem_cons_of_mem _ member)
    have unheld := cellFeeds_of_blank others
    have tracks := Cell.IsBlank.tracks_compute cell host input
    have left := cell.step.run_host true host input
    have started : host.Renews (cell.step.run true host input).host []
        (cell.step.run true host input).feed.toList := Step.run_renews host input cell.step
    rw [pullCells_blank host input rest (blank cell (by simp))]
    dsimp only
    split
    · rename_i stops
      refine ⟨.stop rfl tracks stops others, left, ?_, rfl⟩
      rw [cellFeeds_of_blank blank, cellFeeds_cons, unheld, List.append_nil]
      exact started
    · rename_i goes
      have later :=
        ih (cell.step.run true host input).host (cell.step.run true host input).slot others
      have head := tracks.leaves later.leaves fun id _ => by simp
      refine ⟨.next rfl head (by simpa using goes) later.pulled, left.trans later.leaves, ?_, ?_⟩
      · have renews := later.renews
        rw [unheld] at renews
        rw [cellFeeds_of_blank blank, cellFeeds_cons]
        exact started.append renews host.owns_nil left.size later.leaves.size
      · simp only [cellProgram, List.map_cons, List.cons.injEq, true_and]
        exact later.program

/-- A pull computes the missing slots and keeps the others as they are. -/
theorem Resumable.pullCells {host : Host W} {input : Slot} {cells : List (Cell W)}
    (resumable : Resumable host input cells) (owns : host.Owns (cellFeeds cells)) :
    PullOutcome host input cells (pullCells host input cells) := by
  induction resumable with
  | blank blank => exact pullCells_of_blank host _ blank
  | @next input slot cell rest computed tracks goes _ ih =>
    rw [cellFeeds_cons] at owns
    have later := ih owns.right
    have head := tracks.leaves later.leaves fun id _ => by simp
    rw [pullCells_computed host input rest computed goes]
    refine ⟨.next computed head goes later.pulled, later.leaves, ?_, ?_⟩
    · rw [cellFeeds_cons, cellFeeds_cons]
      exact owns.left.renews.append later.renews owns (Nat.le_refl _) later.leaves.size
    · simp only [cellProgram, List.map_cons, List.cons.injEq, true_and]
      exact later.program

/-! ## Invalidating -/

theorem Cell.leaves_release (cell : Cell W) (host : Host W) :
    Host.Leaves cell.feed.toList host (cell.release host) := by
  unfold release
  cases cell.feed with
  | none => exact .refl _ _
  | some id => exact host.leaves_drop id

theorem Cell.invalidate_snd (cell : Cell W) (host : Host W) (step : Nat) :
    (cell.invalidate host step).2 =
      ({ cell with slot := none, feed := none }, cell.release host) := by
  unfold invalidate release
  cases cell.feed with
  | none => rfl
  | some id =>
    simp only [Host.drop]
    rcases host.cancel id with ⟨_ | _, after⟩ <;> rfl

theorem invalidateCells_cons (host : Host W) (step : Nat) (cell : Cell W) (rest : List (Cell W)) :
    (invalidateCells host step (cell :: rest)).2 =
      (let later := (invalidateCells (cell.release host) (step + 1) rest).2
       ({ cell with slot := none, feed := none } :: later.1, later.2)) := by
  have outcome := cell.invalidate_snd host step
  rw [invalidateCells]
  rcases cut : cell.invalidate host step with ⟨failure, later, after⟩
  rw [cut] at outcome
  cases outcome
  rfl

/-- Invalidating touches the feeds of the cells only, and leaves the cells blank. -/
theorem invalidateCells_spec (host : Host W) (step : Nat) (cells : List (Cell W)) :
    Host.Leaves (cellFeeds cells) host (invalidateCells host step cells).2.2 ∧
      (∀ cell ∈ (invalidateCells host step cells).2.1, cell.IsBlank) ∧
      cellProgram (invalidateCells host step cells).2.1 = cellProgram cells := by
  induction cells generalizing host step with
  | nil => exact ⟨.refl _ _, by simp [invalidateCells], rfl⟩
  | cons cell rest ih =>
    have left := cell.leaves_release host
    obtain ⟨leftLater, blank, program⟩ := ih (cell.release host) (step + 1)
    have wider : cell.feed.toList ⊆ cellFeeds (cell :: rest) := by
      rw [cellFeeds_cons]
      exact List.subset_append_left _ _
    rw [invalidateCells_cons]
    refine ⟨(left.mono wider).trans (leftLater.mono (cellFeeds_subset_cons cell rest)), ?_, ?_⟩
    · intro other member
      rcases List.mem_cons.mp member with rfl | member
      · exact ⟨rfl, rfl⟩
      · exact blank other member
    · simp only [cellProgram, List.map_cons, List.cons.injEq, true_and]
      exact program

/-! ## Asking for a change -/

theorem WatchChain.Change.ofInvalidation_ne_pending (step : Nat) (failure : Option CancelError) :
    Change.ofInvalidation step failure ≠ .pending := by
  cases failure <;> simp [Change.ofInvalidation]

/-- What one question for a change leaves behind: nothing has changed and the text still
stands, or a beginning of the slots is left. -/
structure ChangeOutcome (host : Host W) (input : Slot) (cells : List (Cell W)) (text : String)
    (outcome : Change × List (Cell W) × Host W) : Prop where
  slots : (outcome.1 = .pending ∧ Pulled outcome.2.2 input outcome.2.1 text) ∨
    (outcome.1 ≠ .pending ∧ Resumable outcome.2.2 input outcome.2.1)
  leaves : Host.Leaves (cellFeeds cells) host outcome.2.2
  feeds : (cellFeeds outcome.2.1).Sublist (cellFeeds cells)
  program : cellProgram outcome.2.1 = cellProgram cells

/-- The question goes on to the next cell, unless there is a signal for this one. -/
theorem changedCells_cons {host : Host W} {input slot : Slot} {cell : Cell W}
    (tracks : cell.Tracks host input slot) (step : Nat) (rest : List (Cell W)) :
    (∃ later after, later.toInstruction = cell.toInstruction ∧ later.slot = cell.slot ∧
      later.Tracks after input slot ∧ Host.Leaves cell.feed.toList host after ∧
      later.feed.toList.Sublist cell.feed.toList ∧
      changedCells host step (cell :: rest) =
        (let onward := changedCells after (step + 1) rest
         (onward.1, later :: onward.2.1, onward.2.2))) ∨
    (∃ id taken, cell.feed = some id ∧ Host.Leaves [id] host taken ∧
      changedCells host step (cell :: rest) =
        (let cut := invalidateCells taken step (cell :: rest)
         (.ofInvalidation step cut.1, cut.2.1, cut.2.2))) := by
  cases held : cell.feed with
  | none =>
    refine .inl ⟨cell, host, rfl, rfl, tracks, .refl _ _, by simp [held], ?_⟩
    simp only [changedCells, held]
  | some id =>
    rcases host.poll_cases id with
      ⟨polled, -⟩ | ⟨polled, done⟩ | ⟨feed, queued, found, -, -, polled⟩
    · refine .inl ⟨cell, host, rfl, rfl, tracks, .refl _ _, by simp [held], ?_⟩
      simp only [changedCells, held, polled]
    · refine .inl ⟨{ cell with feed := none }, host.drop id, rfl, rfl, ?_, host.leaves_drop id,
        by simp, ?_⟩
      · exact (tracks.forget held done).leaves (host.leaves_drop id) (by simp)
      · simp only [changedCells, held, polled]
    · refine .inr ⟨id, host.setFeed id { feed with queued }, rfl,
        Host.leaves_setFeed found fun ended => ended, ?_⟩
      simp only [changedCells, held, polled]

theorem changedCells_of_blank (host : Host W) (step : Nat) {cells : List (Cell W)}
    (blank : ∀ cell ∈ cells, cell.IsBlank) :
    changedCells host step cells = (.pending, cells, host) := by
  induction cells generalizing step with
  | nil => rfl
  | cons cell rest ih =>
    have others := ih (step + 1) fun later member => blank later (List.mem_cons_of_mem _ member)
    simp only [changedCells, (blank cell (by simp)).2, others]

/-- Either no signal was waiting and the text stands, or the first signal has been taken
and the slots before its cell are left. -/
theorem Pulled.changedCells {host : Host W} {input : Slot} {cells : List (Cell W)} {text : String}
    (pulled : Pulled host input cells text) (owns : host.Owns (cellFeeds cells)) (step : Nat) :
    ChangeOutcome host input cells text (changedCells host step cells) := by
  induction cells generalizing host input step with
  | nil => exact ⟨.inl ⟨rfl, pulled⟩, .refl _ _, List.Sublist.refl _, rfl⟩
  | cons cell rest ih =>
    obtain ⟨slot, computed, tracks⟩ :
        ∃ slot, cell.slot = some slot ∧ cell.Tracks host input slot := by
      cases pulled with
      | stop computed tracks _ _ => exact ⟨_, computed, tracks⟩
      | next computed tracks _ _ => exact ⟨_, computed, tracks⟩
    rcases changedCells_cons tracks step rest with
      ⟨later, after, same, kept, head, left, fewer, onward⟩ | ⟨id, taken, held, left, cut⟩
    · have wider : cell.feed.toList ⊆ cellFeeds (cell :: rest) := by
        rw [cellFeeds_cons]
        exact List.subset_append_left _ _
      have ownsAll := owns
      rw [cellFeeds_cons] at ownsAll
      have apart := ownsAll.apart
      have ownsRest := ownsAll.right.grow left.size
      have headApart : ∀ id, later.feed = some id → id ∉ cellFeeds rest := fun id held member =>
        apart id member (fewer.subset (by simp [held]))
      rw [onward]
      cases pulled with
      | stop computed' _ stops blank =>
        rw [computed] at computed'
        cases computed'
        rw [changedCells_of_blank after (step + 1) blank]
        refine ⟨.inl ⟨rfl, .stop (kept.trans computed) head ?_ blank⟩, left.mono wider, ?_, ?_⟩
        · rw [same]
          exact stops
        · rw [cellFeeds_cons, cellFeeds_cons]
          exact fewer.append_right _
        · simp [cellProgram, same]
      | next computed' _ goes pulled =>
        rw [computed] at computed'
        cases computed'
        have tail := ih (pulled.leaves left apart) ownsRest (step + 1)
        have headLater := head.leaves tail.leaves headApart
        have goesLater : later.stopsAt slot = false := by
          rw [same]
          exact goes
        refine ⟨?_, (left.mono wider).trans (tail.leaves.mono (cellFeeds_subset_cons cell rest)),
          ?_, ?_⟩
        · rcases tail.slots with ⟨pending, stands⟩ | ⟨found, resumable⟩
          · exact .inl ⟨pending, .next (kept.trans computed) headLater goesLater stands⟩
          · exact .inr ⟨found, .next (kept.trans computed) headLater goesLater resumable⟩
        · rw [cellFeeds_cons, cellFeeds_cons]
          exact fewer.append tail.feeds
        · have program := tail.program
          simp only [cellProgram, List.map_cons, same, List.cons.injEq, true_and] at program ⊢
          exact program
    · -- The signal is taken, so the slots from this cell on are dropped.
      obtain ⟨leftLater, blank, program⟩ := invalidateCells_spec taken step (cell :: rest)
      rw [cut]
      refine ⟨.inr ⟨?_, .blank blank⟩, ?_, ?_, program⟩
      · exact Change.ofInvalidation_ne_pending step _
      · refine (left.mono ?_).trans leftLater
        simpa using mem_cellFeeds_head held
      · simp only [cellFeeds_of_blank blank, List.nil_sublist]

end TypedTemplate
