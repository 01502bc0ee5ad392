import TypedTemplate.Proofs.Path.Chain

/-!
The search finds a cheapest chain. What it has still to find can always be reached from a
pending state at a fresh spot, at no more than it would cost by a way through the spots
that have been expanded (`Frontier.Answers`). So stopping early, passing over states at
expanded spots and not expanding those that end a path lose neither the only chain nor a
cheapest one.
-/
namespace TypedTemplate

variable {W : Type}

/-! ## The queue -/

theorem mem_enqueue {pending : List (Reach W)} {reach other : Reach W} :
    other ∈ enqueue pending reach ↔ other ∈ pending ∨ other = reach := by
  induction pending with
  | nil => simp [enqueue]
  | cons first rest ih =>
    rw [enqueue]
    split
    · rw [List.mem_cons, ih, List.mem_cons, or_assoc]
    · rw [List.mem_cons, or_comm]

theorem mem_foldl_enqueue {pending added : List (Reach W)} {other : Reach W} :
    other ∈ added.foldl enqueue pending ↔ other ∈ pending ∨ other ∈ added := by
  induction added generalizing pending with
  | nil => simp
  | cons first rest ih => rw [List.foldl_cons, ih, mem_enqueue, List.mem_cons, or_assoc]

/-- Whether the states stand from the cheapest on. -/
def CheapestFirst (pending : List (Reach W)) : Prop :=
  pending.Pairwise fun reach later => reach.cost.le later.cost = true

theorem cheapestFirst_enqueue {pending : List (Reach W)} (sorted : CheapestFirst pending)
    (reach : Reach W) : CheapestFirst (enqueue pending reach) := by
  induction pending with
  | nil => exact List.pairwise_singleton _ reach
  | cons first rest ih =>
    obtain ⟨least, tail⟩ := List.pairwise_cons.mp sorted
    rw [enqueue]
    split
    · rename_i cheaper
      refine List.pairwise_cons.mpr ⟨fun other member => ?_, ih tail⟩
      rcases mem_enqueue.mp member with old | rfl
      · exact least other old
      · exact cheaper
    · rename_i dearer
      have below := Cost.le_of_not_le dearer
      refine List.pairwise_cons.mpr ⟨fun other member => ?_, sorted⟩
      rcases List.mem_cons.mp member with rfl | later
      · exact below
      · exact Cost.le_trans below (least other later)

theorem cheapestFirst_foldl_enqueue {pending : List (Reach W)} (sorted : CheapestFirst pending)
    (added : List (Reach W)) : CheapestFirst (added.foldl enqueue pending) := by
  induction added generalizing pending with
  | nil => exact sorted
  | cons first rest ih => exact ih (cheapestFirst_enqueue sorted first)

namespace Frontier

theorem mem_fresh_expand {query : Query W} {frontier : Frontier W} {reach : Reach W}
    {pending : List (Reach W)} {spot : Spot} :
    spot ∈ (frontier.expand query reach pending).fresh ↔
      spot ∈ frontier.fresh ∧ spot ≠ reach.spot := by
  simp [expand, settle]

theorem mem_found_expand {query : Query W} {frontier : Frontier W} {reach : Reach W}
    {pending : List (Reach W)} {path : Path W} :
    path ∈ (frontier.expand query reach pending).found ↔ path ∈ frontier.found ∨
      ∃ next ∈ query.successors reach, query.isComplete next = true ∧ next.path = path := by
  simp [expand, List.partition_eq_filter_filter, and_assoc]

theorem mem_pending_expand {query : Query W} {frontier : Frontier W} {reach : Reach W}
    {pending : List (Reach W)} {next : Reach W} :
    next ∈ (frontier.expand query reach pending).pending ↔ next ∈ pending ∨
      next ∈ query.successors reach ∧ query.isComplete next = false ∧
        next.spot ∈ (frontier.expand query reach pending).fresh := by
  simp [expand, mem_foldl_enqueue, List.partition_eq_filter_filter, and_comm]

theorem cheapestFirst_expand {query : Query W} {frontier : Frontier W} {reach : Reach W}
    {pending : List (Reach W)} (sorted : CheapestFirst pending) :
    CheapestFirst (frontier.expand query reach pending).pending := by
  simp only [expand]
  exact cheapestFirst_foldl_enqueue sorted _

end Frontier

/-! ## What is still to be found -/

section Search

variable (query : Query W) (mappings : List (Mapping W))

/-- Whether a path may end at a spot. -/
def Query.EndsAt (spot : Spot) : Prop :=
  spot.1 = query.calls.length ∧ query.accepts spot.2 = true

/-- Whether hops, at least one, lead from a spot to the end of a path at this cost. -/
inductive Query.Continues : Spot → Cost → Prop
  | last {spot next : Spot} {hop : Hop W} {score : Nat}
      (leads : hop.Leads mappings query.calls spot score next) (ends : query.EndsAt next) :
      Continues spot (Cost.zero.addHop score)
  | more {spot next : Spot} {hop : Hop W} {score : Nat} {rest : Cost}
      (leads : hop.Leads mappings query.calls spot score next) (onward : Continues next rest) :
      Continues spot (rest.addHop score)

/-- Whether a path that costs no more has been found or can still be reached from a
pending state at a fresh spot. -/
def Frontier.Answers (frontier : Frontier W) (cost : Cost) : Prop :=
  (∃ path ∈ frontier.found, path.cost.le cost = true) ∨
    ∃ reach ∈ frontier.pending, reach.spot ∈ frontier.fresh ∧
      ∃ rest, query.Continues mappings reach.spot rest ∧ (reach.cost.add rest).le cost = true

/-- Whether the search answers for all paths that come to a spot at this cost. -/
def Frontier.Covers (frontier : Frontier W) (spot : Spot) (cost : Cost) : Prop :=
  ∀ rest, query.Continues mappings spot rest → frontier.Answers query mappings (cost.add rest)

/-- What the search keeps: its states have been reached, the paths it has found are
chains, and whatever has been expanded, or was there at the beginning, is covered. -/
structure Frontier.IsSearching (frontier : Frontier W) : Prop where
  reached : ∀ reach ∈ frontier.pending, reach.spot ∈ query.spots ∧
    Walk mappings query.calls (0, query.start) reach.hops.reverse reach.cost reach.spot
  chains : ∀ path ∈ frontier.found,
    path.IsChain mappings query.calls query.start query.accepts
  sorted : CheapestFirst frontier.pending
  expanded : ∀ spot ∈ query.spots, spot ∉ frontier.fresh →
    ∃ cost, (∀ reach ∈ frontier.pending, cost.le reach.cost = true) ∧
      frontier.Covers query mappings spot cost
  start : frontier.Covers query mappings (0, query.start) .zero

variable {query mappings}

theorem Query.endsAt_of_isComplete {reach : Reach W} (complete : query.isComplete reach = true) :
    query.EndsAt reach.spot := by
  rw [isComplete, Bool.and_eq_true, decide_eq_true_eq] at complete
  exact complete

theorem Query.isComplete_of_endsAt {reach : Reach W} (ends : query.EndsAt reach.spot) :
    query.isComplete reach = true := by
  rw [isComplete, Bool.and_eq_true, decide_eq_true_eq]
  exact ends

theorem Walk.continues {spot last : Spot} {hops : List (Hop W)} {cost : Cost}
    (walk : Walk mappings query.calls spot hops cost last) (nonempty : hops ≠ [])
    (ends : query.EndsAt last) : query.Continues mappings spot cost := by
  induction walk with
  | nil spot => contradiction
  | cons first rest ih =>
    cases rest with
    | nil spot => exact .last first ends
    | cons next rest => exact .more first (ih (by simp) ends)

theorem Frontier.Answers.mono {frontier : Frontier W} {cost more : Cost}
    (answers : frontier.Answers query mappings cost) (less : cost.le more = true) :
    frontier.Answers query mappings more := by
  rcases answers with ⟨path, member, cheap⟩ | ⟨reach, member, fresh, rest, onward, cheap⟩
  · exact .inl ⟨path, member, Cost.le_trans cheap less⟩
  · exact .inr ⟨reach, member, fresh, rest, onward, Cost.le_trans cheap less⟩

theorem Reach.path_isChain {next : Reach W} {hop : Hop W} {hops : List (Hop W)}
    (complete : query.isComplete next = true) (recorded : next.hops = hop :: hops)
    (walk : Walk mappings query.calls (0, query.start) next.hops.reverse next.cost next.spot) :
    next.path.IsChain mappings query.calls query.start query.accepts := by
  have ends := Query.endsAt_of_isComplete complete
  refine ⟨?_, ?_, ends.2⟩
  · simp [path, recorded]
  · have last : next.spot = (query.calls.length, next.kind) := Prod.ext ends.1 rfl
    rw [last] at walk
    exact walk

/-! ## Steps of the search -/

namespace Frontier

variable {frontier : Frontier W} {reach : Reach W} {pending : List (Reach W)}

theorem isSearching_initial : (initial query).IsSearching query mappings := by
  have here : (0, query.start) ∈ query.spots := by
    refine List.mem_flatMap.mpr ⟨0, by simp, List.mem_map_of_mem ?_⟩
    simp [Query.kinds]
  refine ⟨fun reach member => ?_, ?_, List.pairwise_singleton _ _, ?_, fun rest onward => ?_⟩
  · cases List.mem_singleton.mp member
    exact ⟨here, .nil _⟩
  · intro path member
    cases member
  · intro spot inside outside
    exact absurd inside outside
  · exact .inr ⟨.start query.start, List.mem_singleton_self _, here, rest, onward,
      Cost.le_refl _⟩

/-- Passing over a state at an expanded spot loses nothing. -/
theorem Answers.skip {cost : Cost} (waiting : frontier.pending = reach :: pending)
    (expanded : reach.spot ∉ frontier.fresh) (answers : frontier.Answers query mappings cost) :
    Answers query mappings { frontier with pending } cost := by
  rcases answers with found | ⟨other, member, fresh, onward⟩
  · exact .inl found
  · rw [waiting] at member
    rcases List.mem_cons.mp member with rfl | later
    · exact absurd fresh expanded
    · exact .inr ⟨other, later, fresh, onward⟩

theorem IsSearching.skip (searching : frontier.IsSearching query mappings)
    (waiting : frontier.pending = reach :: pending) (expanded : reach.spot ∉ frontier.fresh) :
    IsSearching query mappings { frontier with pending } := by
  obtain ⟨reached, chains, sorted, covered, start⟩ := searching
  have still : ∀ other ∈ pending, other ∈ frontier.pending := by
    intro other member
    rw [waiting]
    exact List.mem_cons_of_mem _ member
  refine ⟨fun other member => reached other (still other member), chains, ?_, ?_, ?_⟩
  · rw [waiting] at sorted
    exact (List.pairwise_cons.mp sorted).2
  · intro spot inside outside
    obtain ⟨cost, least, covers⟩ := covered spot inside outside
    exact ⟨cost, fun other member => least other (still other member),
      fun rest onward => (covers rest onward).skip waiting expanded⟩
  · exact fun rest onward => (start rest onward).skip waiting expanded

/-- What has been answered before a state is expanded is answered afterwards, or goes on
from the spot of that state at no more than its cost from there. -/
theorem Answers.expand_or {cost : Cost} (waiting : frontier.pending = reach :: pending)
    (sorted : CheapestFirst frontier.pending) (answers : frontier.Answers query mappings cost) :
    (frontier.expand query reach pending).Answers query mappings cost ∨
      ∃ rest, query.Continues mappings reach.spot rest ∧ (reach.cost.add rest).le cost = true := by
  rcases answers with ⟨path, member, cheap⟩ | ⟨other, member, fresh, rest, onward, cheap⟩
  · exact .inl (.inl ⟨path, mem_found_expand.mpr (.inl member), cheap⟩)
  · rw [waiting] at member sorted
    by_cases same : other.spot = reach.spot
    · have least : reach.cost.le other.cost = true := by
        rcases List.mem_cons.mp member with rfl | later
        · exact Cost.le_refl _
        · exact (List.pairwise_cons.mp sorted).1 other later
      rw [same] at onward
      exact .inr ⟨rest, onward, Cost.le_trans (Cost.add_le_add_right least rest) cheap⟩
    · have later : other ∈ pending := by
        rcases List.mem_cons.mp member with rfl | later
        · exact absurd rfl same
        · exact later
      exact .inl (.inr ⟨other, mem_pending_expand.mpr (.inl later),
        mem_fresh_expand.mpr ⟨fresh, same⟩, rest, onward, cheap⟩)

/-- Where a hop from the expanded state leads: it ends a path, which is then found; or a
state waits there at a fresh spot; or the spot has been expanded. -/
theorem expand_cases (shows : query.directory.Shows mappings) {spot : Spot} {hop : Hop W}
    {score : Nat} (leads : hop.Leads mappings query.calls reach.spot score spot) :
    (∃ path ∈ (frontier.expand query reach pending).found,
        path.cost = reach.cost.addHop score) ∨
      ¬ query.EndsAt spot ∧
        ((∃ next ∈ (frontier.expand query reach pending).pending,
            next.spot = spot ∧ next.cost = reach.cost.addHop score ∧
              spot ∈ (frontier.expand query reach pending).fresh) ∨
          spot = reach.spot ∨ spot ∉ frontier.fresh) := by
  let next : Reach W := ⟨spot.1, spot.2, hop :: reach.hops, reach.cost.addHop score⟩
  have successor : next ∈ query.successors reach :=
    (Query.mem_successors shows).mpr ⟨hop, score, leads, rfl, rfl⟩
  cases complete : query.isComplete next with
  | true =>
    exact .inl ⟨next.path, mem_found_expand.mpr (.inr ⟨next, successor, complete, rfl⟩), rfl⟩
  | false =>
    refine .inr ⟨fun ends => ?_, ?_⟩
    · rw [Query.isComplete_of_endsAt (show query.EndsAt next.spot from ends)] at complete
      cases complete
    · by_cases fresh : spot ∈ (frontier.expand query reach pending).fresh
      · exact .inl ⟨next, mem_pending_expand.mpr (.inr ⟨successor, complete, fresh⟩), rfl, rfl,
          fresh⟩
      · refine .inr ?_
        by_cases back : spot = reach.spot
        · exact .inl back
        · exact .inr fun old => fresh (mem_fresh_expand.mpr ⟨old, back⟩)

/-- Expanding a cheapest state covers its spot. The induction is on the hops that are
left: a way that comes to an expanded spot goes on from there at no more, and if it comes
back to this one, then with fewer hops. -/
theorem IsSearching.covers_expand (shows : query.directory.Shows mappings)
    (searching : frontier.IsSearching query mappings)
    (waiting : frontier.pending = reach :: pending) :
    (frontier.expand query reach pending).Covers query mappings reach.spot reach.cost := by
  have member : reach ∈ frontier.pending := by rw [waiting]; exact List.mem_cons_self
  have inside := (searching.reached reach member).1
  intro rest onward
  induction hops : rest.hops using Nat.strongRecOn generalizing rest with
  | ind hops ih =>
    subst hops
    cases onward with
    | @last _ spot hop score leads ends =>
      rw [← Cost.addHop_add, Cost.add_zero]
      rcases expand_cases shows leads with ⟨path, found, cost⟩ | ⟨unfinished, -⟩
      · exact .inl ⟨path, found, by rw [cost]; exact Cost.le_refl _⟩
      · exact absurd ends unfinished
    | @more _ spot hop score rest leads onward =>
      rw [← Cost.addHop_add]
      have dearer : (reach.cost.add rest).le ((reach.cost.addHop score).add rest) = true :=
        Cost.add_le_add_right (Cost.le_addHop _ _) rest
      rcases expand_cases shows leads with
        ⟨path, found, cost⟩ | ⟨-, ⟨next, later, rfl, cost, fresh⟩ | rfl | closed⟩
      · exact .inl ⟨path, found, by rw [cost]; exact Cost.le_add _ _⟩
      · exact .inr ⟨next, later, fresh, rest, onward, by rw [cost]; exact Cost.le_refl _⟩
      · exact (ih rest.hops (Nat.lt_succ_self _) rest onward rfl).mono dearer
      · obtain ⟨cost, least, covers⟩ := searching.expanded spot
          (Query.mem_spots_of_leads shows inside leads) closed
        have below := Cost.add_le_add_right (least reach member) rest
        refine Answers.mono ?_ dearer
        rcases (covers rest onward).expand_or waiting searching.sorted with
          answers | ⟨again, comesBack, cheap⟩
        · exact answers.mono below
        · have less := Cost.le_trans cheap below
          have shorter := Cost.le_iff.mp (Cost.le_of_add_le_add_left less)
          refine (ih again.hops ?_ again comesBack rfl).mono less
          simp only [Cost.addHop]
          omega

/-- A successor of a state that has been reached has been reached. -/
theorem reached_successor (shows : query.directory.Shows mappings)
    (inside : reach.spot ∈ query.spots)
    (walk : Walk mappings query.calls (0, query.start) reach.hops.reverse reach.cost reach.spot)
    {next : Reach W} (successor : next ∈ query.successors reach) :
    next.spot ∈ query.spots ∧
      Walk mappings query.calls (0, query.start) next.hops.reverse next.cost next.spot := by
  obtain ⟨hop, score, leads, recorded, costs⟩ := (Query.mem_successors shows).mp successor
  refine ⟨Query.mem_spots_of_leads shows inside leads, ?_⟩
  rw [recorded, costs, List.reverse_cons]
  exact walk.snoc leads

/-- No state that waits after an expansion is cheaper than the expanded one. -/
theorem least_expand (shows : query.directory.Shows mappings)
    (sorted : CheapestFirst (reach :: pending)) :
    ∀ next ∈ (frontier.expand query reach pending).pending, reach.cost.le next.cost = true := by
  intro next later
  rcases mem_pending_expand.mp later with old | ⟨successor, -, -⟩
  · exact (List.pairwise_cons.mp sorted).1 next old
  · obtain ⟨hop, score, -, -, costs⟩ := (Query.mem_successors shows).mp successor
    rw [costs]
    exact Cost.le_addHop _ _

theorem IsSearching.expand (shows : query.directory.Shows mappings)
    (searching : frontier.IsSearching query mappings)
    (waiting : frontier.pending = reach :: pending) :
    (frontier.expand query reach pending).IsSearching query mappings := by
  have member : reach ∈ frontier.pending := by rw [waiting]; exact List.mem_cons_self
  obtain ⟨inside, walk⟩ := searching.reached reach member
  have here := searching.covers_expand shows waiting
  have kept : ∀ {cost}, frontier.Answers query mappings cost →
      (frontier.expand query reach pending).Answers query mappings cost := by
    intro cost answers
    rcases answers.expand_or waiting searching.sorted with still | ⟨rest, onward, cheap⟩
    · exact still
    · exact (here rest onward).mono cheap
  have sorted := searching.sorted
  rw [waiting] at sorted
  have least : ∀ next ∈ (frontier.expand query reach pending).pending,
      reach.cost.le next.cost = true := least_expand shows sorted
  refine ⟨?_, ?_, cheapestFirst_expand (List.pairwise_cons.mp sorted).2, ?_,
    fun rest onward => kept (searching.start rest onward)⟩
  · intro next later
    rcases mem_pending_expand.mp later with old | ⟨successor, -, -⟩
    · exact searching.reached next (by rw [waiting]; exact List.mem_cons_of_mem _ old)
    · exact reached_successor shows inside walk successor
  · intro path found
    rcases mem_found_expand.mp found with old | ⟨next, successor, complete, rfl⟩
    · exact searching.chains path old
    · obtain ⟨hop, score, -, recorded, -⟩ := (Query.mem_successors shows).mp successor
      exact Reach.path_isChain complete recorded (reached_successor shows inside walk successor).2
  · intro spot known outside
    by_cases same : spot = reach.spot
    · subst same
      exact ⟨reach.cost, least, here⟩
    · have closed : spot ∉ frontier.fresh :=
        fun old => outside (mem_fresh_expand.mpr ⟨old, same⟩)
      obtain ⟨cost, below, covers⟩ := searching.expanded spot known closed
      exact ⟨cost, fun next later => Cost.le_trans (below reach member) (least next later),
        fun rest onward => kept (covers rest onward)⟩

theorem IsSearching.step {next : Frontier W} (shows : query.directory.Shows mappings)
    (searching : frontier.IsSearching query mappings) (taken : frontier.step query = some next) :
    next.IsSearching query mappings := by
  unfold Frontier.step at taken
  split at taken
  · cases taken
  · rename_i reach pending waiting
    split at taken
    · cases taken
    · split at taken
      · cases taken
        exact searching.expand shows waiting
      · rename_i expanded
        cases taken
        exact searching.skip waiting (by simpa using expanded)

/-- When the search stops, what it answers for has been found. -/
theorem Answers.found {cost : Cost} (sorted : CheapestFirst frontier.pending)
    (answers : frontier.Answers query mappings cost) (stopped : frontier.step query = none) :
    ∃ path ∈ frontier.found, path.cost.le cost = true := by
  rcases answers with found | ⟨other, member, -, rest, -, cheap⟩
  · exact found
  · unfold step at stopped
    split at stopped
    · rename_i waiting
      rw [waiting] at member
      cases member
    · rename_i reach pending waiting
      rw [waiting] at member sorted
      split at stopped
      · rename_i settled
        obtain ⟨path, found, below⟩ := List.any_eq_true.mp settled
        have least : reach.cost.le other.cost = true := by
          rcases List.mem_cons.mp member with rfl | later
          · exact Cost.le_refl _
          · exact (List.pairwise_cons.mp sorted).1 other later
        exact ⟨path, found, Cost.le_trans below (Cost.le_trans least
          (Cost.le_trans (Cost.le_add _ _) cheap))⟩
      · split at stopped <;> cases stopped

/-- A whole search finds chains only, and for each chain one that costs no more. -/
theorem IsSearching.run (shows : query.directory.Shows mappings)
    (searching : frontier.IsSearching query mappings) :
    (∀ path ∈ (frontier.run query).found,
      path.IsChain mappings query.calls query.start query.accepts) ∧
    ∀ cost, query.Continues mappings (0, query.start) cost →
      ∃ path ∈ (frontier.run query).found, path.cost.le cost = true := by
  fun_induction Frontier.run query frontier with
  | case1 frontier stopped =>
    refine ⟨searching.chains, fun cost onward => ?_⟩
    have answers := searching.start cost onward
    rw [Cost.zero_add] at answers
    exact answers.found searching.sorted stopped
  | case2 frontier next taken ih => exact ih (searching.step shows taken)

end Frontier

end Search

/-! ## The paths that are given -/

theorem Query.mem_paths {query : Query W} {path : Path W} :
    path ∈ query.paths ↔ path ∈ ((Frontier.initial query).run query).found :=
  List.mem_mergeSort

theorem Query.paths_ordered (query : Query W) :
    query.paths.Pairwise fun path later => path.cost.le later.cost = true :=
  @List.pairwise_mergeSort _ (fun a b : Path W => a.cost.le b.cost)
    (fun _ _ _ => Cost.le_trans) (fun a b => Cost.le_total a.cost b.cost) _

/-- There is a chain just if a path is given, and then the first one is a chain that costs
no more than any other, whatever is registered. -/
theorem Query.paths_head_isCheapest (store : Store W) (layers : List LayerId) (calls : List Name)
    (start : Kind) (accepts : Kind → Bool) :
    let mappings := store.mappings layers
    let paths := Query.paths ⟨(Indices.ofLayers layers).directory store, calls, start, accepts⟩
    (paths = [] ↔ ¬ ∃ path : Path W, path.IsChain mappings calls start accepts) ∧
      ∀ first ∈ paths.head?, first.IsChain mappings calls start accepts ∧
        ∀ path : Path W, path.IsChain mappings calls start accepts →
          first.cost.le path.cost = true := by
  intro mappings paths
  let query : Query W := ⟨(Indices.ofLayers layers).directory store, calls, start, accepts⟩
  have shows : query.directory.Shows mappings := Indices.shows_mappings store layers
  obtain ⟨chains, answered⟩ := Frontier.isSearching_initial.run shows
  have sound : ∀ path ∈ paths, path.IsChain mappings calls start accepts :=
    fun path member => chains path (Query.mem_paths.mp member)
  have complete : ∀ path : Path W, path.IsChain mappings calls start accepts →
      ∃ given ∈ paths, given.cost.le path.cost = true := by
    intro path chain
    have onward : query.Continues mappings (0, start) path.cost :=
      chain.walk.continues chain.nonempty ⟨rfl, chain.accepted⟩
    obtain ⟨given, found, cheap⟩ := answered path.cost onward
    exact ⟨given, Query.mem_paths.mpr found, cheap⟩
  refine ⟨⟨fun none => ?_, fun none => ?_⟩, fun first head => ?_⟩
  · rintro ⟨path, chain⟩
    obtain ⟨given, member, -⟩ := complete path chain
    rw [none] at member
    cases member
  · exact List.eq_nil_iff_forall_not_mem.mpr fun path member => none ⟨path, sound path member⟩
  · obtain ⟨others, split⟩ := List.head?_eq_some_iff.mp head
    refine ⟨sound first (by rw [split]; exact List.mem_cons_self), fun path chain => ?_⟩
    obtain ⟨given, member, cheap⟩ := complete path chain
    have ordered : paths.Pairwise fun path later => path.cost.le later.cost = true :=
      query.paths_ordered
    rw [split] at member ordered
    rcases List.mem_cons.mp member with rfl | later
    · exact cheap
    · exact Cost.le_trans ((List.pairwise_cons.mp ordered).1 given later) cheap

end TypedTemplate
