import TypedTemplate.Proofs.Path.Exploration
import TypedTemplate.Proofs.Path.Rank

/-!
The order in which a search expands states. Each stands for the course along which it has been
reached, and courses are expanded by rank. One that is expanded has the least rank of all to its
spot (`Frontier.IsRanked.least_front`), because whatever is in front of it has been held back by
a state that came earlier (`Frontier.IsRanked.holds`). So a search that stops has found a path
that is not behind any chain (`Frontier.IsRanked.exists_ending`).
-/
namespace TypedTemplate

variable {W : Type}

/-! ## Courses of a search -/

namespace Reach

/-- Goes on by a hop with a score. -/
def go (reach : Reach W) (offer : Hop W × Nat) : Reach W :=
  ⟨(offer.1.goal reach.spot).1, (offer.1.goal reach.spot).2, offer.1 :: reach.hops,
    reach.cost.addHop offer.2⟩

end Reach

namespace Query

variable (query : Query W)

/-- The hops that lead on from a spot, with their scores, in the order of the search. -/
def hopsFrom (spot : Spot) : List (Hop W × Nat) :=
  (match query.calls[spot.1]? with
    | none => []
    | some call => (query.directory.named.find spot.2 call).map fun found =>
        (⟨found.mapping, some spot.1⟩, found.score)) ++
    (query.directory.implicits.get spot.2).map fun mapping => (⟨mapping, none⟩, 0)

/-- The state in which a search comes along some legs. -/
def trace : List (Leg W) → Reach W
  | [] => .start query.start
  | leg :: legs => (trace legs).go (leg.hop, leg.score)

/-- Some legs with one more, for each hop that leads on. -/
def children (legs : List (Leg W)) : List (List (Leg W)) :=
  (query.hopsFrom (query.trace legs).spot).zipIdx.map fun (offer, position) =>
    ⟨offer.1, offer.2, position⟩ :: legs

/-- What ends a path behind some courses. -/
def endings (courses : List (List (Leg W))) : List (List (Leg W)) :=
  (courses.flatMap query.children).filter fun legs => query.isComplete (query.trace legs)

/-- Legs from the start of the search to a spot. -/
abbrev IsCourse (legs : List (Leg W)) (spot : Spot) : Prop :=
  Course query.hopsFrom query.start legs spot

variable {query}

theorem successors_eq (reach : Reach W) :
    query.successors reach = (query.hopsFrom reach.spot).map reach.go := by
  obtain ⟨consumed, kind, hops, cost⟩ := reach
  rw [successors, hopsFrom, List.map_append, List.map_map]
  dsimp only [Reach.spot]
  cases query.calls[consumed]? with
  | none => rfl
  | some call =>
    rw [List.map_map]
    rfl

theorem successors_trace (legs : List (Leg W)) :
    query.successors (query.trace legs) = (query.children legs).map query.trace := by
  rw [successors_eq, children, List.map_map]
  have scores := congrArg (List.map (query.trace legs).go)
    (List.zipIdx_map_fst 0 (query.hopsFrom (query.trace legs).spot))
  rw [List.map_map] at scores
  exact scores.symm

theorem mem_children {legs child : List (Leg W)} :
    child ∈ query.children legs ↔ ∃ leg, child = leg :: legs ∧
      (query.hopsFrom (query.trace legs).spot)[leg.position]? = some (leg.hop, leg.score) := by
  rw [children, List.mem_map]
  constructor
  · rintro ⟨⟨⟨hop, score⟩, position⟩, member, rfl⟩
    exact ⟨⟨hop, score, position⟩, rfl, List.mk_mem_zipIdx_iff_getElem?.mp member⟩
  · rintro ⟨leg, rfl, offered⟩
    exact ⟨((leg.hop, leg.score), leg.position), List.mk_mem_zipIdx_iff_getElem?.mpr offered, rfl⟩

theorem costOf_lt_of_mem_children {legs child : List (Leg W)}
    (member : child ∈ query.children legs) : costOf legs < costOf child := by
  obtain ⟨leg, rfl, -⟩ := mem_children.mp member
  exact costOf_lt_cons leg legs

/-- Of the ways on those that cost the same are in the order of their ranks. -/
theorem pairwise_children (legs : List (Leg W)) :
    (query.children legs).Pairwise fun child later =>
      costOf child = costOf later → rank child < rank later := by
  refine List.pairwise_iff_getElem.mpr fun i j _ _ less same => ?_
  simp only [children, List.getElem_map, List.getElem_zipIdx] at same ⊢
  exact rank_cons_lt_of_position_lt (by simpa using less) same

theorem trace_cost (legs : List (Leg W)) : (query.trace legs).cost = costOf legs := by
  induction legs with
  | nil => rfl
  | cons leg legs ih =>
    rw [costOf_cons, ← ih]
    rfl

theorem trace_hops (legs : List (Leg W)) : (query.trace legs).hops = legs.map Leg.hop := by
  induction legs with
  | nil => rfl
  | cons leg legs ih =>
    rw [List.map_cons, ← ih]
    rfl

theorem IsCourse.trace_spot {legs : List (Leg W)} {spot : Spot}
    (course : query.IsCourse legs spot) : (query.trace legs).spot = spot := by
  induction course with
  | start => rfl
  | @leg legs spot leg _ _ ih =>
    rw [← ih]
    rfl

theorem IsCourse.child {legs child : List (Leg W)}
    (course : query.IsCourse legs (query.trace legs).spot) (member : child ∈ query.children legs) :
    query.IsCourse child (query.trace child).spot := by
  obtain ⟨leg, rfl, offered⟩ := mem_children.mp member
  exact .leg course offered

theorem trace_mem_spots {legs child : List (Leg W)} (inside : (query.trace legs).spot ∈ query.spots)
    (member : child ∈ query.children legs) : (query.trace child).spot ∈ query.spots := by
  have successor : query.trace child ∈ query.successors (query.trace legs) := by
    rw [successors_trace]
    exact List.mem_map_of_mem member
  obtain ⟨hop, offers, -⟩ := offers_of_mem_successors successor
  exact mem_spots_of_offers inside offers

theorem mem_endings {courses : List (List (Leg W))} {ending : List (Leg W)} :
    ending ∈ query.endings courses ↔ (∃ legs ∈ courses, ending ∈ query.children legs) ∧
      query.isComplete (query.trace ending) = true := by
  rw [endings, List.mem_filter, List.mem_flatMap]

end Query

/-! ## The queue -/

section Queue

variable {query : Query W}

/-- Some courses in the order of their ranks. -/
abbrev ByRank (courses : List (List (Leg W))) : Prop :=
  courses.Pairwise fun legs later => rank legs < rank later

/-- A course that ranks behind all of its cost is put where its rank says. -/
theorem exists_enqueue (query : Query W) {waiting : List (List (Leg W))} {child : List (Leg W)}
    (sorted : ByRank waiting)
    (behind : ∀ legs ∈ waiting, costOf legs = costOf child → rank legs < rank child) :
    ∃ later, enqueue (waiting.map query.trace) (query.trace child) = later.map query.trace ∧
      ByRank later ∧ ∀ legs, legs ∈ later ↔ legs ∈ waiting ∨ legs = child := by
  induction waiting with
  | nil => exact ⟨[child], rfl, List.pairwise_singleton _ _, by simp⟩
  | cons first rest ih =>
    obtain ⟨ahead, ordered⟩ := List.pairwise_cons.mp sorted
    rw [List.map_cons, enqueue, Query.trace_cost, Query.trace_cost]
    split
    · rename_i cheap
      have cheaper : costOf first ≤ costOf child := Cost.le_eq_true_iff.mp cheap
      have front : rank first < rank child := by
        rcases cheaper.lt_or_eq with less | same
        · exact rank_lt_of_costOf_lt less
        · exact behind first List.mem_cons_self same
      obtain ⟨later, queued, inOrder, members⟩ := ih ordered fun legs member =>
        behind legs (List.mem_cons_of_mem _ member)
      refine ⟨first :: later, by rw [queued, List.map_cons], ?_, fun legs => ?_⟩
      · refine List.pairwise_cons.mpr ⟨fun legs member => ?_, inOrder⟩
        rcases (members legs).mp member with old | rfl
        · exact ahead legs old
        · exact front
      · rw [List.mem_cons, members, List.mem_cons, or_assoc]
    · rename_i dear
      have dearer : costOf child < costOf first :=
        not_le.mp fun le => dear (Cost.le_eq_true_iff.mpr le)
      have front : rank child < rank first := rank_lt_of_costOf_lt dearer
      refine ⟨child :: first :: rest, rfl, ?_, fun legs => by rw [List.mem_cons, or_comm]⟩
      refine List.pairwise_cons.mpr ⟨fun legs member => ?_, sorted⟩
      rcases List.mem_cons.mp member with rfl | later
      · exact front
      · exact front.trans (ahead legs later)

theorem exists_foldl_enqueue {waiting added : List (List (Leg W))} (sorted : ByRank waiting)
    (behind : ∀ legs ∈ waiting, ∀ child ∈ added, costOf legs = costOf child →
      rank legs < rank child)
    (inside : added.Pairwise fun child later => costOf child = costOf later →
      rank child < rank later) :
    ∃ later, (added.map query.trace).foldl enqueue (waiting.map query.trace) =
        later.map query.trace ∧
      ByRank later ∧ ∀ legs, legs ∈ later ↔ legs ∈ waiting ∨ legs ∈ added := by
  induction added generalizing waiting with
  | nil => exact ⟨waiting, rfl, sorted, by simp⟩
  | cons first rest ih =>
    obtain ⟨ahead, others⟩ := List.pairwise_cons.mp inside
    obtain ⟨middle, queued, ordered, members⟩ := exists_enqueue query sorted
      fun legs member => behind legs member first List.mem_cons_self
    obtain ⟨later, done, inOrder, all⟩ := ih ordered (fun legs member child new same => by
      rcases (members legs).mp member with old | rfl
      · exact behind legs old child (List.mem_cons_of_mem _ new) same
      · exact ahead child new same) others
    refine ⟨later, by rw [List.map_cons, List.foldl_cons, queued, done], inOrder, fun legs => ?_⟩
    rw [all, members, List.mem_cons, or_assoc]

end Queue

/-! ## What the search keeps -/

section Search

variable (query : Query W)

/-- Whether a course waits at a fresh spot, or its spot has been expanded along a course that is
not behind it. -/
def Frontier.Regards (frontier : Frontier W) (expanded waiting : List (List (Leg W)))
    (legs : List (Leg W)) : Prop :=
  (legs ∈ waiting ∧ (query.trace legs).spot ∈ frontier.fresh) ∨
    ∃ other ∈ expanded, (query.trace other).spot = (query.trace legs).spot ∧ rank other ≤ rank legs

/-- Whether a search has expanded some courses, in this order, and has others waiting. -/
structure Frontier.IsRanked (frontier : Frontier W) (expanded waiting : List (List (Leg W))) :
    Prop where
  pending : frontier.pending = waiting.map query.trace
  found : frontier.found = (query.endings expanded).map fun legs => (query.trace legs).path
  fresh : ∀ spot, spot ∈ frontier.fresh ↔
    spot ∈ query.spots ∧ ∀ legs ∈ expanded, (query.trace legs).spot ≠ spot
  courses : ∀ legs ∈ expanded ++ waiting,
    query.IsCourse legs (query.trace legs).spot ∧ (query.trace legs).spot ∈ query.spots
  /-- What stands before a last leg has been expanded, and ends no path. -/
  parents : ∀ leg legs, leg :: legs ∈ expanded ++ waiting →
    legs ∈ expanded ∧ query.isComplete (query.trace (leg :: legs)) = false
  sorted : ByRank (expanded ++ waiting)
  start : frontier.Regards query expanded waiting []
  covered : ∀ legs ∈ expanded, ∀ child ∈ query.children legs,
    query.isComplete (query.trace child) = true ∨ frontier.Regards query expanded waiting child
  /-- No course to the spot of an expanded one is in front of it. -/
  least : ∀ legs ∈ expanded, ∀ other, query.IsCourse other (query.trace legs).spot →
    rank legs ≤ rank other

variable {query}

namespace Frontier

variable {frontier next : Frontier W} {expanded waiting : List (List (Leg W))}
  {legs : List (Leg W)}

theorem isRanked_initial (query : Query W) : (initial query).IsRanked query [] [[]] := by
  have inside : (query.trace []).spot ∈ query.spots := query.start_mem_spots
  refine ⟨rfl, rfl, fun spot => by simp [initial], ?_, ?_, List.pairwise_singleton _ _, ?_, nofun,
    nofun⟩
  · intro legs member
    rw [List.nil_append, List.mem_singleton] at member
    subst member
    exact ⟨.start, inside⟩
  · intro leg legs member
    simp at member
  · exact .inl ⟨List.mem_singleton_self _, inside⟩

/-- Every course is held back by what has been found, by what waits or by what has been
expanded. The induction is along the course. -/
theorem IsRanked.holds (ranked : frontier.IsRanked query expanded waiting) {spot : Spot}
    (course : query.IsCourse legs spot) :
    (∃ ending ∈ query.endings expanded, costOf ending ≤ costOf legs) ∨
      (∃ other ∈ waiting, (query.trace other).spot ∈ frontier.fresh ∧ rank other ≤ rank legs) ∨
      ∃ other ∈ expanded, (query.trace other).spot = spot ∧ rank other ≤ rank legs := by
  induction course with
  | start =>
    rcases ranked.start with ⟨waits, fresh⟩ | old
    · exact .inr (.inl ⟨[], waits, fresh, le_refl _⟩)
    · exact .inr (.inr old)
  | @leg legs spot leg before offered ih =>
    have longer := rank_lt_cons leg legs
    rcases ih with ⟨ending, known, cheap⟩ | ⟨other, waits, fresh, front⟩ | ⟨other, old, same, front⟩
    · exact .inl ⟨ending, known, cheap.trans (costOf_lt_cons leg legs).le⟩
    · exact .inr (.inl ⟨other, waits, fresh, front.trans longer.le⟩)
    · -- The expanded course goes on with the same leg.
      have child : leg :: other ∈ query.children other :=
        Query.mem_children.mpr ⟨leg, rfl, by rw [same]; exact offered⟩
      have onward := rank_cons_le front leg
      have goal : (query.trace (leg :: other)).spot = leg.hop.goal spot := by
        rw [← same]
        rfl
      rcases ranked.covered other old _ child with complete | ⟨waits, fresh⟩ | ⟨first, held, at_, ahead⟩
      · exact .inl ⟨_, Query.mem_endings.mpr ⟨⟨other, old, child⟩, complete⟩,
          costOf_le_of_rank_le onward⟩
      · exact .inr (.inl ⟨_, waits, fresh, onward⟩)
      · exact .inr (.inr ⟨first, held, at_.trans goal, ahead.trans onward⟩)

/-! ## Steps of the search -/

variable {rest : List (List (Leg W))}

theorem IsRanked.front (ranked : frontier.IsRanked query expanded (legs :: rest))
    {other : List (Leg W)} (waits : other ∈ legs :: rest) : rank legs ≤ rank other := by
  rcases List.mem_cons.mp waits with rfl | later
  · exact le_refl _
  · have sorted := (List.pairwise_append.mp ranked.sorted).2.1
    exact ((List.pairwise_cons.mp sorted).1 other later).le

/-- The next course to be expanded has the least rank of all to its spot. -/
theorem IsRanked.least_front (ranked : frontier.IsRanked query expanded (legs :: rest))
    (unsettled : frontier.isSettledBy (query.trace legs) = false)
    (fresh : (query.trace legs).spot ∈ frontier.fresh) :
    ∀ other, query.IsCourse other (query.trace legs).spot → rank legs ≤ rank other := by
  intro other course
  by_contra behind
  have less : rank other < rank legs := not_le.mp behind
  rcases ranked.holds course with ⟨ending, known, cheap⟩ | ⟨first, waits, -, front⟩ |
    ⟨first, old, same, -⟩
  · have settled : frontier.isSettledBy (query.trace legs) = true := by
      rw [isSettledBy, ranked.found, List.any_map, List.any_eq_true]
      refine ⟨ending, known, Cost.le_eq_true_iff.mpr ?_⟩
      change (query.trace ending).cost ≤ (query.trace legs).cost
      rw [Query.trace_cost, Query.trace_cost]
      exact cheap.trans (costOf_le_of_rank_le less.le)
    rw [unsettled] at settled
    cases settled
  · exact absurd (front.trans_lt less) (not_lt.mpr (ranked.front waits))
  · exact ((ranked.fresh _).mp fresh).2 first old same

theorem IsRanked.skip (ranked : frontier.IsRanked query expanded (legs :: rest))
    (stale : (query.trace legs).spot ∉ frontier.fresh) :
    IsRanked query { frontier with pending := rest.map query.trace } expanded rest := by
  have still : (expanded ++ rest).Sublist (expanded ++ legs :: rest) :=
    (List.sublist_cons_self legs rest).append_left expanded
  have regards : ∀ {other}, frontier.Regards query expanded (legs :: rest) other →
      Regards query { frontier with pending := rest.map query.trace } expanded rest other := by
    rintro other (⟨waits, fresh⟩ | old)
    · rcases List.mem_cons.mp waits with rfl | later
      · exact absurd fresh stale
      · exact .inl ⟨later, fresh⟩
    · exact .inr old
  exact ⟨rfl, ranked.found, ranked.fresh, fun other member =>
    ranked.courses other (still.subset member), fun leg other member =>
    ranked.parents leg other (still.subset member), ranked.sorted.sublist still,
    regards ranked.start, fun other old child member =>
    (ranked.covered other old child member).imp_right regards, ranked.least⟩

theorem mem_settle {fresh : List Spot} {spot other : Spot} :
    spot ∈ settle fresh other ↔ spot ∈ fresh ∧ spot ≠ other := by
  simp [settle]

/-- The ways on from a course that wait when it is expanded. -/
def onwardFrom (query : Query W) (frontier : Frontier W) (legs : List (Leg W)) :
    List (List (Leg W)) :=
  ((query.children legs).filter fun child => !query.isComplete (query.trace child)).filter
    fun child => (settle frontier.fresh (query.trace legs).spot).contains (query.trace child).spot

theorem mem_onwardFrom {child : List (Leg W)} :
    child ∈ onwardFrom query frontier legs ↔ child ∈ query.children legs ∧
      query.isComplete (query.trace child) = false ∧
      (query.trace child).spot ∈ settle frontier.fresh (query.trace legs).spot := by
  rw [onwardFrom, List.mem_filter, List.mem_filter, and_assoc, Bool.not_eq_true',
    List.contains_iff_mem]

theorem pending_expand_trace (frontier : Frontier W) (legs : List (Leg W))
    (pending : List (Reach W)) :
    (frontier.expand query (query.trace legs) pending).pending =
      ((onwardFrom query frontier legs).map query.trace).foldl enqueue pending := by
  simp only [expand, List.partition_eq_filter_filter, Query.successors_trace, List.filter_map,
    onwardFrom]
  rfl

theorem found_expand_trace (frontier : Frontier W) (legs : List (Leg W))
    (pending : List (Reach W)) :
    (frontier.expand query (query.trace legs) pending).found =
      frontier.found ++ (query.endings [legs]).map fun ending => (query.trace ending).path := by
  simp only [expand, List.partition_eq_filter_filter, Query.successors_trace, List.filter_map,
    List.map_map, Query.endings, List.flatMap_singleton]
  rfl

/-- The ways on from the course that is expanded can be put into the queue by rank: a waiting
course of the same cost goes on from one that has been expanded before. -/
theorem IsRanked.exists_waiting (ranked : frontier.IsRanked query expanded (legs :: rest)) :
    ∃ later, (frontier.expand query (query.trace legs) (rest.map query.trace)).pending =
        later.map query.trace ∧ ByRank later ∧
      ∀ other, other ∈ later ↔ other ∈ rest ∨ other ∈ onwardFrom query frontier legs := by
  obtain ⟨-, sorted, apart⟩ := List.pairwise_append.mp ranked.sorted
  rw [pending_expand_trace]
  refine exists_foldl_enqueue (List.pairwise_cons.mp sorted).2 ?_
    (((query.pairwise_children legs).filter _).filter _)
  intro other waits child new same
  obtain ⟨leg, rfl, -⟩ := Query.mem_children.mp (mem_onwardFrom.mp new).1
  cases other with
  | nil => cases length_eq_of_costOf same
  | cons last before =>
    have parent := (ranked.parents last before
      (List.mem_append_right _ (List.mem_cons_of_mem _ waits))).1
    exact rank_cons_lt_of_costOf_eq (apart before parent legs List.mem_cons_self) same

/-- What a course leads on to is known after its expansion, unless it ends a path. -/
theorem IsRanked.regards_child (ranked : frontier.IsRanked query expanded (legs :: rest))
    {later : List (List (Leg W))}
    (members : ∀ other, other ∈ later ↔ other ∈ rest ∨ other ∈ onwardFrom query frontier legs)
    {child : List (Leg W)} (member : child ∈ query.children legs) :
    query.isComplete (query.trace child) = true ∨
      (frontier.expand query (query.trace legs) (rest.map query.trace)).Regards query
        (expanded ++ [legs]) later child := by
  have inside := (ranked.courses legs (by simp)).2
  cases complete : query.isComplete (query.trace child) with
  | true => exact .inl rfl
  | false =>
    right
    by_cases fresh : (query.trace child).spot ∈ settle frontier.fresh (query.trace legs).spot
    · exact .inl ⟨(members child).mpr (.inr (mem_onwardFrom.mpr ⟨member, complete, fresh⟩)), fresh⟩
    · -- The spot has been expanded, now or earlier, so at less than the cost of one more hop.
      have longer := rank_lt_of_costOf_lt (Query.costOf_lt_of_mem_children member)
      by_cases here : (query.trace child).spot = (query.trace legs).spot
      · exact .inr ⟨legs, by simp, here.symm, longer.le⟩
      · have stale : (query.trace child).spot ∉ frontier.fresh := fun old =>
          fresh (mem_settle.mpr ⟨old, here⟩)
        simp only [ranked.fresh, not_and, not_forall, ne_eq, Decidable.not_not] at stale
        obtain ⟨other, old, same⟩ := stale (Query.trace_mem_spots inside member)
        have apart := (List.pairwise_append.mp ranked.sorted).2.2
        exact .inr ⟨other, List.mem_append_left _ old, same,
          ((apart other old legs List.mem_cons_self).trans longer).le⟩

theorem IsRanked.expand (ranked : frontier.IsRanked query expanded (legs :: rest))
    (unsettled : frontier.isSettledBy (query.trace legs) = false)
    (fresh : (query.trace legs).spot ∈ frontier.fresh) :
    ∃ later, (frontier.expand query (query.trace legs) (rest.map query.trace)).IsRanked query
      (expanded ++ [legs]) later := by
  obtain ⟨later, pending, ordered, members⟩ := ranked.exists_waiting
  obtain ⟨course, inside⟩ := ranked.courses legs (by simp)
  obtain ⟨old, sorted, apart⟩ := List.pairwise_append.mp ranked.sorted
  have ahead := (List.pairwise_cons.mp sorted).1
  have known : ∀ {other}, other ∈ expanded ++ [legs] ++ later →
      other ∈ expanded ++ legs :: rest ∨ other ∈ onwardFrom query frontier legs := by
    intro other member
    simp only [List.mem_append, members, List.mem_cons] at member ⊢
    tauto
  have regards : ∀ {other}, frontier.Regards query expanded (legs :: rest) other →
      (frontier.expand query (query.trace legs) (rest.map query.trace)).Regards query
        (expanded ++ [legs]) later other := by
    rintro other (⟨waits, open_⟩ | ⟨first, held, same, front⟩)
    · by_cases here : (query.trace other).spot = (query.trace legs).spot
      · exact .inr ⟨legs, by simp, here.symm, ranked.front waits⟩
      · have waiting : other ∈ rest :=
          (List.mem_cons.mp waits).resolve_left fun same => here (by rw [same])
        exact .inl ⟨(members other).mpr (.inl waiting), mem_fresh_expand.mpr ⟨open_, here⟩⟩
    · exact .inr ⟨first, List.mem_append_left _ held, same, front⟩
  refine ⟨later, pending, ?_, fun spot => ?_, fun other member => ?_, fun leg other member => ?_,
    ?_, regards ranked.start, fun other held child member => ?_, fun other held => ?_⟩
  · rw [found_expand_trace, ranked.found, ← List.map_append]
    simp only [Query.endings, List.flatMap_append, List.filter_append]
  · rw [mem_fresh_expand, ranked.fresh, List.forall_mem_append, List.forall_mem_singleton,
      and_assoc, ne_comm]
  · rcases known member with before | new
    · exact ranked.courses other before
    · have child := (mem_onwardFrom.mp new).1
      exact ⟨Query.IsCourse.child course child, Query.trace_mem_spots inside child⟩
  · rcases known member with before | new
    · exact (ranked.parents leg other before).imp_left (List.mem_append_left _)
    · obtain ⟨child, unfinished, -⟩ := mem_onwardFrom.mp new
      obtain ⟨_, same, -⟩ := Query.mem_children.mp child
      cases same
      exact ⟨by simp, unfinished⟩
  · refine List.pairwise_append.mpr ⟨?_, ordered, fun other held behind member => ?_⟩
    · refine List.pairwise_append.mpr ⟨old, List.pairwise_singleton _ _, fun other held last at_ => ?_⟩
      rw [List.mem_singleton.mp at_]
      exact apart other held legs List.mem_cons_self
    · have front : rank other ≤ rank legs := by
        rcases List.mem_append.mp held with before | here
        · exact (apart other before legs List.mem_cons_self).le
        · rw [List.mem_singleton.mp here]
      refine front.trans_lt ?_
      rcases (members behind).mp member with waits | new
      · exact ahead behind waits
      · exact rank_lt_of_costOf_lt (Query.costOf_lt_of_mem_children (mem_onwardFrom.mp new).1)
  · rcases List.mem_append.mp held with before | here
    · exact (ranked.covered other before child member).imp_right regards
    · rw [List.mem_singleton.mp here] at member
      exact ranked.regards_child members member
  · rcases List.mem_append.mp held with before | here
    · exact ranked.least other before
    · rw [List.mem_singleton.mp here]
      exact ranked.least_front unsettled fresh

theorem IsRanked.step (ranked : frontier.IsRanked query expanded waiting)
    (taken : frontier.step query = some next) :
    ∃ expanded waiting, next.IsRanked query expanded waiting := by
  unfold Frontier.step at taken
  cases waiting with
  | nil =>
    rw [ranked.pending] at taken
    cases taken
  | cons legs rest =>
    rw [ranked.pending, List.map_cons] at taken
    dsimp only at taken
    split at taken
    · cases taken
    · rename_i unsettled
      split at taken
      · rename_i fresh
        cases taken
        obtain ⟨later, ordered⟩ := ranked.expand (by simpa using unsettled) (by simpa using fresh)
        exact ⟨_, later, ordered⟩
      · rename_i stale
        cases taken
        exact ⟨expanded, rest, ranked.skip (by simpa using stale)⟩

/-- When the search stops, every chain is held back by a path that has been found. -/
theorem IsRanked.exists_ending (ranked : frontier.IsRanked query expanded waiting)
    (stopped : frontier.step query = none) {leg : Leg W} {spot : Spot}
    (course : query.IsCourse (leg :: legs) spot) (ends : query.EndsAt spot) :
    ∃ ending ∈ query.endings expanded, rank ending ≤ rank (leg :: legs) := by
  cases course with
  | @leg _ spot _ before offered =>
    have longer := rank_lt_cons leg legs
    rcases ranked.holds before with ⟨ending, known, cheap⟩ | ⟨other, waits, -, front⟩ |
      ⟨other, old, same, front⟩
    · exact ⟨ending, known, (rank_lt_of_costOf_lt (cheap.trans_lt (costOf_lt_cons leg legs))).le⟩
    · cases waiting with
      | nil => cases waits
      | cons first rest =>
        unfold Frontier.step at stopped
        rw [ranked.pending, List.map_cons] at stopped
        dsimp only at stopped
        split at stopped
        · rename_i settled
          rw [isSettledBy, ranked.found, List.any_map, List.any_eq_true] at settled
          obtain ⟨ending, known, cheap⟩ := settled
          have below : (query.trace ending).cost ≤ (query.trace first).cost :=
            Cost.le_eq_true_iff.mp cheap
          rw [Query.trace_cost, Query.trace_cost] at below
          have ahead := costOf_le_of_rank_le ((ranked.front waits).trans front)
          exact ⟨ending, known,
            (rank_lt_of_costOf_lt ((below.trans ahead).trans_lt (costOf_lt_cons leg legs))).le⟩
        · split at stopped <;> cases stopped
    · have child : leg :: other ∈ query.children other :=
        Query.mem_children.mpr ⟨leg, rfl, by rw [same]; exact offered⟩
      have goal : (query.trace (leg :: other)).spot = leg.hop.goal spot := by
        rw [← same]
        rfl
      have complete : query.isComplete (query.trace (leg :: other)) = true :=
        Query.isComplete_of_endsAt (by rw [goal]; exact ends)
      exact ⟨_, Query.mem_endings.mpr ⟨⟨other, old, child⟩, complete⟩, rank_cons_le front leg⟩

theorem IsRanked.run (ranked : frontier.IsRanked query expanded waiting) :
    ∃ expanded waiting, (frontier.run query).IsRanked query expanded waiting ∧
      (frontier.run query).step query = none := by
  fun_induction Frontier.run query frontier generalizing expanded waiting with
  | case1 frontier stopped => exact ⟨expanded, waiting, ranked, stopped⟩
  | case2 frontier next taken ih =>
    obtain ⟨_, _, ranked⟩ := ranked.step taken
    exact ih ranked

/-- All that stands before the last leg of a course has been expanded with it. -/
theorem IsRanked.mem_of_suffix (ranked : frontier.IsRanked query expanded waiting)
    (member : legs ∈ expanded) {shorter : List (Leg W)} (suffix : shorter.IsSuffix legs) :
    shorter ∈ expanded := by
  induction legs with
  | nil =>
    rw [List.suffix_nil.mp suffix]
    exact member
  | cons leg legs ih =>
    rcases List.suffix_cons_iff.mp suffix with rfl | suffix
    · exact member
    · exact ih (ranked.parents leg legs (List.mem_append_left _ member)).1 suffix

/-- Paths are found in the order of the courses that they go on from. -/
theorem IsRanked.pairwise_endings (ranked : frontier.IsRanked query expanded waiting) :
    (query.endings expanded).Pairwise fun ending later =>
      costOf ending = costOf later → rank ending < rank later := by
  refine (List.pairwise_flatMap.mpr ⟨fun legs _ => Query.pairwise_children legs, ?_⟩).filter _
  refine (List.pairwise_append.mp ranked.sorted).1.imp fun {legs later} less => ?_
  intro child member other behind same
  obtain ⟨leg, rfl, -⟩ := Query.mem_children.mp member
  obtain ⟨last, rfl, -⟩ := Query.mem_children.mp behind
  exact rank_cons_lt_of_costOf_eq less same

end Frontier

end Search

end TypedTemplate
