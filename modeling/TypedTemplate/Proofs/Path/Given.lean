import TypedTemplate.Proofs.Path.Order
import TypedTemplate.Proofs.Plan.Kinds

/-!
The paths that are given. Sorting by cost keeps those of one cost in the order in which they were
found, which is that of their ranks, so the first path is the least chain of all
(`Query.paths_head_isLeast`); a hop that consumes the only call in full and is offered first is
such a chain (`Query.paths_head_of_first`). Every path goes on by one hop from a cheapest course
(`Query.paths_areSettled`).
-/
namespace TypedTemplate

variable {W : Type}

/-! ## Sorting -/

/-- Whether a course costs no more than another. -/
def isCheaper (legs other : List (Leg W)) : Bool := (costOf legs).le (costOf other)

theorem isCheaper_trans (first next last : List (Leg W)) (left : isCheaper first next = true)
    (right : isCheaper next last = true) : isCheaper first last = true :=
  Cost.le_trans left right

theorem isCheaper_total (legs other : List (Leg W)) :
    (isCheaper legs other || isCheaper other legs) = true :=
  Cost.le_total _ _

/-- What is sorted by cost and stood in the order of ranks before begins with the least rank. -/
theorem rank_head_mergeSort {courses : List (List (Leg W))}
    (ordered : courses.Pairwise fun legs later => costOf legs = costOf later →
      rank legs < rank later) {first : List (Leg W)}
    (head : first ∈ (courses.mergeSort isCheaper).head?) :
    first ∈ courses ∧ ∀ other ∈ courses, rank first ≤ rank other := by
  obtain ⟨rest, split⟩ := List.head?_eq_some_iff.mp head
  have perm := List.mergeSort_perm courses isCheaper
  rw [split] at perm
  have sorted : (first :: rest).Pairwise fun legs later => isCheaper legs later = true := by
    rw [← split]
    exact List.pairwise_mergeSort isCheaper_trans isCheaper_total _
  have distinct : (first :: rest).Nodup := by
    refine perm.nodup_iff.mpr (ordered.imp fun {legs later} less same => ?_)
    subst same
    exact lt_irrefl _ (less rfl)
  have member : first ∈ courses := perm.subset List.mem_cons_self
  refine ⟨member, fun other known => ?_⟩
  have cheap : costOf first ≤ costOf other := by
    rcases List.mem_cons.mp (perm.mem_iff.mpr known) with rfl | later
    · exact le_refl _
    · exact Cost.le_eq_true_iff.mp ((List.pairwise_cons.mp sorted).1 other later)
  rcases cheap.lt_or_eq with less | same
  · exact (rank_lt_of_costOf_lt less).le
  · -- Sorting keeps courses of one cost in their order, and the first of all is one of them.
    let equals := courses.filter fun legs => decide (costOf legs = costOf first)
    have kept : equals.Sublist (first :: rest) := by
      rw [← split]
      refine List.sublist_mergeSort isCheaper_trans isCheaper_total ?_
        List.filter_sublist
      refine List.pairwise_of_forall_mem_list fun legs here later there => ?_
      rw [isCheaper, of_decide_eq_true (List.mem_filter.mp here).2,
        of_decide_eq_true (List.mem_filter.mp there).2]
      exact Cost.le_refl _
    have inside : first ∈ equals := List.mem_filter.mpr ⟨member, by simp⟩
    have among : other ∈ equals := List.mem_filter.mpr ⟨known, by simp [same]⟩
    have inOrder := ordered.filter fun legs => decide (costOf legs = costOf first)
    rcases List.sublist_cons_iff.mp kept with later | ⟨behind, starts, -⟩
    · exact absurd (later.subset inside) (List.nodup_cons.mp distinct).1
    · change equals.Pairwise _ at inOrder
      rw [starts] at among inOrder
      rcases List.mem_cons.mp among with rfl | later
      · exact le_refl _
      · exact ((List.pairwise_cons.mp inOrder).1 other later same).le

namespace Query

variable {query : Query W}

theorem paths_eq {endings : List (List (Leg W))}
    (found : ((Frontier.initial query).run query).found =
      endings.map fun legs => (query.trace legs).path) :
    query.paths = (endings.mergeSort isCheaper).map fun legs => (query.trace legs).path := by
  rw [paths, found]
  refine (List.map_mergeSort fun legs _ other _ => ?_).symm
  rw [isCheaper, ← query.trace_cost, ← query.trace_cost]
  rfl

theorem hopsFrom_ofLayers (store : Store W) (named implicits displays : List LayerId)
    (calls : List Name) (start : Kind) (accepts : Kind → Bool) :
    hopsFrom ⟨.ofLayers store named implicits displays, calls, start, accepts⟩ =
      onward (store.mappings named) (store.mappings implicits) calls := by
  funext spot
  rw [hopsFrom, onward, Directory.ofLayers]
  dsimp only
  rw [ImplicitIndex.get_read]
  cases calls[spot.1]? with
  | none => rfl
  | some call => simp only [NamedIndex.find_read]

/-- The path of a complete course. -/
theorem path_of_mem_endings {courses : List (List (Leg W))} {ending : List (Leg W)}
    (member : ending ∈ query.endings courses) :
    ∃ last before tail, ending = last :: before ∧ before ∈ courses ∧
      (query.trace ending).spot = (query.calls.length, tail) ∧ query.accepts tail = true ∧
      (query.hopsFrom (query.trace before).spot)[last.position]? = some (last.hop, last.score) ∧
      (query.trace ending).path = ⟨(ending.map Leg.hop).reverse, tail, costOf ending⟩ := by
  obtain ⟨⟨before, known, child⟩, complete⟩ := mem_endings.mp member
  obtain ⟨last, rfl, offered⟩ := mem_children.mp child
  have ends := endsAt_of_isComplete complete
  refine ⟨last, before, _, rfl, known, Prod.ext ends.1 rfl, ends.2, offered, ?_⟩
  rw [Reach.path, trace_hops, trace_cost]
  rfl

/-- Of one leg to an accepted kind that leaves no token out and is the first on offer, nothing comes
in front: a longer way costs more, and another leg is at best as cheap and stands behind. -/
theorem eq_of_rank_le_first {last first : Leg W} {before : List (Leg W)} {spot other : Spot}
    (course : query.IsCourse (last :: before) spot) (single : query.IsCourse [first] other)
    (whole : first.score = 0) (front : first.position = 0)
    (le : rank (last :: before) ≤ rank [first]) : last :: before = [first] := by
  have cheap : ¬ costOf [first] < costOf (last :: before) := not_lt.mpr (costOf_le_of_rank_le le)
  have cost : costOf [first] = ⟨1, 0⟩ := by rw [costOf, List.map_singleton, whole]; rfl
  rw [cost, Cost.lt_iff] at cheap
  simp only [costOf, List.length_cons, List.map_cons, List.sum_cons] at cheap
  obtain rfl : before = [] := List.eq_nil_of_length_eq_zero (by omega)
  have equal : costOf [last] = costOf [first] := by
    have none : last.score = 0 := by simpa using cheap
    rw [cost, costOf, List.map_singleton, none]
    rfl
  have position : last.position = 0 := by
    by_contra behind
    have less : rank [first] < rank [last] :=
      rank_cons_lt_of_position_lt (by omega) equal.symm
    exact absurd le (not_le.mpr less)
  refine course.eq_of_positions single ?_
  rw [positions_cons, positions_cons, position, front]

/-- The first hop on offer, if it consumes the only call in full and ends in an accepted kind, is
the first path. -/
theorem paths_head_of_first {call : Name} (only : query.calls = [call]) {found : Scored W}
    {others : List (Scored W)}
    (offered : query.directory.named.find query.start call = found :: others)
    (whole : found.score = 0) (accepted : query.accepts found.mapping.target = true) :
    query.paths.head? = some ⟨[⟨found.mapping, some 0⟩], found.mapping.target, ⟨1, 0⟩⟩ := by
  let leg : Leg W := ⟨⟨found.mapping, some 0⟩, 0, 0⟩
  have first : (query.hopsFrom (0, query.start))[leg.position]? = some (leg.hop, leg.score) := by
    simp [hopsFrom, only, offered, whole, leg]
  have single : query.IsCourse [leg] (1, found.mapping.target) := .leg .start first
  obtain ⟨expanded, waiting, ranked, stopped⟩ := (Frontier.isRanked_initial query).run
  have ends : query.EndsAt (1, found.mapping.target) := ⟨by rw [only]; rfl, accepted⟩
  obtain ⟨ending, member, below⟩ := ranked.exists_ending stopped single ends
  rw [paths_eq ranked.found, List.head?_map]
  cases head : ((query.endings expanded).mergeSort isCheaper).head? with
  | none =>
    have given : ending ∈ (query.endings expanded).mergeSort isCheaper :=
      List.mem_mergeSort.mpr member
    rw [List.head?_eq_none_iff.mp head] at given
    cases given
  | some legs =>
    obtain ⟨known, least⟩ := rank_head_mergeSort ranked.pairwise_endings head
    obtain ⟨last, before, tail, rfl, parent, -, -, offers, -⟩ := path_of_mem_endings known
    have course : query.IsCourse (last :: before) _ :=
      .leg (ranked.courses before (List.mem_append_left _ parent)).1 offers
    rw [eq_of_rank_le_first course single rfl rfl ((least ending member).trans below)]
    rfl

end Query

/-- Whether some legs, at least one, consume all calls on the way to an accepted kind. -/
def Arrives (offers : Spot → List (Hop W × Nat)) (calls : List Name) (start : Kind)
    (accepts : Kind → Bool) (legs : List (Leg W)) (tail : Kind) : Prop :=
  legs ≠ [] ∧ Course offers start legs (calls.length, tail) ∧ accepts tail = true

/-- Ties between cheapest chains are broken in one way, whatever is registered: the first path is
that of the least chain. Of the chains that cost least this is the one whose proper prefixes cost
less, compared from the longest one down, and if they all cost the same then the one that takes
the earlier hop where two chains part. -/
theorem Query.paths_head_isLeast (store : Store W) (named implicits displays : List LayerId)
    (calls : List Name) (start : Kind) (accepts : Kind → Bool) :
    let arrives := Arrives (onward (store.mappings named) (store.mappings implicits) calls)
      calls start accepts
    let paths := Query.paths ⟨.ofLayers store named implicits displays, calls, start, accepts⟩
    (paths = [] ↔ ¬ ∃ legs tail, arrives legs tail) ∧
      ∀ first ∈ paths.head?, ∃ legs tail, arrives legs tail ∧
        first = ⟨(legs.map Leg.hop).reverse, tail, costOf legs⟩ ∧
        ∀ other last, arrives other last → costOf legs ≤ costOf other ∧
          (costOf other = costOf legs → other = legs ∨ tieRank legs < tieRank other) := by
  intro arrives paths
  let query : Query W := ⟨.ofLayers store named implicits displays, calls, start, accepts⟩
  have offers : query.hopsFrom = onward (store.mappings named) (store.mappings implicits) calls :=
    hopsFrom_ofLayers store named implicits displays calls start accepts
  obtain ⟨expanded, waiting, ranked, stopped⟩ := (Frontier.isRanked_initial query).run
  have sorted : paths = _ := paths_eq ranked.found
  have complete : ∀ other last, arrives other last →
      ∃ ending ∈ query.endings expanded, rank ending ≤ rank other := by
    rintro other last ⟨nonempty, course, accepted⟩
    obtain ⟨leg, legs, rfl⟩ := List.exists_cons_of_ne_nil nonempty
    rw [← offers] at course
    exact ranked.exists_ending stopped course ⟨rfl, accepted⟩
  have sound : ∀ ending ∈ query.endings expanded, ∃ tail, arrives ending tail ∧
      (query.trace ending).path = ⟨(ending.map Leg.hop).reverse, tail, costOf ending⟩ := by
    intro ending member
    obtain ⟨last, before, tail, rfl, known, spot, accepted, offered, path⟩ :=
      path_of_mem_endings member
    have course : query.IsCourse (last :: before) _ :=
      .leg (ranked.courses before (List.mem_append_left _ known)).1 offered
    rw [← IsCourse.trace_spot course, spot, IsCourse, offers] at course
    exact ⟨tail, ⟨by simp, course, accepted⟩, path⟩
  refine ⟨⟨?_, fun none => ?_⟩, fun first head => ?_⟩
  · rintro none ⟨legs, tail, chain⟩
    obtain ⟨ending, member, -⟩ := complete legs tail chain
    have given : (query.trace ending).path ∈ paths := by
      rw [sorted]
      exact List.mem_map_of_mem (List.mem_mergeSort.mpr member)
    rw [none] at given
    cases given
  · refine List.eq_nil_iff_forall_not_mem.mpr fun path given => ?_
    rw [sorted] at given
    obtain ⟨ending, member, -⟩ := List.mem_map.mp given
    obtain ⟨tail, chain, -⟩ := sound ending (List.mem_mergeSort.mp member)
    exact none ⟨ending, tail, chain⟩
  · rw [sorted, List.head?_map] at head
    obtain ⟨legs, front, rfl⟩ := Option.map_eq_some_iff.mp head
    obtain ⟨member, least⟩ := rank_head_mergeSort ranked.pairwise_endings front
    obtain ⟨tail, chain, path⟩ := sound legs member
    refine ⟨legs, tail, chain, path, fun other last ends => ?_⟩
    obtain ⟨ending, known, below⟩ := complete other last ends
    have le := (least ending known).trans below
    refine ⟨costOf_le_of_rank_le le, fun same => ?_⟩
    rcases le.eq_or_lt with equal | less
    · exact .inl (ends.2.1.eq_of_rank_eq chain.2.1 equal.symm)
    · rcases rank_lt_iff.mp less with cheaper | ⟨-, earlier⟩
      · exact absurd same (ne_of_gt cheaper)
      · exact .inr earlier

/-- Whether a path takes a last leg after some others, and these are a cheapest way to where
they lead. -/
structure Path.IsSettled (offers : Spot → List (Hop W × Nat)) (calls : List Name) (start : Kind)
    (accepts : Kind → Bool) (path : Path W) (last : Leg W) (before : List (Leg W)) : Prop where
  hops : path.hops = ((last :: before).map Leg.hop).reverse
  course : Course offers start (last :: before) (calls.length, path.tail)
  accepted : accepts path.tail = true
  consumed : path.hops.filterMap Hop.call = List.range calls.length
  cost : path.cost = ⟨path.hops.length, ((last :: before).map Leg.score).sum⟩
  /-- No prefix ends a path. -/
  unfinished : ∀ shorter : List (Leg W), shorter.IsSuffix before → shorter ≠ [] →
    ∀ kind, Course offers start shorter (calls.length, kind) → accepts kind = false
  cheapest : ∀ spot, Course offers start before spot →
    ∀ other, Course offers start other spot → costOf before ≤ costOf other

/-- Whatever is registered, each path that is given is a chain that goes on by one hop from a
cheapest course and does not pass through the end of another path, and cheaper paths come
first. -/
theorem Query.paths_areSettled (store : Store W) (named implicits displays : List LayerId)
    (calls : List Name) (start : Kind) (accepts : Kind → Bool) :
    let offers := onward (store.mappings named) (store.mappings implicits) calls
    let paths := Query.paths ⟨.ofLayers store named implicits displays, calls, start, accepts⟩
    (paths.Pairwise fun path later => path.cost ≤ later.cost) ∧
      ∀ path ∈ paths, ∃ last before, path.IsSettled offers calls start accepts last before := by
  intro offers paths
  let query : Query W := ⟨.ofLayers store named implicits displays, calls, start, accepts⟩
  have same : query.hopsFrom = offers :=
    hopsFrom_ofLayers store named implicits displays calls start accepts
  obtain ⟨expanded, waiting, ranked, -⟩ := (Frontier.isRanked_initial query).run
  refine ⟨query.paths_ordered.imp Cost.le_eq_true_iff.mp, fun path given => ?_⟩
  have found := mem_paths.mp given
  rw [ranked.found] at found
  obtain ⟨ending, member, rfl⟩ := List.mem_map.mp found
  obtain ⟨last, before, tail, rfl, known, spot, accepted, offered, path⟩ :=
    path_of_mem_endings member
  have way := (ranked.courses before (List.mem_append_left _ known)).1
  have course : query.IsCourse (last :: before) _ := .leg way offered
  rw [← IsCourse.trace_spot course, spot, IsCourse, same] at course
  rw [path]
  refine ⟨last, before, rfl, course, accepted, course.consumed, ?_, ?_, ?_⟩
  · simp [costOf]
  · intro shorter suffix nonempty kind reaches
    obtain ⟨leg, legs, rfl⟩ := List.exists_cons_of_ne_nil nonempty
    have held := ranked.mem_of_suffix known suffix
    have unfinished := (ranked.parents leg legs (List.mem_append_left _ held)).2
    rw [← same] at reaches
    rw [isComplete, Bool.and_eq_false_iff, decide_eq_false_iff_not] at unfinished
    have stands : (query.trace (leg :: legs)).spot = (calls.length, kind) :=
      IsCourse.trace_spot reaches
    have consumed : (query.trace (leg :: legs)).consumed = calls.length := congrArg Prod.fst stands
    have here : (query.trace (leg :: legs)).kind = kind := congrArg Prod.snd stands
    rw [here] at unfinished
    exact unfinished.resolve_left (not_not_intro consumed)
  · intro middle reaches other again
    rw [← same] at reaches again
    have stands : (query.trace before).spot = middle := IsCourse.trace_spot reaches
    exact costOf_le_of_rank_le (ranked.least before known other (stands ▸ again))

end TypedTemplate
