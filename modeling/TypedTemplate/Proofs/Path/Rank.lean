import Mathlib.Algebra.GroupWithZero.Nat
import Mathlib.Data.List.Lex
import Mathlib.Data.Prod.Lex
import TypedTemplate.Proofs.Path.Chain
import TypedTemplate.Proofs.Registry.Scan

/-!
Courses and their ranks. A course is a walk from the start, taken leg by leg; each leg is one of
the hops that its spot offers, at a certain position among them. Courses are ranked by the costs
of their prefixes, from the whole course down to no hop at all, and then by the positions of
their legs from the first one on. A hop more always ranks behind, and of two courses to one
spot the one in front stays in front when both go on with the same leg (`rank_cons_lt`).
-/
namespace TypedTemplate

variable {W : Type}

/-! ## Costs in order -/

namespace Cost

instance : LinearOrder Cost :=
  LinearOrder.lift' (fun cost => toLex (cost.hops, cost.score)) fun a b same => by
    cases a
    cases b
    simpa using same

theorem lt_iff {a b : Cost} : a < b ↔ a.hops < b.hops ∨ a.hops = b.hops ∧ a.score < b.score :=
  Prod.lex_def

theorem le_eq_true_iff {a b : Cost} : a.le b = true ↔ a ≤ b := by
  rw [← not_lt, lt_iff, Cost.le_iff]
  omega

theorem lt_addHop (a : Cost) (score : Nat) : a < a.addHop score :=
  lt_iff.mpr (.inl (Nat.lt_succ_self _))

theorem addHop_lt_addHop {a b : Cost} {score : Nat} :
    a.addHop score < b.addHop score ↔ a < b := by
  simp only [lt_iff, addHop]
  omega

end Cost

/-! ## Legs -/

/-- A hop with its score and with its position among the hops that could be taken. -/
structure Leg (W : Type) where
  hop : Hop W
  score : Nat
  position : Nat

/-- Where a hop leads from a spot. -/
def Hop.goal (hop : Hop W) (spot : Spot) : Spot :=
  (if hop.call.isSome then spot.1 + 1 else spot.1, hop.mapping.target)

/-- The cost of some legs: their number and the sum of their scores. -/
def costOf (legs : List (Leg W)) : Cost := ⟨legs.length, (legs.map Leg.score).sum⟩

theorem costOf_cons (leg : Leg W) (legs : List (Leg W)) :
    costOf (leg :: legs) = (costOf legs).addHop leg.score := by
  simp [costOf, Cost.addHop, Nat.add_comm]

theorem costOf_lt_cons (leg : Leg W) (legs : List (Leg W)) : costOf legs < costOf (leg :: legs) := by
  rw [costOf_cons]
  exact Cost.lt_addHop _ _

theorem length_eq_of_costOf {first second : List (Leg W)} (same : costOf first = costOf second) :
    first.length = second.length :=
  congrArg Cost.hops same

/-- The hops that lead on from a spot, with their scores: those through the mappings that the
next call may mean, in the order of registration, and then those through implicit mappings, the
newest first. -/
def onward (named implicits : List (Mapping W)) (calls : List Name) (spot : Spot) :
    List (Hop W × Nat) :=
  (match calls[spot.1]? with
    | none => []
    | some call => (matchesFor named spot.2 call).map fun found =>
        (⟨found.mapping, some spot.1⟩, found.score)) ++
    (implicitsFrom implicits spot.2).map fun mapping => (⟨mapping, none⟩, 0)

/-- A hop leads on if its mapping leaves the kind of the spot and either consumes the next call,
which means it, or is implicit and consumes none. -/
theorem mem_onward {named implicits : List (Mapping W)} {calls : List Name} {spot : Spot}
    {hop : Hop W} {score : Nat} :
    (hop, score) ∈ onward named implicits calls spot ↔
      (∃ call, calls[spot.1]? = some call ∧ hop.mapping ∈ named ∧ hop.mapping.source = spot.2 ∧
        hop.mapping.name.skipped? call = some score ∧ hop.call = some spot.1) ∨
      hop.mapping ∈ implicits ∧ hop.mapping.implicit = true ∧ hop.mapping.source = spot.2 ∧
        hop.call = none ∧ score = 0 := by
  obtain ⟨mapping, consumed⟩ := hop
  rw [onward, List.mem_append]
  refine or_congr ?_ ?_
  · cases calls[spot.1]? with
    | none => simp
    | some call =>
      simp only [matchesFor, List.mem_map, List.mem_filterMap, Prod.mk.injEq, Hop.mk.injEq,
        Option.some.injEq, exists_eq_left']
      constructor
      · rintro ⟨found, ⟨known, member, fits⟩, ⟨rfl, rfl⟩, rfl⟩
        split at fits
        · rename_i here
          obtain ⟨skipped, matched, rfl⟩ := Option.map_eq_some_iff.mp fits
          exact ⟨member, here, matched, rfl⟩
        · cases fits
      · rintro ⟨member, here, matched, rfl⟩
        exact ⟨⟨mapping, score⟩, ⟨mapping, member, by simp [here, matched]⟩, ⟨rfl, rfl⟩, rfl⟩
  · simp only [implicitsFrom, List.mem_map, List.mem_reverse, List.mem_filter, Bool.and_eq_true,
      decide_eq_true_eq, Prod.mk.injEq, Hop.mk.injEq]
    constructor
    · rintro ⟨found, ⟨member, free, here⟩, ⟨rfl, rfl⟩, rfl⟩
      exact ⟨member, free, here, rfl, rfl⟩
    · rintro ⟨member, free, here, rfl, rfl⟩
      exact ⟨mapping, ⟨member, free, here⟩, ⟨rfl, rfl⟩, rfl⟩

/-- Legs from the start to a spot, the newest first. -/
inductive Course (offers : Spot → List (Hop W × Nat)) (start : Kind) : List (Leg W) → Spot → Prop
  | start : Course offers start [] (0, start)
  | leg {legs : List (Leg W)} {spot : Spot} {leg : Leg W} (before : Course offers start legs spot)
      (offered : (offers spot)[leg.position]? = some (leg.hop, leg.score)) :
      Course offers start (leg :: legs) (leg.hop.goal spot)

namespace Course

variable {offers : Spot → List (Hop W × Nat)} {start : Kind} {legs : List (Leg W)}
  {spot last : Spot}

theorem unique (course : Course offers start legs spot) (again : Course offers start legs last) :
    spot = last := by
  induction course generalizing last with
  | start =>
    cases again
    rfl
  | leg _ _ ih =>
    cases again with
    | leg before _ => rw [ih before]

/-- A course consumes the calls one by one, in their order. -/
theorem consumed {named implicits : List (Mapping W)} {calls : List Name}
    (course : Course (onward named implicits calls) start legs spot) :
    (legs.map Leg.hop).reverse.filterMap Hop.call = List.range spot.1 := by
  induction course with
  | start => rfl
  | @leg legs spot leg _ offered ih =>
    rw [List.map_cons, List.reverse_cons, List.filterMap_append, ih]
    rcases mem_onward.mp (List.mem_of_getElem? offered) with
      ⟨call, -, -, -, -, consumed⟩ | ⟨-, -, -, consumed, -⟩
    · simp [Hop.goal, consumed, List.range_succ]
    · simp [Hop.goal, consumed]

end Course

/-! ## Ranks -/

/-- The positions of the legs, from the first one on. -/
def positions (legs : List (Leg W)) : List Nat := (legs.map Leg.position).reverse

/-- The costs of a course and of its prefixes, from the longest one down to the empty one. -/
def prefixCosts (legs : List (Leg W)) : List Cost := legs.tails.map costOf

/-- What courses are compared by. -/
def rank (legs : List (Leg W)) : List Cost ×ₗ List Nat := toLex (prefixCosts legs, positions legs)

/-- What courses of one cost are compared by: the costs of their proper prefixes, the longest
first, and then the positions of their legs, the first leg first. -/
def tieRank (legs : List (Leg W)) : List Cost ×ₗ List Nat :=
  toLex ((prefixCosts legs).tail, positions legs)

theorem prefixCosts_cons (leg : Leg W) (legs : List (Leg W)) :
    prefixCosts (leg :: legs) = costOf (leg :: legs) :: prefixCosts legs := rfl

theorem prefixCosts_eq (legs : List (Leg W)) :
    prefixCosts legs = costOf legs :: (prefixCosts legs).tail := by
  cases legs <;> rfl

theorem positions_cons (leg : Leg W) (legs : List (Leg W)) :
    positions (leg :: legs) = positions legs ++ [leg.position] := by
  simp [positions]

theorem rank_lt_iff {first second : List (Leg W)} :
    rank first < rank second ↔ costOf first < costOf second ∨
      costOf first = costOf second ∧ tieRank first < tieRank second := by
  rw [rank, rank, prefixCosts_eq first, prefixCosts_eq second]
  simp only [tieRank, Prod.Lex.toLex_lt_toLex, List.cons_lt_cons_iff, List.cons.injEq]
  tauto

theorem rank_lt_of_costOf_lt {first second : List (Leg W)} (less : costOf first < costOf second) :
    rank first < rank second :=
  rank_lt_iff.mpr (.inl less)

theorem costOf_le_of_rank_le {first second : List (Leg W)} (le : rank first ≤ rank second) :
    costOf first ≤ costOf second := by
  by_contra dearer
  exact absurd (rank_lt_of_costOf_lt (not_le.mp dearer)) (not_lt.mpr le)

theorem rank_lt_cons (leg : Leg W) (legs : List (Leg W)) : rank legs < rank (leg :: legs) :=
  rank_lt_of_costOf_lt (costOf_lt_cons leg legs)

/-- What decides between two lists of one length still does when both get longer. -/
theorem append_lt_append {first second : List Nat} (less : first < second)
    (length : first.length = second.length) (more others : List Nat) :
    first ++ more < second ++ others := by
  induction first generalizing second with
  | nil =>
    rw [List.eq_nil_of_length_eq_zero length.symm] at less
    exact absurd less (List.not_lt_nil [])
  | cons head tail ih =>
    cases second with
    | nil => cases length
    | cons other rest =>
      rw [List.cons_append, List.cons_append, List.cons_lt_cons_iff]
      rcases List.cons_lt_cons_iff.mp less with smaller | ⟨same, less⟩
      · exact .inl smaller
      · exact .inr ⟨same, ih less (Nat.succ.inj length)⟩

/-- Courses of one cost are in the order of the courses before their last legs. -/
theorem rank_cons_lt_of_costOf_eq {first second : List (Leg W)} {leg other : Leg W}
    (less : rank first < rank second) (same : costOf (leg :: first) = costOf (other :: second)) :
    rank (leg :: first) < rank (other :: second) := by
  have length : first.length = second.length := Nat.succ.inj (length_eq_of_costOf same)
  refine rank_lt_iff.mpr (.inr ⟨same, ?_⟩)
  rw [tieRank, tieRank, Prod.Lex.toLex_lt_toLex, prefixCosts_cons, prefixCosts_cons]
  rw [rank, rank, Prod.Lex.toLex_lt_toLex] at less
  rcases less with cheaper | ⟨costs, earlier⟩
  · exact .inl cheaper
  · refine .inr ⟨costs, ?_⟩
    change positions (leg :: first) < positions (other :: second)
    rw [positions_cons, positions_cons]
    exact append_lt_append earlier (by simpa [positions] using length) _ _

/-- The course in front stays in front when both go on with the same leg. -/
theorem rank_cons_lt {first second : List (Leg W)} (less : rank first < rank second)
    (leg : Leg W) : rank (leg :: first) < rank (leg :: second) := by
  rcases (costOf_le_of_rank_le less.le).lt_or_eq with cheaper | same
  · refine rank_lt_of_costOf_lt ?_
    rw [costOf_cons, costOf_cons]
    exact Cost.addHop_lt_addHop.mpr cheaper
  · refine rank_cons_lt_of_costOf_eq less ?_
    rw [costOf_cons, costOf_cons, same]

theorem rank_cons_le {first second : List (Leg W)} (le : rank first ≤ rank second) (leg : Leg W) :
    rank (leg :: first) ≤ rank (leg :: second) := by
  rcases le.lt_or_eq with less | same
  · exact (rank_cons_lt less leg).le
  · have costs : prefixCosts first = prefixCosts second := congrArg (fun key => (ofLex key).1) same
    have places : positions first = positions second := congrArg (fun key => (ofLex key).2) same
    have cost : costOf first = costOf second := by
      rw [prefixCosts_eq first, prefixCosts_eq second] at costs
      exact List.head_eq_of_cons_eq costs
    rw [rank, rank, prefixCosts_cons, prefixCosts_cons, positions_cons, positions_cons, costs,
      places, costOf_cons, costOf_cons, cost]

/-- Of two legs that cost the same the one at the earlier position comes first. -/
theorem rank_cons_lt_of_position_lt {legs : List (Leg W)} {leg other : Leg W}
    (earlier : leg.position < other.position)
    (same : costOf (leg :: legs) = costOf (other :: legs)) :
    rank (leg :: legs) < rank (other :: legs) := by
  refine rank_lt_iff.mpr (.inr ⟨same, ?_⟩)
  rw [tieRank, tieRank, Prod.Lex.toLex_lt_toLex]
  refine .inr ⟨rfl, ?_⟩
  change positions (leg :: legs) < positions (other :: legs)
  rw [positions_cons, positions_cons]
  refine List.append_left_lt ?_
  rw [List.cons_lt_cons_iff]
  exact .inl earlier

/-- The positions tell which hops a course takes. -/
theorem Course.eq_of_positions {offers : Spot → List (Hop W × Nat)} {start : Kind}
    {first second : List (Leg W)} {spot last : Spot} (course : Course offers start first spot)
    (other : Course offers start second last) (same : positions first = positions second) :
    first = second := by
  induction course generalizing second last with
  | start =>
    have length := congrArg List.length same
    simp only [positions, List.length_reverse, List.length_map, List.length_nil] at length
    exact (List.eq_nil_of_length_eq_zero length.symm).symm
  | @leg legs spot leg before offered ih =>
    cases other with
    | start => simp [positions] at same
    | @leg others middle other behind alike =>
      rw [positions_cons, positions_cons] at same
      obtain ⟨earlier, here⟩ := List.append_inj' same rfl
      have legs_eq : legs = others := ih behind earlier
      subst legs_eq
      have spots : spot = middle := before.unique behind
      subst spots
      have position : leg.position = other.position := List.head_eq_of_cons_eq here
      rw [position, alike, Option.some.injEq, Prod.mk.injEq] at offered
      obtain ⟨hop, score, index⟩ := leg
      obtain ⟨otherHop, otherScore, otherIndex⟩ := other
      obtain ⟨rfl, rfl⟩ := offered
      cases position
      rfl

theorem Course.eq_of_rank_eq {offers : Spot → List (Hop W × Nat)} {start : Kind}
    {first second : List (Leg W)} {spot last : Spot} (course : Course offers start first spot)
    (other : Course offers start second last) (same : rank first = rank second) :
    first = second :=
  course.eq_of_positions other (congrArg (fun key => (ofLex key).2) same)

end TypedTemplate
