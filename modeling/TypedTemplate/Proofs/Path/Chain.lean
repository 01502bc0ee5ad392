import TypedTemplate.Path.Search
import TypedTemplate.Proofs.Registry

/-!
Chains. A spot is a number of consumed calls with a kind. A hop leads from a spot to
another through a registered mapping, and a chain is a walk of hops, at least one, that
starts with no call consumed and ends with all of them consumed in an accepted kind.
-/
namespace TypedTemplate

variable {W : Type}

/-! ## Costs -/

namespace Cost

def add (first next : Cost) : Cost := ⟨first.hops + next.hops, first.score + next.score⟩

theorem le_iff {a b : Cost} :
    a.le b = true ↔ a.hops < b.hops ∨ a.hops = b.hops ∧ a.score ≤ b.score := by
  simp [le]

theorem le_refl (a : Cost) : a.le a = true := le_iff.mpr (.inr ⟨rfl, Nat.le_refl _⟩)

theorem le_trans {a b c : Cost} (first : a.le b = true) (next : b.le c = true) :
    a.le c = true := by
  rw [le_iff] at first next ⊢
  omega

theorem le_total (a b : Cost) : (a.le b || b.le a) = true := by
  rw [Bool.or_eq_true, le_iff, le_iff]
  omega

theorem le_of_not_le {a b : Cost} (greater : ¬ a.le b = true) : b.le a = true := by
  have total := le_total a b
  rw [Bool.or_eq_true] at total
  exact total.resolve_left greater

theorem le_addHop (a : Cost) (score : Nat) : a.le (a.addHop score) = true :=
  le_iff.mpr (.inl (Nat.lt_succ_self _))

theorem add_zero (a : Cost) : a.add zero = a := rfl

theorem zero_add (a : Cost) : zero.add a = a := by
  simp [add, zero]

theorem le_add (a b : Cost) : a.le (a.add b) = true := by
  rw [le_iff, add]
  dsimp only
  omega

theorem add_le_add_right {a b : Cost} (less : a.le b = true) (c : Cost) :
    (a.add c).le (b.add c) = true := by
  rw [le_iff] at less ⊢
  simp only [add]
  omega

theorem le_of_add_le_add_left {a b c : Cost} (less : (a.add b).le (a.add c) = true) :
    b.le c = true := by
  rw [le_iff] at less ⊢
  simp only [add] at less
  omega

theorem addHop_add (a b : Cost) (score : Nat) :
    (a.addHop score).add b = a.add (b.addHop score) := by
  simp only [addHop, add, mk.injEq]
  omega

end Cost

/-! ## Hops and walks -/

/-- A number of consumed calls with a kind. -/
abbrev Spot := Nat × Kind

section Walks

variable (mappings : List (Mapping W)) (calls : List Name)

/-- A hop from a spot to another, with its score. -/
inductive Hop.Leads : Spot → Hop W → Nat → Spot → Prop
  | named {mapping : Mapping W} {consumed : Nat} {call : Name} {score : Nat}
      (registered : mapping ∈ mappings) (next : calls[consumed]? = some call)
      (matched : mapping.name.skipped? call = some score) :
      Leads (consumed, mapping.source) ⟨mapping, some consumed⟩ score (consumed + 1, mapping.target)
  | implicit {mapping : Mapping W} {consumed : Nat} (registered : mapping ∈ mappings)
      (free : mapping.implicit = true) :
      Leads (consumed, mapping.source) ⟨mapping, none⟩ 0 (consumed, mapping.target)

/-- Hops from a spot to another, with the cost of all of them. -/
inductive Walk : Spot → List (Hop W) → Cost → Spot → Prop
  | nil (spot : Spot) : Walk spot [] .zero spot
  | cons {spot middle last : Spot} {hop : Hop W} {score : Nat} {hops : List (Hop W)} {cost : Cost}
      (first : hop.Leads mappings calls spot score middle) (rest : Walk middle hops cost last) :
      Walk spot (hop :: hops) (cost.addHop score) last

variable {mappings calls}

theorem Walk.snoc {spot middle last : Spot} {hops : List (Hop W)} {cost : Cost} {hop : Hop W}
    {score : Nat} (walk : Walk mappings calls spot hops cost middle)
    (next : hop.Leads mappings calls middle score last) :
    Walk mappings calls spot (hops ++ [hop]) (cost.addHop score) last := by
  induction walk with
  | nil spot => exact .cons next (.nil last)
  | @cons _ _ _ _ firstScore _ cost first _ ih =>
    have swap : (cost.addHop firstScore).addHop score = (cost.addHop score).addHop firstScore := by
      simp only [Cost.addHop, Cost.mk.injEq, true_and]
      omega
    rw [swap]
    exact .cons first (ih next)

end Walks

/-- A path that records a chain from a kind to an accepted one. -/
structure Path.IsChain (mappings : List (Mapping W)) (calls : List Name) (start : Kind)
    (accepts : Kind → Bool) (path : Path W) : Prop where
  nonempty : path.hops ≠ []
  walk : Walk mappings calls (0, start) path.hops path.cost (calls.length, path.tail)
  accepted : accepts path.tail = true

/-! ## Successors -/

/-- The successors of a state are the states that one hop leads to. -/
theorem Query.mem_successors {query : Query W} {mappings : List (Mapping W)}
    (shows : query.directory.Shows mappings) {reach next : Reach W} :
    next ∈ query.successors reach ↔ ∃ hop score,
      hop.Leads mappings query.calls reach.spot score next.spot ∧
        next.hops = hop :: reach.hops ∧ next.cost = reach.cost.addHop score := by
  obtain ⟨consumed, kind, hops, cost⟩ := reach
  rw [successors, List.mem_append]
  constructor
  · rintro (named | implicit)
    · split at named
      · rename_i call found
        obtain ⟨scored, member, rfl⟩ := List.mem_map.mp named
        obtain ⟨registered, rfl, matched⟩ := (shows.named _ _ _).mp member
        exact ⟨_, _, .named registered found matched, rfl, rfl⟩
      · cases named
    · obtain ⟨mapping, member, rfl⟩ := List.mem_map.mp implicit
      obtain ⟨registered, free, rfl⟩ := (shows.implicits _ _).mp member
      exact ⟨_, _, .implicit registered free, rfl, rfl⟩
  · rintro ⟨hop, score, leads, recorded, costs⟩
    obtain ⟨nextConsumed, nextKind, nextHops, nextCost⟩ := next
    simp only [Reach.spot] at leads recorded costs
    subst recorded costs
    cases leads with
    | @named mapping _ call _ registered found matched =>
      left
      rw [found]
      exact List.mem_map.mpr
        ⟨⟨mapping, score⟩, (shows.named _ _ _).mpr ⟨registered, rfl, matched⟩, rfl⟩
    | @implicit mapping _ registered free =>
      right
      exact List.mem_map.mpr ⟨mapping, (shows.implicits _ _).mpr ⟨registered, free, rfl⟩, rfl⟩

/-- Hops do not leave the spots of the query. -/
theorem Query.mem_spots_of_leads {query : Query W} {mappings : List (Mapping W)}
    (shows : query.directory.Shows mappings) {spot next : Spot} {hop : Hop W} {score : Nat}
    (member : spot ∈ query.spots) (leads : hop.Leads mappings query.calls spot score next) :
    next ∈ query.spots := by
  have target : ∀ mapping ∈ mappings, mapping.target ∈ query.kinds := by
    intro mapping registered
    have known := shows.targets mapping registered
    simp [kinds, known]
  simp only [spots, List.mem_flatMap, List.mem_map, List.mem_range] at member ⊢
  obtain ⟨consumed, within, kind, known, rfl⟩ := member
  cases leads with
  | @named mapping _ call _ registered found matched =>
    have more := (List.getElem?_eq_some_iff.mp found).1
    exact ⟨_, Nat.succ_lt_succ more, _, target mapping registered, rfl⟩
  | @implicit mapping _ registered free => exact ⟨_, within, _, target mapping registered, rfl⟩

end TypedTemplate
