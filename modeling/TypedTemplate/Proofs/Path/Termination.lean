import Mathlib.Algebra.Order.BigOperators.Group.List
import Mathlib.Algebra.Order.Group.Nat
import Mathlib.Data.List.Perm.Subperm
import TypedTemplate.Proofs.Path.Order
import TypedTemplate.Proofs.Plan.Kinds

/-!
A search ends on every graph, also where hops lead round in circles. A turn that does not end it
either drops a state at an expanded spot or expands a new spot (`Frontier.Turn`), so that the spots
that are left decrease, and where they stay the same the pending states do (`Frontier.left`). What
has been expanded is told here by the turns that the search has taken (`Frontier.Arises`); that the
fresh spots are all others is what each turn keeps (`Frontier.IsSurveyed.turn`). As every state but
the first is put there by a hop from an expanded spot, the turns are bounded by the hops on offer.
-/
namespace TypedTemplate

variable {W : Type}

/-! ## The queue -/

theorem perm_enqueue (pending : List (Reach W)) (reach : Reach W) :
    (enqueue pending reach).Perm (reach :: pending) := by
  induction pending with
  | nil => exact .refl _
  | cons first rest ih =>
    rw [enqueue]
    split
    · exact (ih.cons first).trans (.swap reach first rest)
    · exact .refl _

theorem perm_foldl_enqueue (pending added : List (Reach W)) :
    (added.foldl enqueue pending).Perm (pending ++ added) := by
  induction added generalizing pending with
  | nil => rw [List.append_nil]; exact .refl _
  | cons first rest ih =>
    have front := (perm_enqueue pending first).append_right rest
    exact (ih (enqueue pending first)).trans (front.trans List.perm_middle.symm)

/-! ## Turns -/

namespace Frontier

/-- What a turn comes to after these spots have been expanded. -/
inductive Turn (query : Query W) (expanded : List Spot) (frontier : Frontier W) :
    Option (Frontier W) → Prop
  /-- Nothing is pending, or a path has been found that costs no more than the first state. -/
  | stop (settled : ∀ reach ∈ frontier.pending.head?,
        ∃ path ∈ frontier.found, path.cost.le reach.cost = true) :
      Turn query expanded frontier none
  /-- The first state goes, and nothing comes in its place. -/
  | drop {reach : Reach W} {pending : List (Reach W)}
      (waiting : frontier.pending = reach :: pending) (old : reach.spot ∈ expanded) :
      Turn query expanded frontier (some { frontier with pending })
  /-- Some successors of the first state come in its place. -/
  | expand {reach : Reach W} {pending added : List (Reach W)} {next : Frontier W}
      (waiting : frontier.pending = reach :: pending) (new : reach.spot ∉ expanded)
      (known : reach.spot ∈ query.spots) (offered : added.Sublist (query.successors reach))
      (queued : next.pending.Perm (pending ++ added)) : Turn query expanded frontier (some next)

/-- Whether a search comes to this in so many turns, with these spots expanded, the latest first.
A turn that does not end the search leaves the spot of the first pending state among them. -/
inductive Arises (query : Query W) : Nat → List Spot → Frontier W → Prop
  | start : Arises query 0 [] (initial query)
  | turn {turns : Nat} {expanded : List Spot} {frontier next : Frontier W} {reach : Reach W}
      {pending : List (Reach W)} (before : Arises query turns expanded frontier)
      (waiting : frontier.pending = reach :: pending) (taken : frontier.step query = some next) :
      Arises query (turns + 1) (expanded.insert reach.spot) next

/-- The number of spots that have not been expanded, and that of pending states. -/
def left (query : Query W) (expanded : List Spot) (frontier : Frontier W) : Nat × Nat :=
  ((query.spots.filter (· ∉ expanded)).length, frontier.pending.length)

/-- What a search keeps that has taken so many turns and expanded these spots. -/
structure IsSurveyed (query : Query W) (turns : Nat) (expanded : List Spot)
    (frontier : Frontier W) : Prop where
  distinct : expanded.Nodup
  known : ∀ spot ∈ expanded, spot ∈ query.spots
  fresh : frontier.fresh = query.spots.filter (· ∉ expanded)
  pending : ∀ reach ∈ frontier.pending, reach.spot ∈ query.spots
  /-- Each turn uses up a state, and these are the first one and those that hops lead to. -/
  spent : turns + frontier.pending.length ≤
    1 + (expanded.map fun spot => (query.hopsFrom spot).length).sum

variable {query : Query W} {frontier next : Frontier W} {reach : Reach W}
  {pending : List (Reach W)} {turns : Nat} {expanded : List Spot}

theorem isSurveyed_initial (query : Query W) : (initial query).IsSurveyed query 0 [] := by
  refine ⟨List.nodup_nil, nofun, ?_, ?_, le_rfl⟩
  · simp [initial]
  · intro reach member
    cases List.mem_singleton.mp member
    exact query.start_mem_spots

theorem length_successors (query : Query W) (reach : Reach W) :
    (query.successors reach).length = (query.hopsFrom reach.spot).length := by
  rw [Query.successors_eq, List.length_map]

/-- The pending states after an expansion are the old ones and some of the successors. -/
theorem exists_added (query : Query W) (frontier : Frontier W) (reach : Reach W)
    (pending : List (Reach W)) :
    ∃ added, added.Sublist (query.successors reach) ∧
      (frontier.expand query reach pending).pending.Perm (pending ++ added) := by
  simp only [expand, List.partition_eq_filter_filter]
  exact ⟨_, List.filter_sublist.trans List.filter_sublist, perm_foldl_enqueue _ _⟩

/-- The ways in which a step can go. -/
theorem step_cases (query : Query W) (frontier : Frontier W) :
    (frontier.step query = none ∧ ∀ reach ∈ frontier.pending.head?,
        ∃ path ∈ frontier.found, path.cost.le reach.cost = true) ∨
      ∃ reach pending, frontier.pending = reach :: pending ∧
        (reach.spot ∈ frontier.fresh ∧
            frontier.step query = some (frontier.expand query reach pending) ∨
          reach.spot ∉ frontier.fresh ∧
            frontier.step query = some { frontier with pending }) := by
  unfold step
  split
  · rename_i empty
    exact .inl ⟨rfl, by simp [empty]⟩
  · rename_i reach pending waiting
    split
    · rename_i settled
      refine .inl ⟨rfl, ?_⟩
      simpa [waiting, isSettledBy] using settled
    · refine .inr ⟨reach, pending, waiting, ?_⟩
      split
      · rename_i fresh
        exact .inl ⟨by simpa using fresh, rfl⟩
      · rename_i stale
        exact .inr ⟨by simpa using stale, rfl⟩

namespace IsSurveyed

theorem mem_fresh (surveyed : frontier.IsSurveyed query turns expanded) {spot : Spot}
    (inside : spot ∈ query.spots) : spot ∈ frontier.fresh ↔ spot ∉ expanded := by
  simp [surveyed.fresh, inside]

theorem known_pending (surveyed : frontier.IsSurveyed query turns expanded)
    (waiting : frontier.pending = reach :: pending) :
    reach.spot ∈ query.spots ∧ ∀ other ∈ pending, other.spot ∈ query.spots := by
  have all := surveyed.pending
  rwa [waiting, List.forall_mem_cons] at all

/-- A state that is not at a fresh spot is at an expanded one. -/
theorem takes_turn (surveyed : frontier.IsSurveyed query turns expanded) :
    frontier.Turn query expanded (frontier.step query) := by
  rcases frontier.step_cases query with ⟨stopped, settled⟩ | ⟨reach, pending, waiting, kinds⟩
  · rw [stopped]
    exact .stop settled
  · have known := (surveyed.known_pending waiting).1
    rcases kinds with ⟨fresh, taken⟩ | ⟨stale, taken⟩
    · rw [taken]
      obtain ⟨added, offered, queued⟩ := exists_added query frontier reach pending
      exact .expand waiting ((surveyed.mem_fresh known).mp fresh) known offered queued
    · rw [taken]
      rw [surveyed.mem_fresh known, not_not] at stale
      exact .drop waiting stale

theorem remaining_eq (surveyed : frontier.IsSurveyed query turns expanded) :
    frontier.remaining = frontier.left query expanded := by
  rw [remaining, left, surveyed.fresh]

theorem drop (surveyed : frontier.IsSurveyed query turns expanded)
    (waiting : frontier.pending = reach :: pending) :
    IsSurveyed query (turns + 1) expanded { frontier with pending } := by
  have spent := surveyed.spent
  rw [waiting, List.length_cons] at spent
  have rest := (surveyed.known_pending waiting).2
  exact { surveyed with pending := rest, spent := by dsimp only; omega }

theorem expand (surveyed : frontier.IsSurveyed query turns expanded)
    (waiting : frontier.pending = reach :: pending) (new : reach.spot ∉ expanded) :
    (frontier.expand query reach pending).IsSurveyed query (turns + 1)
      (reach.spot :: expanded) := by
  obtain ⟨known, rest⟩ := surveyed.known_pending waiting
  obtain ⟨added, offered, queued⟩ := exists_added query frontier reach pending
  refine ⟨List.nodup_cons.mpr ⟨new, surveyed.distinct⟩,
    List.forall_mem_cons.mpr ⟨known, surveyed.known⟩, ?_, fun other member => ?_, ?_⟩
  · rw [Frontier.expand, settle, surveyed.fresh, List.filter_filter]
    refine List.filter_congr fun spot _ => ?_
    by_cases here : spot = reach.spot <;> simp [here]
  · rcases List.mem_append.mp (queued.subset member) with old | later
    · exact rest other old
    · obtain ⟨hop, offers, -⟩ := Query.offers_of_mem_successors (offered.subset later)
      exact Query.mem_spots_of_offers known offers
  · have spent := surveyed.spent
    have few := offered.length_le
    rw [length_successors] at few
    rw [waiting, List.length_cons] at spent
    rw [queued.length_eq, List.length_append, List.map_cons, List.sum_cons]
    omega

/-- Whatever a turn does, the spot of the first state is an expanded one afterwards. -/
theorem turn (surveyed : frontier.IsSurveyed query turns expanded)
    (waiting : frontier.pending = reach :: pending) (taken : frontier.step query = some next) :
    next.IsSurveyed query (turns + 1) (expanded.insert reach.spot) := by
  have known := (surveyed.known_pending waiting).1
  rcases frontier.step_cases query with ⟨stopped, -⟩ | ⟨first, others, same, kinds⟩
  · rw [stopped] at taken
    cases taken
  · obtain ⟨rfl, rfl⟩ := List.cons.inj (waiting.symm.trans same)
    rcases kinds with ⟨fresh, expands⟩ | ⟨stale, drops⟩
    · have new := (surveyed.mem_fresh known).mp fresh
      rw [expands] at taken
      cases taken
      rw [List.insert_of_not_mem new]
      exact surveyed.expand waiting new
    · rw [surveyed.mem_fresh known, not_not] at stale
      rw [drops] at taken
      cases taken
      rw [List.insert_of_mem stale]
      exact surveyed.drop waiting

theorem spent_le (surveyed : frontier.IsSurveyed query turns expanded) :
    turns ≤ 1 + (query.spots.map fun spot => (query.hopsFrom spot).length).sum := by
  obtain ⟨some, perm, sublist⟩ := List.Nodup.subperm surveyed.distinct surveyed.known
  have same := (perm.map fun spot => (query.hopsFrom spot).length).sum_eq
  have fewer := (sublist.map fun spot => (query.hopsFrom spot).length).sum_le_sum
    fun _ _ => Nat.zero_le _
  have spent := surveyed.spent
  omega

end IsSurveyed

/-! ## Runs -/

theorem Arises.isSurveyed (arises : frontier.Arises query turns expanded) :
    frontier.IsSurveyed query turns expanded := by
  induction arises with
  | start => exact isSurveyed_initial query
  | turn before waiting taken ih => exact ih.turn waiting taken

/-- A search that has begun comes to its end. -/
theorem Arises.run (arises : frontier.Arises query turns expanded) :
    ∃ turns expanded, (frontier.run query).Arises query turns expanded ∧
      (frontier.run query).step query = none := by
  fun_induction Frontier.run query frontier generalizing turns expanded with
  | case1 frontier stopped => exact ⟨turns, expanded, arises, stopped⟩
  | case2 frontier next taken ih =>
    rcases frontier.step_cases query with ⟨stopped, -⟩ | ⟨reach, pending, waiting, -⟩
    · rw [stopped] at taken
      cases taken
    · exact ih (arises.turn waiting taken)

end Frontier

/-! ## Where a search can stand -/

/-- A table of lists holds one item more when the item is put into the list of a key. -/
theorem Table.mem_flatMap_update {α κ : Type} [DecidableEq κ] {put : List α → List α} {added : α}
    (puts : ∀ held item, item ∈ put held ↔ item ∈ held ∨ item = added)
    (table : Table κ (List α)) (key : κ) (item : α) :
    item ∈ (update table key fun old => put (old.getD [])).flatMap Prod.snd ↔
      item ∈ table.flatMap Prod.snd ∨ item = added := by
  induction table with
  | nil => simp [update, puts]
  | cons entry rest ih =>
    obtain ⟨k, held⟩ := entry
    by_cases here : k = key
    · simp only [update, if_pos here, List.flatMap_cons, List.mem_append, Option.getD_some, puts]
      rw [or_right_comm]
    · simp only [update, if_neg here, List.flatMap_cons, List.mem_append, ih, or_assoc]

namespace NamedIndex

/-- The mappings that can be found by name. -/
def mappings (index : NamedIndex W) : List (Mapping W) :=
  index.byName.flatMap Prod.snd

theorem mem_mappings_absorb (index : NamedIndex W) (added mapping : Mapping W) :
    mapping ∈ mappings (Indexes.absorb index added) ↔
      mapping ∈ index.mappings ∨ mapping = added ∧ True := by
  have puts : ∀ held item, item ∈ held ++ [added] ↔ item ∈ held ∨ item = added := by simp
  rw [and_true]
  exact Table.mem_flatMap_update puts index.byName (added.source, added.name.short) mapping

theorem mem_mappings_read (store : Store W) (layers : List LayerId) (mapping : Mapping W) :
    mapping ∈ mappings ((Index.ofLayers layers : Index (NamedIndex W)).read store) ↔
      mapping ∈ store.mappings layers := by
  have view : (Index.ofLayers layers : Index (NamedIndex W)).read store =
      (store.mappings layers).foldl Indexes.absorb ⟨[]⟩ := Index.read_ofLayers store layers
  rw [view, mem_foldl_absorb mappings mem_mappings_absorb, and_true]
  exact or_iff_right List.not_mem_nil

theorem mem_targets_read (store : Store W) (layers : List LayerId) (kind : Kind) :
    kind ∈ ((Index.ofLayers layers : Index (NamedIndex W)).read store).targets ↔
      ∃ mapping ∈ store.mappings layers, mapping.target = kind := by
  have flat : ∀ index : NamedIndex W, index.targets = index.mappings.map Mapping.target :=
    fun index => (List.map_flatMap ..).symm
  simp only [flat, List.mem_map, mem_mappings_read]

end NamedIndex

namespace ImplicitIndex

/-- The mappings that can be taken without a call. -/
def mappings (index : ImplicitIndex W) : List (Mapping W) :=
  index.bySource.flatMap Prod.snd

theorem mem_mappings_absorb (index : ImplicitIndex W) (added mapping : Mapping W) :
    mapping ∈ mappings (Indexes.absorb index added) ↔
      mapping ∈ index.mappings ∨ mapping = added ∧ added.implicit = true := by
  cases free : added.implicit with
  | false => simp [Indexes.absorb, free]
  | true =>
    have puts : ∀ held item, item ∈ added :: held ↔ item ∈ held ∨ item = added := by
      simp [or_comm]
    simp only [Indexes.absorb, free, if_true, and_true]
    exact Table.mem_flatMap_update puts index.bySource added.source mapping

theorem mem_mappings_read (store : Store W) (layers : List LayerId) (mapping : Mapping W) :
    mapping ∈ mappings ((Index.ofLayers layers : Index (ImplicitIndex W)).read store) ↔
      mapping ∈ store.mappings layers ∧ mapping.implicit = true := by
  have view : (Index.ofLayers layers : Index (ImplicitIndex W)).read store =
      (store.mappings layers).foldl Indexes.absorb ⟨[]⟩ := Index.read_ofLayers store layers
  rw [view, mem_foldl_absorb mappings mem_mappings_absorb]
  exact or_iff_right List.not_mem_nil

theorem mem_targets_read (store : Store W) (layers : List LayerId) (kind : Kind) :
    kind ∈ ((Index.ofLayers layers : Index (ImplicitIndex W)).read store).targets ↔
      ∃ mapping ∈ store.mappings layers, mapping.implicit = true ∧ mapping.target = kind := by
  have flat : ∀ index : ImplicitIndex W, index.targets = index.mappings.map Mapping.target :=
    fun index => (List.map_flatMap ..).symm
  simp only [flat, List.mem_map, mem_mappings_read, and_assoc]

end ImplicitIndex

namespace Query

theorem mem_spots {query : Query W} {spot : Spot} :
    spot ∈ query.spots ↔ spot.1 ≤ query.calls.length ∧ (spot.2 = query.start ∨
      spot.2 ∈ query.directory.named.targets ∨ spot.2 ∈ query.directory.implicits.targets) := by
  obtain ⟨consumed, kind⟩ := spot
  simp only [spots, kinds, List.mem_flatMap, List.mem_range, List.mem_map, List.mem_eraseDups,
    List.mem_cons, List.mem_append, Prod.mk.injEq, Nat.lt_succ_iff]
  constructor
  · rintro ⟨_, within, _, known, rfl, rfl⟩
    exact ⟨within, known⟩
  · rintro ⟨within, known⟩
    exact ⟨consumed, within, kind, known, rfl, rfl⟩

/-- The search for paths ends, whatever is registered, and the paths that are given are those of its
end. On the way to it no spot is expanded twice, and each turn decreases what is left: it ends the
search; or it drops a state at a spot that has been expanded, and adds none; or it expands a new
spot, of which there are finitely many, and adds some of its finitely many successors. So there are
no more turns than hops on offer, and one. -/
theorem search_ends (store : Store W) (named implicits displays : List LayerId)
    (calls : List Name) (start : Kind) (accepts : Kind → Bool) :
    let query : Query W := ⟨.ofLayers store named implicits displays, calls, start, accepts⟩
    (∃ turns expanded last, Frontier.Arises query turns expanded last ∧
      last.step query = none ∧
      query.paths = last.found.mergeSort fun a b => a.cost.le b.cost) ∧
    ∀ turns expanded frontier, Frontier.Arises query turns expanded frontier →
      expanded.Nodup ∧
      (∀ spot ∈ expanded, spot ∈ query.spots) ∧
      (∀ spot, spot ∈ query.spots ↔ spot.1 ≤ calls.length ∧ (spot.2 = start ∨
        (∃ mapping ∈ store.mappings named, mapping.target = spot.2) ∨
        ∃ mapping ∈ store.mappings implicits, mapping.implicit = true ∧ mapping.target = spot.2)) ∧
      frontier.Turn query expanded (frontier.step query) ∧
      (∀ reach ∈ frontier.pending.head?, ∀ next ∈ frontier.step query,
        Prod.Lex (· < ·) (· < ·) (next.left query (expanded.insert reach.spot))
          (frontier.left query expanded)) ∧
      turns ≤ 1 + (query.spots.map fun spot => (query.hopsFrom spot).length).sum := by
  intro query
  refine ⟨?_, fun turns expanded frontier arises => ?_⟩
  · obtain ⟨turns, expanded, arises, stopped⟩ := (@Frontier.Arises.start W query).run
    exact ⟨turns, expanded, _, arises, stopped, rfl⟩
  · have surveyed := arises.isSurveyed
    refine ⟨surveyed.distinct, surveyed.known, fun spot => ?_, surveyed.takes_turn,
      fun reach first next taken => ?_, surveyed.spent_le⟩
    · rw [mem_spots, ← NamedIndex.mem_targets_read, ← ImplicitIndex.mem_targets_read]
      exact Iff.rfl
    · obtain ⟨pending, waiting⟩ := List.head?_eq_some_iff.mp first
      rw [← (surveyed.turn waiting taken).remaining_eq, ← surveyed.remaining_eq]
      exact Frontier.remaining_step taken

end Query

end TypedTemplate
