import TypedTemplate.Proofs.Path.Search

/-!
The search misses no way. Whatever a directory offers from an expanded spot leads to a spot
that has been expanded or waits (`Frontier.Explores`), so a search that ends without a path
has closed the spots under all hops, and none of them ends one. Nothing is assumed of the
directory here: its indices may be over different layers.
-/
namespace TypedTemplate

variable {W : Type}

theorem ImplicitIndex.mem_targets {index : ImplicitIndex W} {source : Kind} {mapping : Mapping W}
    (member : mapping ∈ index.get source) : mapping.target ∈ index.targets := by
  rw [get] at member
  cases found : Table.find? index.bySource source with
  | none => simp [found] at member
  | some mappings =>
    rw [found] at member
    exact List.mem_flatMap.mpr
      ⟨(source, mappings), Table.mem_of_find? found, List.mem_map_of_mem member⟩

/-! ## Trails -/

namespace Query

section Trails

variable (query : Query W)

/-- A hop that the directory offers, from a spot to another. -/
inductive Offers : Spot → Hop W → Spot → Prop
  | named {consumed : Nat} {kind : Kind} {call : Name} {found : Scored W}
      (next : query.calls[consumed]? = some call)
      (known : found ∈ query.directory.named.find kind call) :
      Offers (consumed, kind) ⟨found.mapping, some consumed⟩ (consumed + 1, found.mapping.target)
  | implicit {consumed : Nat} {kind : Kind} {mapping : Mapping W}
      (known : mapping ∈ query.directory.implicits.get kind) :
      Offers (consumed, kind) ⟨mapping, none⟩ (consumed, mapping.target)

/-- Hops to take one after another, from a spot to another. -/
inductive Trail : Spot → List (Hop W) → Spot → Prop
  | nil (spot : Spot) : Trail spot [] spot
  | cons {spot middle last : Spot} {hop : Hop W} {hops : List (Hop W)}
      (first : query.Offers spot hop middle) (rest : Trail middle hops last) :
      Trail spot (hop :: hops) last

end Trails

variable {query : Query W}

theorem Trail.snoc {spot middle last : Spot} {hops : List (Hop W)} {hop : Hop W}
    (trail : query.Trail spot hops middle) (next : query.Offers middle hop last) :
    query.Trail spot (hops ++ [hop]) last := by
  induction trail with
  | nil spot => exact .cons next (.nil last)
  | cons first _ ih => exact .cons first (ih next)

theorem offers_of_mem_successors {reach next : Reach W} (member : next ∈ query.successors reach) :
    ∃ hop, query.Offers reach.spot hop next.spot ∧ next.hops = hop :: reach.hops := by
  rw [successors, List.mem_append] at member
  rcases member with named | implicit
  · split at named
    · rename_i call found
      obtain ⟨scored, known, rfl⟩ := List.mem_map.mp named
      exact ⟨_, .named found known, rfl⟩
    · cases named
  · obtain ⟨mapping, known, rfl⟩ := List.mem_map.mp implicit
    exact ⟨_, .implicit known, rfl⟩

theorem exists_successor {reach : Reach W} {hop : Hop W} {spot : Spot}
    (offers : query.Offers reach.spot hop spot) :
    ∃ next ∈ query.successors reach, next.spot = spot := by
  obtain ⟨consumed, kind, hops, cost⟩ := reach
  rw [Reach.spot] at offers
  cases offers with
  | @named _ _ call found next known =>
    refine ⟨Reach.consume ⟨consumed, kind, hops, cost⟩ found, ?_, rfl⟩
    rw [successors, next]
    exact List.mem_append_left _ (List.mem_map_of_mem known)
  | @implicit _ _ mapping known =>
    refine ⟨Reach.follow ⟨consumed, kind, hops, cost⟩ mapping, ?_, rfl⟩
    exact List.mem_append_right _ (List.mem_map_of_mem known)

theorem mem_spots_of_offers {spot next : Spot} {hop : Hop W} (member : spot ∈ query.spots)
    (offers : query.Offers spot hop next) : next ∈ query.spots := by
  simp only [spots, List.mem_flatMap, List.mem_map, List.mem_range] at member ⊢
  obtain ⟨consumed, within, kind, -, rfl⟩ := member
  cases offers with
  | @named _ _ call found next known =>
    have more := (List.getElem?_eq_some_iff.mp next).1
    have target := NamedIndex.mem_targets ((NamedIndex.mem_find _ _ _ found).mp known).1
    exact ⟨_, Nat.succ_lt_succ more, _, by simp [kinds, target], rfl⟩
  | @implicit _ _ mapping known =>
    have target := ImplicitIndex.mem_targets known
    exact ⟨_, within, _, by simp [kinds, target], rfl⟩

theorem start_mem_spots (query : Query W) : (0, query.start) ∈ query.spots :=
  List.mem_flatMap.mpr ⟨0, by simp, List.mem_map_of_mem (by simp [kinds])⟩

end Query

/-! ## What is found -/

namespace Frontier

variable {query : Query W} {frontier next : Frontier W} {reach : Reach W}
  {pending : List (Reach W)}

/-- Whether a search has come to all its states and paths along trails from the start. -/
structure IsTraced (query : Query W) (frontier : Frontier W) : Prop where
  pending : ∀ reach ∈ frontier.pending, reach.spot ∈ query.spots ∧
    query.Trail (0, query.start) reach.hops.reverse reach.spot
  found : ∀ path ∈ frontier.found, query.EndsAt (query.calls.length, path.tail) ∧
    query.Trail (0, query.start) path.hops (query.calls.length, path.tail)

theorem isTraced_initial (query : Query W) : (initial query).IsTraced query := by
  refine ⟨fun reach member => ?_, nofun⟩
  cases List.mem_singleton.mp member
  exact ⟨query.start_mem_spots, .nil _⟩

theorem IsTraced.expand (traced : frontier.IsTraced query)
    (waiting : frontier.pending = reach :: pending) :
    (frontier.expand query reach pending).IsTraced query := by
  obtain ⟨inside, here⟩ := traced.pending reach (by rw [waiting]; exact List.mem_cons_self)
  have onward : ∀ later ∈ query.successors reach, later.spot ∈ query.spots ∧
      query.Trail (0, query.start) later.hops.reverse later.spot := by
    intro later successor
    obtain ⟨hop, offers, recorded⟩ := Query.offers_of_mem_successors successor
    rw [recorded, List.reverse_cons]
    exact ⟨Query.mem_spots_of_offers inside offers, here.snoc offers⟩
  refine ⟨fun later member => ?_, fun path member => ?_⟩
  · rcases mem_pending_expand.mp member with old | ⟨successor, -, -⟩
    · exact traced.pending later (by rw [waiting]; exact List.mem_cons_of_mem _ old)
    · exact onward later successor
  · rcases mem_found_expand.mp member with old | ⟨later, successor, complete, rfl⟩
    · exact traced.found path old
    · have ends := Query.endsAt_of_isComplete complete
      have last : later.spot = (query.calls.length, later.kind) := Prod.ext ends.1 rfl
      rw [last] at ends
      exact ⟨ends, last ▸ (onward later successor).2⟩

theorem IsTraced.step (traced : frontier.IsTraced query)
    (taken : frontier.step query = some next) : next.IsTraced query := by
  unfold Frontier.step at taken
  split at taken
  · cases taken
  · rename_i reach pending waiting
    split at taken
    · cases taken
    · split at taken
      · cases taken
        exact traced.expand waiting
      · cases taken
        exact ⟨fun other member =>
          traced.pending other (by rw [waiting]; exact List.mem_cons_of_mem _ member), traced.found⟩

/-! ## What is not missed -/

/-- Whether a spot has been expanded or a state waits there. -/
def Knows (frontier : Frontier W) (spot : Spot) : Prop :=
  spot ∉ frontier.fresh ∨ ∃ reach ∈ frontier.pending, reach.spot = spot

/-- Whether every hop from an expanded spot leads to a spot that is known and ends no path. -/
structure Explores (query : Query W) (frontier : Frontier W) : Prop where
  start : frontier.Knows (0, query.start)
  closed : ∀ spot ∈ query.spots, spot ∉ frontier.fresh → ∀ hop next, query.Offers spot hop next →
    ¬ query.EndsAt next ∧ frontier.Knows next

theorem explores_initial (query : Query W) : (initial query).Explores query :=
  ⟨.inr ⟨.start query.start, List.mem_singleton_self _, rfl⟩,
    fun _ inside outside => absurd inside outside⟩

theorem Knows.skip {spot : Spot} (knows : frontier.Knows spot)
    (waiting : frontier.pending = reach :: pending) (expanded : reach.spot ∉ frontier.fresh) :
    Knows { frontier with pending } spot := by
  rcases knows with closed | ⟨other, member, rfl⟩
  · exact .inl closed
  · rw [waiting] at member
    rcases List.mem_cons.mp member with rfl | later
    · exact .inl expanded
    · exact .inr ⟨other, later, rfl⟩

theorem Knows.expand {spot : Spot} (knows : frontier.Knows spot)
    (waiting : frontier.pending = reach :: pending) :
    (frontier.expand query reach pending).Knows spot := by
  rcases knows with closed | ⟨other, member, rfl⟩
  · exact .inl fun fresh => closed (mem_fresh_expand.mp fresh).1
  · rw [waiting] at member
    rcases List.mem_cons.mp member with rfl | later
    · exact .inl fun fresh => (mem_fresh_expand.mp fresh).2 rfl
    · exact .inr ⟨other, mem_pending_expand.mpr (.inl later), rfl⟩

/-- Expanding a state finds a path or makes known where the hops from its spot lead. -/
theorem Explores.expand (explores : frontier.Explores query)
    (waiting : frontier.pending = reach :: pending) :
    (frontier.expand query reach pending).found ≠ [] ∨
      (frontier.expand query reach pending).Explores query := by
  by_cases ending : ∃ later ∈ query.successors reach, query.isComplete later = true
  · obtain ⟨later, successor, complete⟩ := ending
    exact .inl (List.ne_nil_of_mem (mem_found_expand.mpr (.inr ⟨later, successor, complete, rfl⟩)))
  · refine .inr ⟨explores.start.expand waiting, fun spot inside outside hop next offers => ?_⟩
    by_cases here : spot = reach.spot
    · subst here
      obtain ⟨later, successor, rfl⟩ := Query.exists_successor offers
      have unfinished : query.isComplete later = false := by
        cases complete : query.isComplete later with
        | false => rfl
        | true => exact absurd ⟨later, successor, complete⟩ ending
      refine ⟨fun ends => ?_, ?_⟩
      · rw [Query.isComplete_of_endsAt ends] at unfinished
        cases unfinished
      · by_cases fresh : later.spot ∈ (frontier.expand query reach pending).fresh
        · exact .inr ⟨later, mem_pending_expand.mpr (.inr ⟨successor, unfinished, fresh⟩), rfl⟩
        · exact .inl fresh
    · have closed : spot ∉ frontier.fresh :=
        fun fresh => outside (mem_fresh_expand.mpr ⟨fresh, here⟩)
      obtain ⟨unfinished, knows⟩ := explores.closed spot inside closed hop next offers
      exact ⟨unfinished, knows.expand waiting⟩

theorem Explores.step (explores : frontier.Explores query)
    (taken : frontier.step query = some next) : next.found ≠ [] ∨ next.Explores query := by
  unfold Frontier.step at taken
  split at taken
  · cases taken
  · rename_i reach pending waiting
    split at taken
    · cases taken
    · split at taken
      · cases taken
        exact explores.expand waiting
      · rename_i stale
        have expanded : reach.spot ∉ frontier.fresh := by simpa using stale
        cases taken
        refine .inr ⟨explores.start.skip waiting expanded, ?_⟩
        intro spot inside outside hop next offers
        obtain ⟨unfinished, knows⟩ := explores.closed spot inside outside hop next offers
        exact ⟨unfinished, knows.skip waiting expanded⟩

theorem found_ne_nil_step (taken : frontier.step query = some next)
    (found : frontier.found ≠ []) : next.found ≠ [] := by
  obtain ⟨path, member⟩ := List.exists_mem_of_ne_nil _ found
  unfold Frontier.step at taken
  split at taken
  · cases taken
  · split at taken
    · cases taken
    · split at taken
      · cases taken
        exact List.ne_nil_of_mem (mem_found_expand.mpr (.inl member))
      · cases taken
        exact found

/-- A search that ends without a path has no states left to look at. -/
theorem pending_eq_nil (stopped : frontier.step query = none) (none : frontier.found = []) :
    frontier.pending = [] := by
  unfold Frontier.step at stopped
  split at stopped
  · assumption
  · rw [isSettledBy, none] at stopped
    simp only [List.any_nil, Bool.false_eq_true, if_false] at stopped
    split at stopped <;> cases stopped

/-- A whole search finds only what can be reached, and finds something if anything can. -/
theorem run_spec (traced : frontier.IsTraced query)
    (explores : frontier.found ≠ [] ∨ frontier.Explores query) :
    (frontier.run query).IsTraced query ∧
      ((frontier.run query).found ≠ [] ∨
        (frontier.run query).Explores query ∧ (frontier.run query).pending = []) := by
  fun_induction Frontier.run query frontier with
  | case1 frontier stopped =>
    refine ⟨traced, ?_⟩
    by_cases none : frontier.found = []
    · exact .inr ⟨explores.resolve_left (not_not_intro none), pending_eq_nil stopped none⟩
    · exact .inl none
  | case2 frontier next taken ih =>
    refine ih (traced.step taken) ?_
    rcases explores with found | explores
    · exact .inl (found_ne_nil_step taken found)
    · exact explores.step taken

/-- From known spots no path ends when nothing waits any more. -/
theorem Explores.not_endsAt (explores : frontier.Explores query) (empty : frontier.pending = [])
    {spot last : Spot} {hops : List (Hop W)} (trail : query.Trail spot hops last)
    (inside : spot ∈ query.spots) (knows : frontier.Knows spot) (nonempty : hops ≠ []) :
    ¬ query.EndsAt last := by
  induction trail with
  | nil spot => exact absurd rfl nonempty
  | @cons spot middle last hop hops first rest ih =>
    have expanded : spot ∉ frontier.fresh := by
      rcases knows with closed | ⟨reach, member, -⟩
      · exact closed
      · rw [empty] at member
        cases member
    obtain ⟨unfinished, onward⟩ := explores.closed spot inside expanded hop middle first
    cases rest with
    | nil spot => exact unfinished
    | cons next rest =>
      exact ih (Query.mem_spots_of_offers inside first) onward (by simp)

end Frontier

/-- Each path that is given records a trail from the start to an accepted kind. -/
theorem Query.trail_of_mem_paths {query : Query W} {path : Path W} (given : path ∈ query.paths) :
    query.Trail (0, query.start) path.hops (query.calls.length, path.tail) ∧
      query.accepts path.tail = true := by
  have traced := (Frontier.run_spec (Frontier.isTraced_initial query)
    (.inr (Frontier.explores_initial query))).1
  obtain ⟨ends, trail⟩ := traced.found path (mem_paths.mp given)
  exact ⟨trail, ends.2⟩

/-- If no path is given, there is no trail, except to stay at the start. -/
theorem Query.not_trail_of_paths_eq_nil {query : Query W} (none : query.paths = [])
    {hops : List (Hop W)} {tail : Kind} (nonempty : hops ≠ [])
    (trail : query.Trail (0, query.start) hops (query.calls.length, tail)) :
    query.accepts tail = false := by
  have nothing : ((Frontier.initial query).run query).found = [] :=
    List.eq_nil_iff_forall_not_mem.mpr fun path member => by
      have given := mem_paths.mpr member
      rw [none] at given
      cases given
  obtain ⟨-, found | ⟨explores, empty⟩⟩ := Frontier.run_spec (Frontier.isTraced_initial query)
    (.inr (Frontier.explores_initial query))
  · exact absurd nothing found
  · cases accepted : query.accepts tail with
    | false => rfl
    | true =>
      exact absurd ⟨rfl, accepted⟩
        (explores.not_endsAt empty trail query.start_mem_spots explores.start nonempty)

end TypedTemplate
