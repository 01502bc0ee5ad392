import TypedTemplate.Path

/-!
The search for the cheapest path. States are expanded from the cheapest on, and among
equally cheap ones in the order in which they were reached. A state stands at a kind
with some calls consumed; only the first state at each such spot is expanded, so the
search ends when the spots that are still fresh have run out. A path is found when a
successor has consumed all calls in an accepted kind; the search stops when no pending
state is cheaper than a path that has been found.
-/
namespace TypedTemplate

variable {W : Type}

/-- A way from the starting kind that may go on, its newest hop first. -/
structure Reach (W : Type) where
  /-- How many calls are consumed. -/
  consumed : Nat
  kind : Kind
  hops : List (Hop W)
  cost : Cost

namespace Reach

def start (kind : Kind) : Reach W := ⟨0, kind, [], .zero⟩

/-- Where the state stands, apart from how it came there. -/
def spot (reach : Reach W) : Nat × Kind := (reach.consumed, reach.kind)

/-- Goes through a mapping that the next call means. -/
def consume (reach : Reach W) (found : Scored W) : Reach W :=
  ⟨reach.consumed + 1, found.mapping.target, ⟨found.mapping, some reach.consumed⟩ :: reach.hops,
    reach.cost.addHop found.score⟩

/-- Goes through an implicit mapping. -/
def follow (reach : Reach W) (mapping : Mapping W) : Reach W :=
  ⟨reach.consumed, mapping.target, ⟨mapping, none⟩ :: reach.hops, reach.cost.addHop 0⟩

def path (reach : Reach W) : Path W := ⟨reach.hops.reverse, reach.kind, reach.cost⟩

end Reach

/-- What is searched for: a path through the mappings of a directory that consumes the
calls and leads from the start to an accepted kind. -/
structure Query (W : Type) where
  directory : Directory W
  calls : List Name
  start : Kind
  accepts : Kind → Bool

/-- A search under way. -/
structure Frontier (W : Type) where
  /-- The spots from which no state has been expanded yet. -/
  fresh : List (Nat × Kind)
  /-- The states that have been reached, in the order in which they are looked at. -/
  pending : List (Reach W)
  /-- The paths that have been found, in that order. -/
  found : List (Path W)

namespace Query

/-- The states that one hop leads to, those that consume a call first. -/
def successors (query : Query W) (reach : Reach W) : List (Reach W) :=
  let named := match query.calls[reach.consumed]? with
    | some call => (query.directory.named.find reach.kind call).map reach.consume
    | none => []
  named ++ (query.directory.implicits.get reach.kind).map reach.follow

/-- Whether a state that has been reached by a hop ends a path. -/
def isComplete (query : Query W) (reach : Reach W) : Bool :=
  decide (reach.consumed = query.calls.length) && query.accepts reach.kind

/-- The kinds where a path can stand. -/
def kinds (query : Query W) : List Kind :=
  (query.start :: (query.directory.named.targets ++ query.directory.implicits.targets)).eraseDups

/-- Every number of consumed calls with every kind. -/
def spots (query : Query W) : List (Nat × Kind) :=
  (List.range (query.calls.length + 1)).flatMap fun consumed =>
    query.kinds.map fun kind => (consumed, kind)

end Query

/-- Puts a state behind all that cost no more. -/
def enqueue (pending : List (Reach W)) (reach : Reach W) : List (Reach W) :=
  match pending with
  | [] => [reach]
  | first :: rest =>
    if first.cost.le reach.cost then first :: enqueue rest reach else reach :: first :: rest

/-- The spots that stay fresh when one is expanded. -/
def settle (fresh : List (Nat × Kind)) (spot : Nat × Kind) : List (Nat × Kind) :=
  fresh.filter (· != spot)

theorem length_settle_lt {fresh : List (Nat × Kind)} {spot : Nat × Kind}
    (h : fresh.contains spot = true) : (settle fresh spot).length < fresh.length := by
  have member : spot ∈ fresh := by simpa using h
  exact List.length_filter_lt_length_iff_exists.mpr ⟨spot, member, by simp⟩

namespace Frontier

def initial (query : Query W) : Frontier W := ⟨query.spots, [.start query.start], []⟩

/-- Whether no pending state from this one on can lead to a cheaper path. -/
def isSettledBy (frontier : Frontier W) (reach : Reach W) : Bool :=
  frontier.found.any fun path => path.cost.le reach.cost

/-- Replaces a pending state by its successors. Those that end a path are found, the
others wait unless a state on their spot has been expanded. -/
def expand (query : Query W) (frontier : Frontier W) (reach : Reach W)
    (pending : List (Reach W)) : Frontier W :=
  let fresh := settle frontier.fresh reach.spot
  let (complete, others) := (query.successors reach).partition query.isComplete
  { fresh
    pending := (others.filter fun other => fresh.contains other.spot).foldl enqueue pending
    found := frontier.found ++ complete.map Reach.path }

/-- Looks at the first pending state. The search ends if there is none or if no cheaper
path can come of those that are left. -/
def step (query : Query W) (frontier : Frontier W) : Option (Frontier W) :=
  match frontier.pending with
  | [] => none
  | reach :: pending =>
    if frontier.isSettledBy reach then none
    else if frontier.fresh.contains reach.spot then some (frontier.expand query reach pending)
    else some { frontier with pending }

/-- Fresh spots run out before pending states do. -/
def remaining (frontier : Frontier W) : Nat × Nat :=
  (frontier.fresh.length, frontier.pending.length)

theorem remaining_step {query : Query W} {frontier next : Frontier W}
    (h : frontier.step query = some next) :
    Prod.Lex (· < ·) (· < ·) next.remaining frontier.remaining := by
  unfold step at h
  split at h
  · cases h
  · rename_i reach pending waiting
    split at h
    · cases h
    · split at h
      · rename_i fresh
        cases h
        exact .left _ _ (length_settle_lt fresh)
      · cases h
        rw [remaining, remaining, waiting]
        exact .right _ (Nat.lt_succ_self _)

/-- Takes steps until the search ends. -/
def run (query : Query W) (frontier : Frontier W) : Frontier W :=
  match _taken : frontier.step query with
  | none => frontier
  | some next => run query next
termination_by frontier.remaining
decreasing_by exact remaining_step (by assumption)

end Frontier

/-- Paths that answer the query. The first is the cheapest, of several the one reached
first; the others are costlier ones that the search came by. -/
def Query.paths (query : Query W) : List (Path W) :=
  ((Frontier.initial query).run query).found.mergeSort fun a b => a.cost.le b.cost

end TypedTemplate
