import TypedTemplate.Registry.Indices

/-!
Paths through the mappings. A path starts at a kind and consumes the calls of a chain
in order: a hop either uses a mapping that the next call may mean, or an implicit
mapping, which consumes no call. Paths with fewer hops are cheaper, and of those with
equally many hops the ones whose calls leave out fewer name tokens.
-/
namespace TypedTemplate

structure Cost where
  hops : Nat
  score : Nat
  deriving DecidableEq, Repr

namespace Cost

def zero : Cost := ⟨0, 0⟩

/-- The cost with one more hop. -/
def addHop (cost : Cost) (score : Nat) : Cost := ⟨cost.hops + 1, cost.score + score⟩

/-- Hops decide before scores. -/
def le (a b : Cost) : Bool :=
  decide (a.hops < b.hops) || (decide (a.hops = b.hops) && decide (a.score ≤ b.score))

end Cost

/-- One mapping of a path, with the position of the call that it consumes, if any. -/
structure Hop (W : Type) where
  mapping : Mapping W
  call : Option Nat

/-- A way from the starting kind to `tail`. -/
structure Path (W : Type) where
  hops : List (Hop W)
  tail : Kind
  cost : Cost

end TypedTemplate
