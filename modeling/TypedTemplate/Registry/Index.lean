import TypedTemplate.Registry

/-!
Indices. An index answers questions about the items of some layers. It remembers the
generations it was built from and is rebuilt when it is read after one of them has
changed, so reading never shows less or more than the registries hold.
-/
namespace TypedTemplate

/-- What is built from the items of one sort of registry, one item after another. -/
class Indexes (β : Type) (W ι : outParam Type) where
  registry : Layer W → Registry ι
  empty : β
  absorb : β → ι → β

/-- A view of some layers together with the generations it was built from. -/
structure Index (β : Type) where
  sources : List LayerId
  synced : Option (List Nat)
  view : β

namespace Index

variable {β W ι : Type} [Indexes β W ι]

/-- An index over the layers that has not been built yet. -/
def ofLayers (sources : List LayerId) : Index β := ⟨sources, none, Indexes.empty⟩

/-- Adds a layer at a position, or at the end if the position is past it. -/
def insert (index : Index β) (position : Nat) (id : LayerId) : Index β :=
  { index with
    sources := index.sources.insertIdx (min position index.sources.length) id, synced := none }

def generations (store : Store W) (index : Index β) : List Nat :=
  index.sources.map fun id => (Indexes.registry β (store.layer id)).generation

/-- The view of all items, in the order of the layers and then of registration. -/
def build (store : Store W) (sources : List LayerId) : β :=
  sources.foldl (fun view id =>
    (Indexes.registry β (store.layer id)).items.foldl Indexes.absorb view) Indexes.empty

/-- Rebuilds the view if a registry has changed since it was built. -/
def sync (store : Store W) (index : Index β) : Index β :=
  let current := index.generations store
  if index.synced = some current then index
  else { index with synced := some current, view := build store index.sources }

/-- The view as it is now. -/
def read (store : Store W) (index : Index β) : β := (index.sync store).view

end Index

end TypedTemplate
