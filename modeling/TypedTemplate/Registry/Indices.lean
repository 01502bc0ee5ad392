import TypedTemplate.Registry.Lookup

/-!
All indices over an ordered list of layers, and the part of them that templates are
resolved against.
-/
namespace TypedTemplate

variable {W : Type}

/-- Everything that a template is resolved against, as it is at one moment. -/
structure Directory (W : Type) where
  named : NamedIndex W
  implicits : ImplicitIndex W
  displays : DisplayIndex W

/-- The indices over an ordered list of layers. Where an index keeps one entry for a
key, later layers override earlier ones. -/
structure Indices (W : Type) where
  layers : List LayerId
  named : Index (NamedIndex W)
  implicits : Index (ImplicitIndex W)
  displays : Index (DisplayIndex W)
  hints : Index (HintIndex W)
  helps : Index (HelpIndex W)

namespace Indices

def ofLayers (layers : List LayerId) : Indices W :=
  ⟨layers, .ofLayers layers, .ofLayers layers, .ofLayers layers, .ofLayers layers, .ofLayers layers⟩

/-- Brings the indices that resolution needs up to date. -/
def sync (store : Store W) (indices : Indices W) : Indices W :=
  { indices with
    named := indices.named.sync store
    implicits := indices.implicits.sync store
    displays := indices.displays.sync store }

/-- Brings the index of representations up to date. -/
def syncHints (store : Store W) (indices : Indices W) : Indices W :=
  { indices with hints := indices.hints.sync store }

/-- What the indices show now. -/
def directory (store : Store W) (indices : Indices W) : Directory W :=
  ⟨indices.named.read store, indices.implicits.read store, indices.displays.read store⟩

end Indices

end TypedTemplate
