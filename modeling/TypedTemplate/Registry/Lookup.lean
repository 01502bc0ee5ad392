import TypedTemplate.Registry.Index
import TypedTemplate.Table

/-!
What indices answer: mappings by source kind and reference, implicit mappings by source
kind, displays and help by kind, kinds by representation. Of several mappings all are
found; where one answer is asked for, the item registered last gives it.
-/
namespace TypedTemplate

variable {W : Type}

/-- Mappings by source kind and short name, in the order of registration. -/
structure NamedIndex (W : Type) where
  byName : Table (Kind × String) (List (Mapping W))

instance : Indexes (NamedIndex W) W (Mapping W) where
  registry := Layer.mappings
  empty := ⟨[]⟩
  absorb index mapping :=
    ⟨Table.update index.byName (mapping.source, mapping.name.short) fun old =>
      old.getD [] ++ [mapping]⟩

/-- A mapping with the number of name tokens that the reference left out. -/
structure Scored (W : Type) where
  mapping : Mapping W
  score : Nat

namespace NamedIndex

/-- The mappings from a kind that a reference may mean. -/
def find (index : NamedIndex W) (source : Kind) (reference : Name) : List (Scored W) :=
  ((Table.find? index.byName (source, reference.short)).getD []).filterMap fun mapping =>
    (mapping.name.skipped? reference).map (Scored.mk mapping)

/-- The kinds to which the mappings lead. -/
def targets (index : NamedIndex W) : List Kind :=
  index.byName.flatMap fun (_, mappings) => mappings.map Mapping.target

end NamedIndex

/-- Implicit mappings by source kind, the newest first. -/
structure ImplicitIndex (W : Type) where
  bySource : Table Kind (List (Mapping W))

instance : Indexes (ImplicitIndex W) W (Mapping W) where
  registry := Layer.mappings
  empty := ⟨[]⟩
  absorb index mapping :=
    if mapping.implicit then
      ⟨Table.update index.bySource mapping.source fun old => mapping :: old.getD []⟩
    else index

namespace ImplicitIndex

def get (index : ImplicitIndex W) (source : Kind) : List (Mapping W) :=
  (Table.find? index.bySource source).getD []

/-- The kinds to which the mappings lead. -/
def targets (index : ImplicitIndex W) : List Kind :=
  index.bySource.flatMap fun (_, mappings) => mappings.map Mapping.target

end ImplicitIndex

/-- The display of each kind, the one registered last. -/
structure DisplayIndex (W : Type) where
  byKind : Table Kind (Display W)

instance : Indexes (DisplayIndex W) W (Display W) where
  registry := Layer.displays
  empty := ⟨[]⟩
  absorb index display := ⟨Table.update index.byKind display.kind fun _ => display⟩

namespace DisplayIndex

def get? (index : DisplayIndex W) (kind : Kind) : Option (Display W) :=
  Table.find? index.byKind kind

def canDisplay (index : DisplayIndex W) (kind : Kind) : Bool := (index.get? kind).isSome

end DisplayIndex

/-- The kind of each representation, the one declared last. -/
structure HintIndex (W : Type) where
  byMarker : Table Marker Kind

instance : Indexes (HintIndex W) W TypeHint where
  registry := Layer.hints
  empty := ⟨[]⟩
  absorb index hint := ⟨Table.update index.byMarker hint.marker fun _ => hint.kind⟩

def HintIndex.get? (index : HintIndex W) (marker : Marker) : Option Kind :=
  Table.find? index.byMarker marker

/-- The help of each kind, the one registered last. -/
structure HelpIndex (W : Type) where
  byKind : Table Kind KindHelp

instance : Indexes (HelpIndex W) W KindHelp where
  registry := Layer.helps
  empty := ⟨[]⟩
  absorb index help := ⟨Table.update index.byKind help.kind fun _ => help⟩

namespace HelpIndex

def get? (index : HelpIndex W) (kind : Kind) : Option KindHelp := Table.find? index.byKind kind

def all (index : HelpIndex W) : List KindHelp := index.byKind.map (·.2)

end HelpIndex

end TypedTemplate
