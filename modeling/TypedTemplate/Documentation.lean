import TypedTemplate.Registry
import TypedTemplate.Table

/-!
Documentation of registered kinds and mappings, for tools that offer them to authors of
templates.
-/
namespace TypedTemplate

structure KindDoc where
  shortName : Option String := none
  help : Option String := none
  canDisplay : Bool := false
  deriving DecidableEq, Repr

structure MappingDoc where
  name : String
  sourceKind : String
  targetKind : String
  isImplicit : Bool
  parameters : List Parameter
  mutable : Bool
  help : String
  metadata : Metadata

/-- What some layers hold. A kind is listed if it has help or a display. -/
structure Documentation where
  /-- The kinds by label, in the order of their labels. -/
  kinds : List (String × KindDoc)
  mappings : List MappingDoc

namespace KindDoc

/-- The documentation with what the help says; it leaves alone what it does not say. -/
def addHelp (doc : KindDoc) (help : KindHelp) : KindDoc :=
  { doc with shortName := help.shortName.or doc.shortName, help := help.help.or doc.help }

def toJson (doc : KindDoc) : Json :=
  let optional (name : String) : Option String → List (String × Json)
    | none => []
    | some text => [(name, .text text)]
  .object (optional "shortName" doc.shortName ++ optional "help" doc.help
    ++ [("canDisplay", .bool doc.canDisplay)])

end KindDoc

def Parameter.toJson (p : Parameter) : Json :=
  .object [("name", .text p.name), ("kind", .text p.kind.label),
    ("variadic", .bool p.variadic), ("optional", .bool p.optional)]

namespace MappingDoc

def ofMapping {W : Type} (m : Mapping W) : MappingDoc where
  name := m.name.toString
  sourceKind := m.source.label
  targetKind := m.target.label
  isImplicit := m.implicit
  parameters := m.parameters
  mutable := m.isMutable
  help := m.help
  metadata := m.metadata

def toJson (doc : MappingDoc) : Json :=
  let metadata := if doc.metadata.isEmpty then [] else [("metadata", .object doc.metadata)]
  .object ([("name", .text doc.name), ("sourceKind", .text doc.sourceKind),
    ("targetKind", .text doc.targetKind), ("isImplicit", .bool doc.isImplicit),
    ("parameters", .list (doc.parameters.map Parameter.toJson)),
    ("mutable", .bool doc.mutable), ("help", .text doc.help)] ++ metadata)

end MappingDoc

namespace Documentation

variable {W : Type}

/-- Kinds with what a layer says about them. -/
def addLayer (kinds : Table String KindDoc) (layer : Layer W) : Table String KindDoc :=
  let helped := layer.helps.items.foldl (fun kinds help =>
    Table.update kinds help.kind.label fun doc => (doc.getD {}).addHelp help) kinds
  layer.displays.items.foldl (fun kinds display =>
    Table.update kinds display.kind.label fun doc => { doc.getD {} with canDisplay := true }) helped

/-- The documentation of layers, where later ones complete and override earlier ones. -/
def ofLayers (layers : List (Layer W)) : Documentation where
  kinds := (layers.foldl addLayer []).mergeSort fun a b => decide (a.1 ≤ b.1)
  mappings := layers.flatMap fun layer => layer.mappings.items.map MappingDoc.ofMapping

def toJson (doc : Documentation) : Json :=
  .object [("kinds", .object (doc.kinds.map fun (label, kind) => (label, kind.toJson))),
    ("mappings", .list (doc.mappings.map MappingDoc.toJson))]

end Documentation

end TypedTemplate
