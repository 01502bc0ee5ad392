import TypedTemplate.Descriptor

/-!
Registries. A registry only grows, and its generation counts the appends. A layer
has one registry for each sort of descriptor; a mapping enters it only if its name
can be written in a template, it is callable without arguments where it is implicit,
and no mapping from its kind has its name. Layers are shared by all that know their
number in the store.
-/
namespace TypedTemplate

/-- An append-only list. -/
structure Registry (α : Type) where
  items : List α
  generation : Nat

namespace Registry

variable {α : Type}

def empty : Registry α := ⟨[], 0⟩

def register (registry : Registry α) (item : α) : Registry α :=
  ⟨registry.items ++ [item], registry.generation + 1⟩

/-- Appends the item unless the check refuses it beside the current items. -/
def registerChecked {ε : Type} (registry : Registry α) (item : α)
    (check : List α → α → Except ε Unit) : Except ε (Registry α) :=
  match check registry.items item with
  | .ok () => .ok (registry.register item)
  | .error e => .error e

end Registry

inductive RegistryError where
  | emptyName (source : Kind)
  | invalidToken (name : Name) (token : String)
  | reservedToken (name : Name) (token : String)
  | implicitWithParameters (name : Name)
  | duplicate (name : Name) (source : Kind)
  deriving DecidableEq, Repr

def RegistryError.message : RegistryError → String
  | emptyName source => "mapping from " ++ source.label ++ " has an empty name"
  | invalidToken name token =>
    "invalid token " ++ quoted token ++ " in mapping name " ++ name.toString
  | reservedToken name token =>
    "reserved token " ++ quoted token ++ " in mapping name " ++ name.toString
  | implicitWithParameters name =>
    "implicit mapping " ++ name.toString ++ " must not declare parameters"
  | duplicate name source => "duplicate mapping " ++ name.toString ++ " from " ++ source.label

namespace Name

/-- Checks the tokens one by one: each must be a name token that reads as a name. -/
def checkTokens (name : Name) : List String → Except RegistryError Unit
  | [] => .ok ()
  | token :: tokens =>
    if !isNameToken token then .error (.invalidToken name token)
    else if !isIdent token then .error (.reservedToken name token)
    else name.checkTokens tokens

end Name

namespace Mapping

variable {W : Type}

/-- The rules that a mapping has to keep by itself. -/
def validate (mapping : Mapping W) : Except RegistryError Unit :=
  if mapping.name.tokens.isEmpty then .error (.emptyName mapping.source)
  else
    match mapping.name.checkTokens mapping.name.tokens with
    | .error e => .error e
    | .ok () =>
      if mapping.implicit && !mapping.parameters.isEmpty then
        .error (.implicitWithParameters mapping.name)
      else .ok ()

/-- Whether both mappings have the same name and start from the same kind. -/
def clashes (mapping other : Mapping W) : Bool :=
  decide (other.source = mapping.source) && decide (other.name = mapping.name)

/-- Refuses a mapping that clashes with one that is there. -/
def checkUnique (existing : List (Mapping W)) (mapping : Mapping W) : Except RegistryError Unit :=
  if existing.any mapping.clashes then .error (.duplicate mapping.name mapping.source) else .ok ()

end Mapping

/-- One set of registries. -/
structure Layer (W : Type) where
  helps : Registry KindHelp
  displays : Registry (Display W)
  mappings : Registry (Mapping W)
  hints : Registry TypeHint

namespace Layer

variable {W : Type}

def empty : Layer W := ⟨.empty, .empty, .empty, .empty⟩

def registerMapping (layer : Layer W) (mapping : Mapping W) : Except RegistryError (Layer W) :=
  match mapping.validate with
  | .error e => .error e
  | .ok () =>
    match layer.mappings.registerChecked mapping Mapping.checkUnique with
    | .error e => .error e
    | .ok mappings => .ok { layer with mappings }

/-- Registers the mappings in order, up to the first that is refused. -/
def registerMappings (layer : Layer W) (mappings : List (Mapping W)) :
    Except RegistryError (Layer W) :=
  mappings.foldlM registerMapping layer

def registerDisplay (layer : Layer W) (display : Display W) : Layer W :=
  { layer with displays := layer.displays.register display }

def registerHint (layer : Layer W) (hint : TypeHint) : Layer W :=
  { layer with hints := layer.hints.register hint }

def registerHelp (layer : Layer W) (help : KindHelp) : Layer W :=
  { layer with helps := layer.helps.register help }

end Layer

/-- The number under which a layer is shared. -/
abbrev LayerId := Nat

/-- All layers. -/
structure Store (W : Type) where
  layers : List (Layer W)

namespace Store

variable {W : Type}

def empty : Store W := ⟨[]⟩

/-- The layer with a number, empty for a number not given out. -/
def layer (store : Store W) (id : LayerId) : Layer W := store.layers[id]?.getD .empty

/-- Shares a layer under a new number. -/
def add (store : Store W) (layer : Layer W) : LayerId × Store W :=
  (store.layers.length, ⟨store.layers ++ [layer]⟩)

def set (store : Store W) (id : LayerId) (layer : Layer W) : Store W :=
  ⟨store.layers.set id layer⟩

end Store

end TypedTemplate
