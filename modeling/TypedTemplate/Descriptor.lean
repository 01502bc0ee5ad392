import TypedTemplate.Json
import TypedTemplate.Name
import TypedTemplate.Value

/-!
What a host registers: mappings between kinds, displays, declarations of the kind
that a representation has, and help texts. Functions of a host may read the outside
state `W`; a mapping whose result can change lets callers watch it.
-/
namespace TypedTemplate

/-- What a display gives for a value that it cannot render. -/
def invalidText : String := "\x7binvalid value\x7d"

/-- What runs once when a change stream is cancelled: the name it is reported under,
and the message with which it fails, if it does. -/
structure CancelHook where
  label : String
  failure : Option String
  deriving DecidableEq, Repr

/-- The start of a change stream: the outside source that will feed it, the signals
that are waiting at once, whether no more can come, and the hook. -/
structure Subscription where
  source : Option String
  queued : Nat
  ended : Bool
  hook : Option CancelHook
  deriving DecidableEq, Repr

/-- Free annotations by key, in the order of the keys. -/
abbrev Metadata := List (String × Json)

/-- A parameter of a mapping. A variadic one takes all positional arguments that are
left, as a list. -/
structure Parameter where
  name : String
  kind : Kind
  variadic : Bool := false
  optional : Bool := false
  deriving DecidableEq, Repr

/-- A named conversion between kinds. -/
structure Mapping (W : Type) where
  name : Name
  source : Kind
  target : Kind
  /-- Whether a path may use it without its being called. -/
  implicit : Bool := false
  parameters : List Parameter := []
  /-- The result, if there is one. -/
  map : W → Value → Arguments → Option Value
  /-- How to watch the result, if it can change. -/
  watch : Option (W → Value → Arguments → Subscription) := none
  help : String := ""
  metadata : Metadata := []
  /-- Whether the host supplies the function. -/
  hosted : Bool := true

/-- Whether the result can change over time. -/
def Mapping.isMutable {W : Type} (mapping : Mapping W) : Bool := mapping.watch.isSome

/-- How values of a kind become text, maybe for a certain viewer. -/
structure Display (W : Type) where
  kind : Kind
  render : W → Value → Option Value → String
  /-- Whether the host supplies the function. -/
  hosted : Bool := true

/-- The kind of the values with a representation. -/
structure TypeHint where
  marker : Marker
  kind : Kind
  deriving DecidableEq, Repr

structure KindHelp where
  kind : Kind
  shortName : Option String := none
  help : Option String := none
  deriving DecidableEq, Repr

/-! ## Descriptors in dumps -/

/-- A record with its fields on one line. -/
def inspectRecord (name : String) (fields : List (String × String)) : String :=
  let body := ", ".intercalate (fields.map fun (field, text) => field ++ ": " ++ text)
  name ++ " \x7b " ++ body ++ " \x7d"

def Parameter.inspect (p : Parameter) : String :=
  inspectRecord "Parameter" [("name", quoted p.name), ("kind", p.kind.inspect),
    ("variadic", toString p.variadic), ("optional", toString p.optional),
    ("metadata", "\x7b\x7d")]

def Mapping.inspect {W : Type} (m : Mapping W) : String :=
  inspectRecord "Mapping" [("qualified_name", quoted m.name.toString),
    ("source_kind", m.source.inspect), ("target_kind", m.target.inspect),
    ("is_implicit", toString m.implicit),
    ("parameters", "[" ++ ", ".intercalate (m.parameters.map Parameter.inspect) ++ "]"),
    ("mutable", toString m.isMutable)]

def Display.inspect {W : Type} (d : Display W) : String :=
  inspectRecord "Display" [("kind", d.kind.inspect)]

end TypedTemplate
