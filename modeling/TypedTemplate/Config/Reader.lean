import TypedTemplate.Config
import TypedTemplate.Toml.Reader

/-!
Settings written in TOML: the markers in a table `markers`, the use of the cache in a
table `cache`. What is not given keeps its default; anything else is refused. A table
may also be an array of all its values in a fixed order.
-/
namespace TypedTemplate.Config

/-- The names of the markers in their fixed order. -/
def markerNames : List String := ["unresolved", "null", "invalid"]

def setMarker (config : Config) (name : String) (value : Toml) : Option Config :=
  match name, value with
  | "unresolved", .text marker => some { config with unresolvedMarker := marker }
  | "null", .text marker => some { config with nullMarker := marker }
  | "invalid", .text marker => some { config with invalidMarker := marker }
  | _, _ => none

def setCache (config : Config) (name : String) (value : Toml) : Option Config :=
  match name, value with
  | "templates", .bool cacheTemplates => some { config with cacheTemplates }
  | _, _ => none

/-- Sets fields from a table, or from an array that has at least all the fields. -/
def setAll (set : Config → String → Toml → Option Config) (names : List String)
    (config : Config) : Toml → Option Config
  | .table entries => entries.foldlM (fun config (name, value) => set config name value) config
  | .list items =>
    if items.length < names.length then none
    else (names.zip items).foldlM (fun config (name, value) => set config name value) config
  | _ => none

def setSection (config : Config) (name : String) (value : Toml) : Option Config :=
  match name with
  | "markers" => setAll setMarker markerNames config value
  | "cache" => setAll setCache ["templates"] config value
  | _ => none

/-- The settings that a text in TOML gives. -/
def parse? (text : String) : Option Config :=
  (Toml.parse? text).bind fun entries =>
    entries.foldlM (fun config (name, value) => setSection config name value) {}

end TypedTemplate.Config
