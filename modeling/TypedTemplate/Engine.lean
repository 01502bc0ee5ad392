import TypedTemplate.Catalogue
import TypedTemplate.Plan.Binding
import TypedTemplate.Render.Stream
import TypedTemplate.Template.Reader

/-!
The engine: reads templates, binds them to what is registered and renders them. The
context is either one value of a given kind or some values by name. Each named value
becomes a mapping of its own from a kind that nothing else starts from, for this one
template only.
-/
namespace TypedTemplate

variable {W : Type}

/-- Why a template is not rendered at all. -/
inductive RenderError where
  | parse (cause : SyntaxError)
  | registry (cause : RegistryError)
  /-- A value passed by name whose representation has no kind. -/
  | unknownContextKind (key : String)

def RenderError.message : RenderError → String
  | parse cause => "parse error: " ++ cause.diagnostic.toLine
  | registry cause => "registry error: " ++ cause.message
  | unknownContextKind key => "cannot determine the kind of context value " ++ quoted key

/-- What a template is rendered for. -/
inductive Subject where
  | value (context : Value) (kind : Kind)
  | named (entries : List (String × Value))

structure Request where
  text : String
  subject : Subject
  viewer : Option Value := none

/-- A template with the number of the reading that it comes from. -/
structure ReadTemplate where
  template : Template
  reading : Nat

structure Engine (W : Type) where
  indices : Indices W
  config : Config := {}
  /-- How many texts have been read. -/
  readings : Nat := 0
  /-- The templates that are kept, by their texts. -/
  templates : Table String ReadTemplate := []

/-- A bound template with all that rendering it takes. -/
structure Prepared (W : Type) where
  template : BoundTemplate W
  context : Value
  viewer : Option Value
  config : Config

namespace Prepared

def renderOnce (prepared : Prepared W) (host : Host W) : String × Host W :=
  prepared.template.renderOnce prepared.context prepared.viewer prepared.config host

def stream (prepared : Prepared W) : RenderStream W :=
  .ofBound prepared.template prepared.context prepared.viewer prepared.config

end Prepared

namespace Indices

/-- Indices over the catalogue and an extension, which overrides it. -/
def withCatalogue (store : Store W) (extension : LayerId) :
    Except RegistryError (Indices W × Store W) := do
  let (catalogue, store) := store.add (← Catalogue.layer)
  return (.ofLayers [catalogue, extension], store)

end Indices

/-! ## Named contexts -/

namespace NamedContext

/-- The kind of a context of named values. -/
def kind : Kind := "infotpl/anonymous"

/-- The mapping from the context to the value with a name. -/
def mapping (key : String) (target : Kind) : Mapping W where
  name := ⟨[key]⟩
  source := kind
  target := target
  map := fun _ context _ => context.entry? key
  hosted := false

/-- A layer with a mapping for each value, whose kind the hints must tell. -/
def register (hints : HintIndex W) (layer : Layer W) :
    List (String × Value) → Except RenderError (Layer W)
  | [] => .ok layer
  | (key, value) :: rest =>
    match hints.get? value.marker with
    | none => .error (.unknownContextKind key)
    | some target =>
      match layer.registerMapping (mapping key target) with
      | .error cause => .error (.registry cause)
      | .ok layer => register hints layer rest

/-- What a template with the named values is resolved against: their mappings come
before all others. -/
def directory (store : Store W) (indices : Indices W) (entries : List (String × Value)) :
    Except RenderError (Directory W) := do
  let layer ← register (indices.hints.read store) .empty entries
  let (id, extended) := store.add layer
  return { indices with named := indices.named.insert 0 id }.directory extended

end NamedContext

namespace Engine

/-- Reads a template. If templates are kept, the one read before from the same text is
given again. -/
def parse (engine : Engine W) (text : String) : Except SyntaxError ReadTemplate × Engine W :=
  match if engine.config.cacheTemplates then Table.find? engine.templates text else none with
  | some known => (.ok known, engine)
  | none =>
    match Template.parse text with
    | .error cause => (.error cause, engine)
    | .ok template =>
      let fresh : ReadTemplate := ⟨template, engine.readings⟩
      let templates :=
        if engine.config.cacheTemplates then (text, fresh) :: engine.templates
        else engine.templates
      (.ok fresh, { engine with readings := engine.readings + 1, templates })

/-- Brings the indices that resolution needs up to date. -/
def sync (engine : Engine W) (store : Store W) : Engine W :=
  { engine with indices := engine.indices.sync store }

/-- Brings the index of representations up to date. -/
def syncHints (engine : Engine W) (store : Store W) : Engine W :=
  { engine with indices := engine.indices.syncHints store }

/-- Binds a template to a kind of context. -/
def bind (engine : Engine W) (store : Store W) (text : String) (start : Kind) :
    Except RenderError (BoundTemplate W) × Engine W :=
  match engine.parse text with
  | (.error cause, engine) => (.error (.parse cause), engine)
  | (.ok read, engine) =>
    let engine := engine.sync store
    (.ok (read.template.bind (engine.indices.directory store) start), engine)

/-- Reads and binds the template of a request. -/
def prepare (engine : Engine W) (store : Store W) (request : Request) :
    Except RenderError (Prepared W) × Engine W :=
  match request.subject with
  | .value context kind =>
    let (bound, engine) := engine.bind store request.text kind
    (bound.map fun template => ⟨template, context, request.viewer, engine.config⟩, engine)
  | .named entries =>
    match engine.parse request.text with
    | (.error cause, engine) => (.error (.parse cause), engine)
    | (.ok read, engine) =>
      -- Only the hints are read here; resolution works on a copy of the other indices.
      let engine := engine.syncHints store
      let prepared := (NamedContext.directory store engine.indices entries).map fun directory =>
        ⟨read.template.bind directory NamedContext.kind, .context entries, request.viewer,
          engine.config⟩
      (prepared, engine)

/-- The text of a request, now. -/
def renderOnce (engine : Engine W) (store : Store W) (host : Host W) (request : Request) :
    Except RenderError String × Engine W × Host W :=
  match engine.prepare store request with
  | (.error cause, engine) => (.error cause, engine, host)
  | (.ok prepared, engine) =>
    let (text, host) := prepared.renderOnce host
    (.ok text, engine, host)

/-- The stream of the texts of a request. -/
def renderContinuous (engine : Engine W) (store : Store W) (request : Request) :
    Except RenderError (RenderStream W) × Engine W :=
  let (prepared, engine) := engine.prepare store request
  (prepared.map Prepared.stream, engine)

end Engine

/-- The text of a request under the default settings. -/
def renderOnce (indices : Indices W) (store : Store W) (host : Host W) (request : Request) :
    Except RenderError String × Host W :=
  let (result, _, host) := ({ indices := indices } : Engine W).renderOnce store host request
  (result, host)

/-- The stream of the texts of a request under the default settings. -/
def renderContinuous (indices : Indices W) (store : Store W) (request : Request) :
    Except RenderError (RenderStream W) :=
  (({ indices := indices } : Engine W).renderContinuous store request).1

end TypedTemplate
