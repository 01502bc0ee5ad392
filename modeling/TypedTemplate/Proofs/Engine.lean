import TypedTemplate.Engine
import TypedTemplate.Proofs.Registry.Currency

/-!
What an engine remembers cannot be seen. The templates that it keeps are those that reading
their texts again would give, and its indices show what indices made now would show
(`Engine.IsTransparent`). Every request keeps this, whether or not it fails, so the next
answer is that of an engine that has just been made (`Engine.AnswersAs`). Two such engines stay
alike when the same is done with both (`Engine.Alongside.areAlike`).
-/
namespace TypedTemplate

variable {W : Type}

/-! ## Named contexts -/

theorem Layer.takes_registerMapping {layer after : Layer W} {mapping : Mapping W}
    (registered : layer.registerMapping mapping = .ok after) : layer.Takes after := by
  unfold registerMapping at registered
  split at registered
  · cases registered
  · split at registered
    · cases registered
    · rename_i mappings checked
      cases registered
      exact .mappings (.accepted checked)

theorem NamedContext.grows_register {hints : HintIndex W} {entries : List (String × Value)}
    {layer after : Layer W} (registered : register hints layer entries = .ok after) :
    layer.Grows after := by
  induction entries generalizing layer with
  | nil =>
    cases registered
    exact .refl _
  | cons entry rest ih =>
    rw [register] at registered
    split at registered
    · cases registered
    · split at registered
      · cases registered
      · rename_i next taken
        exact (Layer.takes_registerMapping taken).grows.trans (ih registered)

/-! ## Indices -/

namespace Indices

/-- Whether all indices are over the same layers, and none remembers what its layers have
never held. -/
structure Mirrors (store : Store W) (layers : List LayerId) (indices : Indices W) : Prop where
  named : indices.named.sources = layers ∧ indices.named.Mirrors store
  implicits : indices.implicits.sources = layers ∧ indices.implicits.Mirrors store
  displays : indices.displays.sources = layers ∧ indices.displays.Mirrors store
  hints : indices.hints.sources = layers ∧ indices.hints.Mirrors store

theorem mirrors_ofLayers (store : Store W) (layers : List LayerId) :
    (ofLayers layers).Mirrors store layers :=
  ⟨⟨rfl, Index.mirrors_of_synced_none _ rfl⟩, ⟨rfl, Index.mirrors_of_synced_none _ rfl⟩,
    ⟨rfl, Index.mirrors_of_synced_none _ rfl⟩, ⟨rfl, Index.mirrors_of_synced_none _ rfl⟩⟩

namespace Mirrors

variable {store after : Store W} {layers : List LayerId} {indices other : Indices W}

theorem grow (mirrors : indices.Mirrors store layers) (grows : store.Grows after) :
    indices.Mirrors after layers where
  named := ⟨mirrors.named.1, mirrors.named.2.grow grows⟩
  implicits := ⟨mirrors.implicits.1, mirrors.implicits.2.grow grows⟩
  displays := ⟨mirrors.displays.1, mirrors.displays.2.grow grows⟩
  hints := ⟨mirrors.hints.1, mirrors.hints.2.grow grows⟩

theorem sync (mirrors : indices.Mirrors store layers) :
    (indices.sync store).Mirrors store layers where
  named := ⟨(Index.sources_sync _ _).trans mirrors.named.1, mirrors.named.2.sync⟩
  implicits := ⟨(Index.sources_sync _ _).trans mirrors.implicits.1, mirrors.implicits.2.sync⟩
  displays := ⟨(Index.sources_sync _ _).trans mirrors.displays.1, mirrors.displays.2.sync⟩
  hints := mirrors.hints

theorem syncHints (mirrors : indices.Mirrors store layers) :
    (indices.syncHints store).Mirrors store layers :=
  { mirrors with
    hints := ⟨(Index.sources_sync _ _).trans mirrors.hints.1, mirrors.hints.2.sync⟩ }

theorem directory_congr (left : indices.Mirrors store layers) (right : other.Mirrors store layers) :
    indices.directory store = other.directory store := by
  rw [directory, directory,
    left.named.2.read_congr right.named.2 (left.named.1.trans right.named.1.symm),
    left.implicits.2.read_congr right.implicits.2 (left.implicits.1.trans right.implicits.1.symm),
    left.displays.2.read_congr right.displays.2 (left.displays.1.trans right.displays.1.symm)]

/-- The layer of a named context is added to a copy. The copy of the named mappings is built
anew, and the others take no notice of a layer that is not theirs. -/
theorem namedDirectory_congr (left : indices.Mirrors store layers)
    (right : other.Mirrors store layers) (entries : List (String × Value)) :
    NamedContext.directory store indices entries = NamedContext.directory store other entries := by
  rw [NamedContext.directory, NamedContext.directory,
    left.hints.2.read_congr right.hints.2 (left.hints.1.trans right.hints.1.symm)]
  cases registered : NamedContext.register (other.hints.read store) .empty entries with
  | error cause => rfl
  | ok layer =>
    have grown : store.Grows (store.add layer).2 :=
      Store.grows_add (NamedContext.grows_register registered)
    have named : (indices.named.insert 0 (store.add layer).1).read (store.add layer).2 =
        (other.named.insert 0 (store.add layer).1).read (store.add layer).2 := by
      refine Index.Mirrors.read_congr (Index.mirrors_of_synced_none _ rfl)
        (Index.mirrors_of_synced_none _ rfl) ?_
      rw [Index.insert, Index.insert, left.named.1, right.named.1]
    have implicits := (left.implicits.2.grow grown).read_congr (right.implicits.2.grow grown)
      (left.implicits.1.trans right.implicits.1.symm)
    have displays := (left.displays.2.grow grown).read_congr (right.displays.2.grow grown)
      (left.displays.1.trans right.displays.1.symm)
    have same : directory (store.add layer).2
          { indices with named := indices.named.insert 0 (store.add layer).1 } =
        directory (store.add layer).2
          { other with named := other.named.insert 0 (store.add layer).1 } := by
      rw [directory, directory, named, implicits, displays]
    exact congrArg Except.ok same

end Mirrors

end Indices

/-! ## Requests -/

namespace Engine

/-- Whether nothing that the engine remembers shows: its templates are those of their texts,
and its indices are as good as new ones. -/
structure IsTransparent (store : Store W) (layers : List LayerId) (engine : Engine W) : Prop where
  indices : engine.indices.Mirrors store layers
  templates : ∀ {text read}, Table.find? engine.templates text = some read →
    Template.parse text = .ok read.template

theorem isTransparent_new (store : Store W) (layers : List LayerId) (config : Config) :
    IsTransparent store layers ({ indices := .ofLayers layers, config } : Engine W) :=
  ⟨Indices.mirrors_ofLayers store layers, nofun⟩

namespace IsTransparent

variable {store after : Store W} {layers : List LayerId} {engine : Engine W}

theorem grow (transparent : engine.IsTransparent store layers) (grows : store.Grows after) :
    engine.IsTransparent after layers :=
  ⟨transparent.indices.grow grows, transparent.templates⟩

theorem sync (transparent : engine.IsTransparent store layers) :
    (engine.sync store).IsTransparent store layers :=
  ⟨transparent.indices.sync, transparent.templates⟩

theorem syncHints (transparent : engine.IsTransparent store layers) :
    (engine.syncHints store).IsTransparent store layers :=
  ⟨transparent.indices.syncHints, transparent.templates⟩

/-- Reading a text gives what it gives without an engine, whether or not it was kept. -/
theorem parse_cases (transparent : engine.IsTransparent store layers) (text : String) :
    ∃ later : Engine W, later.IsTransparent store layers ∧ later.config = engine.config ∧
      ((∃ cause, Template.parse text = .error cause ∧ engine.parse text = (.error cause, later)) ∨
        ∃ read, Template.parse text = .ok read.template ∧
          engine.parse text = (.ok read, later)) := by
  rw [Engine.parse]
  split
  · rename_i known kept
    refine ⟨engine, transparent, rfl, .inr ⟨known, ?_, rfl⟩⟩
    split at kept
    · exact transparent.templates kept
    · cases kept
  · split
    · rename_i cause refused
      exact ⟨engine, transparent, rfl, .inl ⟨cause, refused, rfl⟩⟩
    · rename_i template accepted
      let fresh : ReadTemplate := ⟨template, engine.readings⟩
      let templates := if engine.config.cacheTemplates then (text, fresh) :: engine.templates
        else engine.templates
      refine ⟨{ engine with readings := engine.readings + 1, templates },
        ⟨transparent.indices, fun {other read} found => ?_⟩, rfl, .inr ⟨fresh, accepted, rfl⟩⟩
      dsimp only [templates] at found
      split at found
      · rw [Table.find?] at found
        split at found
        · rename_i same
          cases found
          exact same ▸ accepted
        · exact transparent.templates found
      · exact transparent.templates found

theorem parse (transparent : engine.IsTransparent store layers) (text : String) :
    (engine.parse text).2.IsTransparent store layers := by
  obtain ⟨later, still, -, ⟨cause, -, parsed⟩ | ⟨read, -, parsed⟩⟩ := transparent.parse_cases text
  · rw [parsed]
    exact still
  · rw [parsed]
    exact still

end IsTransparent

end Engine

/-- What a request comes to without anything remembered: its template is read, and resolved
against the layers as they are. -/
def Request.prepare (request : Request) (store : Store W) (layers : List LayerId)
    (config : Config) : Except RenderError (Prepared W) :=
  match Template.parse request.text with
  | .error cause => .error (.parse cause)
  | .ok template =>
    match request.subject with
    | .value context kind =>
      .ok ⟨template.bind ((Indices.ofLayers layers).directory store) kind, context, request.viewer,
        config⟩
    | .named entries =>
      (NamedContext.directory store (.ofLayers layers) entries).map fun directory =>
        ⟨template.bind directory NamedContext.kind, .context entries, request.viewer, config⟩

namespace Engine

namespace IsTransparent

variable {store : Store W} {layers : List LayerId} {engine : Engine W}

theorem bind_eq (transparent : engine.IsTransparent store layers) (text : String) (start : Kind) :
    (engine.bind store text start).1 =
        ((Template.parse text).mapError RenderError.parse).map
          (Template.bind ((Indices.ofLayers layers).directory store) start) ∧
      (engine.bind store text start).2.IsTransparent store layers ∧
      (engine.bind store text start).2.config = engine.config := by
  obtain ⟨later, still, config, ⟨cause, refused, parsed⟩ | ⟨read, accepted, parsed⟩⟩ :=
    transparent.parse_cases text
  · rw [Engine.bind, parsed, refused]
    exact ⟨rfl, still, config⟩
  · have shown := still.sync.indices.directory_congr (Indices.mirrors_ofLayers store layers)
    rw [Engine.bind, parsed, accepted]
    dsimp only
    rw [shown]
    exact ⟨rfl, still.sync, config⟩

/-- Preparing a request gives what it gives without an engine, and leaves the engine as good
as new, also where the request fails. -/
theorem prepare_eq (transparent : engine.IsTransparent store layers) (request : Request) :
    (engine.prepare store request).1 = request.prepare store layers engine.config ∧
      (engine.prepare store request).2.IsTransparent store layers := by
  obtain ⟨text, subject, viewer⟩ := request
  cases subject with
  | value context kind =>
    obtain ⟨bound, still, config⟩ := transparent.bind_eq text kind
    rw [Engine.prepare, Request.prepare]
    dsimp only
    refine ⟨?_, still⟩
    rw [bound, config]
    cases Template.parse text <;> rfl
  | named entries =>
    obtain ⟨later, still, config, ⟨cause, refused, parsed⟩ | ⟨read, accepted, parsed⟩⟩ :=
      transparent.parse_cases text
    · rw [Engine.prepare, Request.prepare]
      dsimp only
      rw [parsed, refused]
      exact ⟨rfl, still⟩
    · have shown := still.syncHints.indices.namedDirectory_congr
        (Indices.mirrors_ofLayers store layers) entries
      rw [Engine.prepare, Request.prepare]
      dsimp only
      rw [parsed, accepted]
      dsimp only
      rw [shown, ← config]
      exact ⟨rfl, still.syncHints⟩

end IsTransparent

/-! ## Runs -/

/-- The states that an engine over some layers and these layers can come to: requests of all
sorts, failed or not, in any order, with registrations and changes of the settings between
them. -/
inductive Run (layers : List LayerId) : Store W → Engine W → Prop
  | opened (store : Store W) (config : Config) :
      Run layers store { indices := .ofLayers layers, config }
  | shared {store : Store W} {engine : Engine W} (run : Run layers store engine) :
      Run layers (store.add .empty).2 engine
  | appended {store : Store W} {engine : Engine W} (run : Run layers store engine) {id : LayerId}
      {layer : Layer W} (takes : (store.layer id).Takes layer) :
      Run layers (store.set id layer) engine
  | configured {store : Store W} {engine : Engine W} (run : Run layers store engine)
      (config : Config) : Run layers store { engine with config }
  | parsed {store : Store W} {engine : Engine W} (run : Run layers store engine) (text : String) :
      Run layers store (engine.parse text).2
  | bound {store : Store W} {engine : Engine W} (run : Run layers store engine) (text : String)
      (start : Kind) : Run layers store (engine.bind store text start).2
  | rendered {store : Store W} {engine : Engine W} (run : Run layers store engine) (host : Host W)
      (request : Request) : Run layers store (engine.renderOnce store host request).2.1
  | streamed {store : Store W} {engine : Engine W} (run : Run layers store engine)
      (request : Request) : Run layers store (engine.renderContinuous store request).2

/-- What a request comes to depends on the engine only as far as preparing it does. -/
theorem render_congr {engine other : Engine W} {store : Store W} {request : Request}
    (same : (engine.prepare store request).1 = (other.prepare store request).1) :
    (∀ host, (engine.renderOnce store host request).1 = (other.renderOnce store host request).1 ∧
      (engine.renderOnce store host request).2.2 = (other.renderOnce store host request).2.2) ∧
      (engine.renderContinuous store request).1 = (other.renderContinuous store request).1 := by
  simp only [renderOnce, renderContinuous]
  generalize engine.prepare store request = left at same
  generalize other.prepare store request = right at same
  obtain ⟨first, engine⟩ := left
  obtain ⟨second, other⟩ := right
  cases same
  refine ⟨fun host => ?_, rfl⟩
  cases first with
  | error cause => exact ⟨rfl, rfl⟩
  | ok prepared => exact ⟨rfl, rfl⟩

theorem renderOnce_engine (engine : Engine W) (store : Store W) (host : Host W)
    (request : Request) :
    (engine.renderOnce store host request).2.1 = (engine.prepare store request).2 := by
  rw [renderOnce]
  rcases engine.prepare store request with ⟨_ | _, later⟩ <;> rfl

theorem renderOnce_host_of_error {engine : Engine W} {store : Store W} {host : Host W}
    {request : Request} {error : RenderError}
    (failed : (engine.renderOnce store host request).1 = .error error) :
    (engine.renderOnce store host request).2.2 = host := by
  rw [renderOnce] at failed ⊢
  generalize engine.prepare store request = prepared at failed
  rcases prepared with ⟨_ | _, later⟩
  · rfl
  · cases failed

/-- The text is that of the template bound without anything remembered. -/
theorem IsTransparent.renderOnce_eq {store : Store W} {layers : List LayerId} {engine : Engine W}
    (transparent : engine.IsTransparent store layers) (host : Host W) (request : Request) :
    (engine.renderOnce store host request).1 =
      (request.prepare store layers engine.config).map fun prepared =>
        (prepared.renderOnce host).1 := by
  rw [← (transparent.prepare_eq request).1, renderOnce]
  rcases engine.prepare store request with ⟨_ | _, later⟩ <;> rfl

theorem Run.isTransparent {layers : List LayerId} {store : Store W} {engine : Engine W}
    (run : Run layers store engine) : engine.IsTransparent store layers := by
  induction run with
  | opened store config => exact isTransparent_new store layers config
  | shared _ ih => exact ih.grow (Store.grows_add (.refl _))
  | appended _ takes ih => exact ih.grow (Store.grows_set takes.grows)
  | configured _ config ih => exact ⟨ih.indices, ih.templates⟩
  | parsed _ text ih => exact ih.parse text
  | bound _ text start ih => exact (ih.bind_eq text start).2.1
  | rendered _ host request ih =>
    rw [renderOnce_engine]
    exact (ih.prepare_eq request).2
  | streamed _ request ih => exact (ih.prepare_eq request).2

/-- Whether all requests have the same results, failures included, and make the same calls.
Of a template that is read, the result is the template. -/
structure AnswersAs (store : Store W) (engine other : Engine W) : Prop where
  parse : ∀ text, (engine.parse text).1.map ReadTemplate.template =
    (other.parse text).1.map ReadTemplate.template
  bind : ∀ text start, (engine.bind store text start).1 = (other.bind store text start).1
  renderOnce : ∀ host request,
    (engine.renderOnce store host request).1 = (other.renderOnce store host request).1 ∧
      (engine.renderOnce store host request).2.2 = (other.renderOnce store host request).2.2
  renderContinuous : ∀ request,
    (engine.renderContinuous store request).1 = (other.renderContinuous store request).1

theorem IsTransparent.parse_eq {store : Store W} {layers : List LayerId} {engine : Engine W}
    (transparent : engine.IsTransparent store layers) (text : String) :
    (engine.parse text).1.map ReadTemplate.template = Template.parse text := by
  obtain ⟨later, -, -, ⟨cause, refused, parsed⟩ | ⟨read, accepted, parsed⟩⟩ :=
    transparent.parse_cases text
  · rw [parsed, refused]
    rfl
  · rw [parsed, accepted]
    rfl

/-- What can be seen of engines over the same layers are their settings. -/
theorem IsTransparent.answersAs {store : Store W} {layers : List LayerId} {engine other : Engine W}
    (left : engine.IsTransparent store layers) (right : other.IsTransparent store layers)
    (config : engine.config = other.config) : engine.AnswersAs store other := by
  have prepared : ∀ request,
      (engine.prepare store request).1 = (other.prepare store request).1 := by
    intro request
    rw [(left.prepare_eq request).1, (right.prepare_eq request).1, config]
  refine ⟨fun text => ?_, fun text start => ?_, fun host request => ?_, fun request => ?_⟩
  · rw [left.parse_eq, right.parse_eq]
  · rw [(left.bind_eq text start).1, (right.bind_eq text start).1]
  · exact (render_congr (prepared request)).1 host
  · exact (render_congr (prepared request)).2

/-- Caches and named contexts leave no trace. After any requests, registrations and changes of
the settings, an engine answers as one that is made anew with its settings over new indices
on its layers. -/
theorem Run.answers_eq {layers : List LayerId} {store : Store W} {engine : Engine W}
    (run : Run layers store engine) :
    engine.AnswersAs store { indices := .ofLayers layers, config := engine.config } :=
  run.isTransparent.answersAs (isTransparent_new store layers engine.config) rfl

/-- A text is kept by a rendering that fails, because a name is given twice. Then the kind of
texts is declared anew and templates are kept no longer. -/
theorem Run.answers_eq_renewed :
    let store : Store Unit := ⟨[Layer.empty.registerHint ⟨.text, "words"⟩]⟩
    let engine : Engine Unit := { indices := .ofLayers [0], config := { cacheTemplates := true } }
    let twice : Request := ⟨"{a}", .named [("a", .text "x"), ("a", .text "y")], none⟩
    let failed := (engine.renderOnce store { state := () } twice).2.1
    let renewed := store.set 0 ((store.layer 0).registerHint ⟨.text, "names"⟩)
    let settled := { failed with config := { cacheTemplates := false } }
    Run [0] renewed settled ∧
      settled.AnswersAs renewed { indices := .ofLayers [0], config := settled.config } := by
  intro store engine twice failed renewed settled
  have opened : Run [0] store failed := .rendered (.opened store _) { state := () } twice
  have run : Run [0] renewed settled :=
    .configured (.appended opened (.hints (.registered ⟨.text, "names"⟩))) _
  exact ⟨run, run.answers_eq⟩

/-! ## Side by side -/

/-- Whether no request has changed the settings or the index of help texts, which resolution does
not read. -/
structure Keeps (before after : Engine W) : Prop where
  config : after.config = before.config
  helps : after.indices.helps = before.indices.helps

theorem parse_keeps (engine : Engine W) (text : String) :
    engine.Keeps (engine.parse text).2 := by
  rw [Engine.parse]
  split
  · exact ⟨rfl, rfl⟩
  · split <;> exact ⟨rfl, rfl⟩

theorem bind_keeps (engine : Engine W) (store : Store W) (text : String) (start : Kind) :
    engine.Keeps (engine.bind store text start).2 := by
  have kept := engine.parse_keeps text
  rw [Engine.bind]
  split
  · rename_i parsed
    rw [parsed] at kept
    exact kept
  · rename_i parsed
    rw [parsed] at kept
    exact ⟨kept.config, kept.helps⟩

theorem prepare_keeps (engine : Engine W) (store : Store W) (request : Request) :
    engine.Keeps (engine.prepare store request).2 := by
  obtain ⟨text, subject, viewer⟩ := request
  rw [Engine.prepare]
  cases subject with
  | value context kind => exact engine.bind_keeps store text kind
  | named entries =>
    have kept := engine.parse_keeps text
    dsimp only
    split
    · rename_i parsed
      rw [parsed] at kept
      exact kept
    · rename_i parsed
      rw [parsed] at kept
      exact ⟨kept.config, kept.helps⟩

/-- What two engines come to when the same is done with both, with registrations between. -/
inductive Alongside (store : Store W) (engine other : Engine W) :
    Store W → Engine W → Engine W → Prop
  | opened : Alongside store engine other store engine other
  | grown {later after : Store W} {left right : Engine W}
      (run : Alongside store engine other later left right) (grows : later.Grows after) :
      Alongside store engine other after left right
  | configured {later : Store W} {left right : Engine W}
      (run : Alongside store engine other later left right) (config : Config) :
      Alongside store engine other later { left with config } { right with config }
  | parsed {later : Store W} {left right : Engine W}
      (run : Alongside store engine other later left right) (text : String) :
      Alongside store engine other later (left.parse text).2 (right.parse text).2
  | bound {later : Store W} {left right : Engine W}
      (run : Alongside store engine other later left right) (text : String) (start : Kind) :
      Alongside store engine other later (left.bind later text start).2
        (right.bind later text start).2
  | rendered {later : Store W} {left right : Engine W}
      (run : Alongside store engine other later left right) (host : Host W) (request : Request) :
      Alongside store engine other later (left.renderOnce later host request).2.1
        (right.renderOnce later host request).2.1
  | streamed {later : Store W} {left right : Engine W}
      (run : Alongside store engine other later left right) (request : Request) :
      Alongside store engine other later (left.renderContinuous later request).2
        (right.renderContinuous later request).2

/-- Whether nothing that two engines remember tells them apart. -/
structure AreAlike (store : Store W) (layers : List LayerId) (engine other : Engine W) : Prop where
  left : engine.IsTransparent store layers
  right : other.IsTransparent store layers
  config : engine.config = other.config
  helps : engine.indices.helps = other.indices.helps

namespace AreAlike

variable {store : Store W} {layers : List LayerId} {engine other later after : Engine W}

theorem keep (alike : AreAlike store layers engine other) (left : engine.Keeps later)
    (right : other.Keeps after) (still : later.IsTransparent store layers)
    (also : after.IsTransparent store layers) : AreAlike store layers later after where
  left := still
  right := also
  config := by rw [left.config, right.config, alike.config]
  helps := by rw [left.helps, right.helps, alike.helps]

theorem prepare (alike : AreAlike store layers engine other) (request : Request) :
    AreAlike store layers (engine.prepare store request).2 (other.prepare store request).2 :=
  alike.keep (engine.prepare_keeps store request) (other.prepare_keeps store request)
    (alike.left.prepare_eq request).2 (alike.right.prepare_eq request).2

end AreAlike

theorem Alongside.areAlike {layers : List LayerId} {store later : Store W}
    {engine other left right : Engine W} (run : Alongside store engine other later left right)
    (alike : AreAlike store layers engine other) : AreAlike later layers left right := by
  induction run with
  | opened => exact alike
  | grown _ grows ih => exact ⟨ih.left.grow grows, ih.right.grow grows, ih.config, ih.helps⟩
  | configured _ config ih =>
    exact ⟨⟨ih.left.indices, ih.left.templates⟩, ⟨ih.right.indices, ih.right.templates⟩, rfl,
      ih.helps⟩
  | parsed _ text ih =>
    exact ih.keep (parse_keeps _ text) (parse_keeps _ text) (ih.left.parse text)
      (ih.right.parse text)
  | bound _ text start ih =>
    exact ih.keep (bind_keeps _ _ text start) (bind_keeps _ _ text start)
      (ih.left.bind_eq text start).2.1 (ih.right.bind_eq text start).2.1
  | rendered _ host request ih =>
    rw [renderOnce_engine, renderOnce_engine]
    exact ih.prepare request
  | streamed _ request ih => exact ih.prepare request

end Engine

/-- Whether indices give the same answers as others. -/
structure Indices.ShowsAs (store : Store W) (indices other : Indices W) : Prop where
  directory : indices.directory store = other.directory store
  hints : indices.hints.read store = other.hints.read store
  helps : indices.helps.read store = other.helps.read store

theorem Engine.AreAlike.showsAs {store : Store W} {layers : List LayerId} {engine other : Engine W}
    (alike : AreAlike store layers engine other) :
    engine.indices.ShowsAs store other.indices where
  directory := alike.left.indices.directory_congr alike.right.indices
  hints := alike.left.indices.hints.2.read_congr alike.right.indices.hints.2
    (alike.left.indices.hints.1.trans alike.right.indices.hints.1.symm)
  helps := by rw [alike.helps]

end TypedTemplate
