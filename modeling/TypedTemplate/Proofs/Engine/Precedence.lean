import TypedTemplate.Proofs.Engine.NamedContext
import TypedTemplate.Proofs.Path.Given
import TypedTemplate.Proofs.Render.Compilation
import TypedTemplate.Proofs.Render.Freshness
import TypedTemplate.Proofs.Template.Naming

/-!
A named value hides every registered mapping that its name could mean as well. The mappings of the
context are the first that the search comes by from the kind of the context, and one that consumes
the only call in full is a cheapest path (`Query.paths_head_of_first`), so a placeholder of the name
shows the value that was given for it (`Engine.Run.shows_named`).
-/
namespace TypedTemplate

variable {W : Type}

/-- What is shown of a value: the text of the display, or the marker where it is the text for
invalid values. -/
def Display.shows (display : Display W) (marker : String) (world : W) (value : Value)
    (viewer : Option Value) : String :=
  let rendered := display.render world value viewer
  if rendered = invalidText then marker else rendered

/-! ## The first mapping of a name -/

theorem Store.displays_add {store : Store W} {layer : Layer W}
    (none : layer.displays.items = []) (layers : List LayerId) :
    (store.add layer).2.displays layers = store.displays layers := by
  have same : ∀ id, ((store.add layer).2.layer id).displays.items =
      (store.layer id).displays.items := by
    intro id
    by_cases new : id = store.layers.length
    · rw [new, layer_add_self, layer_length, none]
      rfl
    · rw [layer_add_of_ne new]
  simp only [displays, same]

namespace NamedContext

variable {hints : List TypeHint} {entries : List (String × Value)} {key : String} {value : Value}
  {target : Kind}

/-- In front of an entry no other one has its key. -/
theorem exists_split (distinct : (entries.map Prod.fst).Nodup) (member : (key, value) ∈ entries) :
    ∃ before behind, entries = before ++ (key, value) :: behind ∧
      ∀ entry ∈ before, entry.1 ≠ key := by
  obtain ⟨before, behind, rfl⟩ := List.append_of_mem member
  rw [List.map_append, List.map_cons, List.nodup_append] at distinct
  exact ⟨before, behind, rfl, fun entry inside =>
    distinct.2.2 entry.1 (List.mem_map_of_mem inside) key List.mem_cons_self⟩

/-- Among the mappings of a context a key means its own one only, and in front of all others. -/
theorem exists_matchesFor (distinct : (entries.map Prod.fst).Nodup)
    (member : (key, value) ∈ entries) (declared : declared? hints value.marker = some target)
    (others : List (Mapping W)) :
    ∃ rest, matchesFor (mappings hints entries ++ others) kind ⟨[key]⟩ =
      ⟨mapping key target, 0⟩ :: rest := by
  obtain ⟨before, behind, rfl, apart⟩ := exists_split distinct member
  have silent : matchesFor (mappings hints before : List (Mapping W)) kind ⟨[key]⟩ = [] := by
    refine List.filterMap_eq_nil_iff.mpr fun old known => ?_
    simp only [mappings, List.mem_filterMap, Option.map_eq_some_iff] at known
    obtain ⟨entry, inside, goal, -, rfl⟩ := known
    simp [mapping, Name.skipped?_singleton (apart entry inside)]
  have whole : Name.skipped? ⟨[key]⟩ ⟨[key]⟩ = some 0 :=
    Name.skipped?_self (List.cons_ne_nil key [])
  have split : (mappings hints (before ++ (key, value) :: behind) : List (Mapping W)) =
      mappings hints before ++ mapping key target :: mappings hints behind := by
    simp [mappings, declared]
  rw [split, List.append_assoc, matchesFor_append, silent, List.nil_append, List.cons_append,
    matchesFor, List.filterMap_cons]
  simp [mapping, whole]

section Directories

variable {store : Store W} {layers : List LayerId}

theorem extended_eq : extended store layers entries =
    .ofLayers (store.add (layer (store.hints layers) entries)).2 (store.layers.length :: layers)
      layers layers := by
  have inserted : (Index.ofLayers layers : Index (NamedIndex W)).insert 0 store.layers.length =
      .ofLayers (store.layers.length :: layers) := by
    simp [Index.insert, Index.ofLayers]
  rw [extended, Indices.directory, Directory.ofLayers, ← inserted]
  rfl

variable (accepted : IsAccepted (store.hints layers) entries) (member : (key, value) ∈ entries)
  (declared : declared? (store.hints layers) value.marker = some target)

include accepted member declared

theorem exists_find_extended : ∃ rest,
    (extended store layers entries).named.find kind ⟨[key]⟩ = ⟨mapping key target, 0⟩ :: rest := by
  have front : ((store.add (layer (store.hints layers) entries)).2.mappings
      (store.layers.length :: layers)) = mappings (store.hints layers) entries ++
        (store.add (layer (store.hints layers) entries)).2.mappings layers := by
    rw [Store.mappings, List.flatMap_cons, Store.layer_add_self]
    rfl
  rw [extended_eq, Directory.ofLayers]
  dsimp only
  rw [NamedIndex.find_read, front]
  exact exists_matchesFor accepted.distinct member declared _

/-- A call of a key is bound to the mapping of its value, whatever arguments it has. -/
theorem choice_extended {display : Display W}
    (displayed : lastFor? (store.displays layers) target = some display) {call : Call}
    (named : call.name = ⟨[key]⟩) :
    Chain.choice? (extended store layers entries) kind (.first call) =
      some ⟨.cons (mapping key target) .nil .nil, display⟩ := by
  have shown : (extended store layers entries).displays.get? target = some display := by
    rw [extended_eq, Directory.ofLayers]
    dsimp only
    rw [DisplayIndex.get?_read, Store.displays_add rfl, displayed]
  obtain ⟨rest, found⟩ := exists_find_extended accepted member declared
  let query : Query W := ⟨extended store layers entries, [⟨[key]⟩], kind,
    (extended store layers entries).displays.canDisplay⟩
  have ends : query.accepts (mapping key target : Mapping W).target = true := by
    simp [query, mapping, DisplayIndex.canDisplay, shown]
  have path : Chain.path? (extended store layers entries) kind
      (extended store layers entries).displays.canDisplay (.first call) =
        some ⟨[⟨mapping key target, some 0⟩], target, ⟨1, 0⟩⟩ := by
    have references : Chain.references (.first call) = query.calls := by
      simp [Chain.references, Chain.calls, named, query]
    rw [Chain.path?, references]
    exact query.paths_head_of_first rfl found rfl ends
  have fill : call.fill (extended store layers entries) kind (mapping key target) = .nil := by
    cases call <;> rfl
  rw [Chain.choice?, path]
  simp [shown, Path.route, Chain.fills, Route.ofHops, fill]

end Directories

/-! ## The text of a key -/

theorem entry?_eq (distinct : (entries.map Prod.fst).Nodup) (member : (key, value) ∈ entries) :
    Value.entry? key (.context entries) = some value := by
  obtain ⟨before, behind, same, apart⟩ := exists_split distinct member
  refine List.lookup_eq_some_iff.mpr ⟨before, behind, same, fun entry inside => ?_⟩
  simpa using Ne.symm (apart entry inside)

theorem value_evaluate (distinct : (entries.map Prod.fst).Nodup) (member : (key, value) ∈ entries)
    (world : W) (display : Display W) (viewer : Option Value) (config : Config) :
    (Choice.evaluate world (.context entries) viewer config
        ⟨.cons (mapping key target) .nil .nil, display⟩).value =
      some (display.shows config.invalidMarker world value viewer) := by
  have given := entry?_eq distinct member
  simp only [Choice.evaluate, Route.evaluate, mapping, given, Answer.quiet, Display.shows]

end NamedContext

/-- A placeholder shows its first arm if that has a text, whatever the others are. -/
theorem BoundPlaceholder.runOnce_of_first {placeholder : BoundPlaceholder W} {choice : Choice W}
    {others : List (Choice W)} (arms : placeholder.choices = choice :: others) {context : Value}
    {viewer : Option Value} {config : Config} {host : Host W} {text : String}
    (shown : (choice.evaluate host.state context viewer config).value = some text) :
    (runOnce host .initial (placeholder.program context viewer config)).1 = text := by
  rw [program, runOnce_choices, arms, evaluateChoices, Answer.orElse_of_some shown]
  simp [shown]

/-- Whether the first arm of an expression is one call of a name. -/
def Expr.OpensWith (expr : Expr) (name : Name) : Prop :=
  ∃ call, expr.main = .first call ∧ call.name = name

namespace NamedContext

theorem renderOnce_key {store : Store W} {layers : List LayerId} {entries : List (String × Value)}
    (accepted : IsAccepted (store.hints layers) entries) {key : String} {value : Value}
    (member : (key, value) ∈ entries) {target : Kind}
    (declared : declared? (store.hints layers) value.marker = some target) {display : Display W}
    (displayed : lastFor? (store.displays layers) target = some display) {expr : Expr}
    (opens : expr.OpensWith ⟨[key]⟩) (viewer : Option Value) (config : Config) (host : Host W) :
    (BoundElement.renderOnce (.context entries) viewer config host
        (.placeholder (expr.bind (extended store layers entries) kind))).1 =
      display.shows config.invalidMarker host.state value viewer := by
  obtain ⟨call, main, named⟩ := opens
  have choice := choice_extended accepted member declared displayed named
  have arms : ∃ others, (expr.bind (extended store layers entries) kind).choices =
      ⟨.cons (mapping key target) .nil .nil, display⟩ :: others := by
    cases expr <;> (cases main; simp [Expr.bind, Expr.arms, choice])
  obtain ⟨others, arms⟩ := arms
  exact BoundPlaceholder.runOnce_of_first arms
    (value_evaluate accepted.distinct member host.state display viewer config)

end NamedContext

/-! ## Templates -/

namespace Prepared

/-- The texts of the elements of a template, each by itself. -/
def pieces (prepared : Prepared W) (host : Host W) : List String :=
  prepared.template.elements.map fun element =>
    (element.renderOnce prepared.context prepared.viewer prepared.config host).1

theorem renderOnce_eq_join (prepared : Prepared W) (host : Host W) :
    (prepared.renderOnce host).1 = String.join (prepared.pieces host) := by
  obtain ⟨⟨bounds⟩, context, viewer, config⟩ := prepared
  rw [renderOnce, BoundTemplate.renderOnce, pieces]
  dsimp only
  induction bounds with
  | nil => rfl
  | cons bound rest ih =>
    have state := bound.renderOnce_state context viewer config host
    rw [List.map_cons, String.join_cons, ← ih, BoundTemplate.renderElements]
    dsimp only
    rw [BoundTemplate.renderElements_congr state]

/-- Whether each element of a template has its piece of the text, and those placeholders that begin
with a call of a name have this one. -/
structure ShowsAt (prepared : Prepared W) (template : Template) (name : Name) (shown : String)
    (host : Host W) : Prop where
  length : (prepared.pieces host).length = template.elements.length
  piece : ∀ {i : Nat} {expr : Expr} {span : Span},
    template.elements[i]? = some (.placeholder expr span) → expr.OpensWith name →
      (prepared.pieces host)[i]? = some shown

theorem ShowsAt.pieces_eq {prepared : Prepared W} {expr : Expr} {span : Span} {name : Name}
    {shown : String} {host : Host W}
    (shows : prepared.ShowsAt ⟨[.placeholder expr span]⟩ name shown host)
    (opens : expr.OpensWith name) : prepared.pieces host = [shown] := by
  have piece := shows.piece (i := 0) rfl opens
  obtain ⟨text, single⟩ := List.length_eq_one_iff.mp shows.length
  rw [single] at piece ⊢
  cases piece
  rfl

end Prepared

theorem NamedContext.showsAt_prepared {store : Store W} {layers : List LayerId}
    {entries : List (String × Value)} (accepted : IsAccepted (store.hints layers) entries)
    {key : String} {value : Value} (member : (key, value) ∈ entries) {target : Kind}
    (declared : declared? (store.hints layers) value.marker = some target) {display : Display W}
    (displayed : lastFor? (store.displays layers) target = some display) (host : Host W)
    (viewer : Option Value) (config : Config) (template : Template) :
    (prepared store layers entries viewer config template).ShowsAt template ⟨[key]⟩
      (display.shows config.invalidMarker host.state value viewer) host where
  length := by simp [prepared, Prepared.pieces, Template.bind]
  piece := by
    intro i expr span found opens
    have piece := renderOnce_key accepted member declared displayed opens viewer config host
    simp [prepared, Prepared.pieces, Template.bind, found, piece]

namespace Engine

theorem IsTransparent.renderOnce_named {store : Store W} {layers : List LayerId}
    {engine : Engine W} (transparent : engine.IsTransparent store layers)
    {entries : List (String × Value)}
    (accepted : NamedContext.IsAccepted (store.hints layers) entries) {text : String}
    {template : Template} (parsed : Template.parse text = .ok template) (host : Host W)
    (viewer : Option Value) :
    (engine.renderOnce store host ⟨text, .named entries, viewer⟩).1 =
      .ok (String.join ((NamedContext.prepared store layers entries viewer engine.config
        template).pieces host)) := by
  rw [transparent.renderOnce_eq, Request.prepare_of_isAccepted parsed accepted]
  exact congrArg Except.ok (Prepared.renderOnce_eq_join _ host)

/-- A named value wins over whatever else its name could mean. After any use of an engine, and
whatever is registered in its layers, let a context of named values be accepted, and let the kind of
the value with a key have a display. Then the placeholder of the key shows exactly what the display
makes of this value, with the marker in place of the text for invalid values. It does so alone, and
among the elements of any template as well as in front of further arms. -/
theorem Run.shows_named {layers : List LayerId} {store : Store W} {engine : Engine W}
    (run : Run layers store engine) {entries : List (String × Value)}
    (accepted : NamedContext.IsAccepted (store.hints layers) entries) {key : String} {value : Value}
    (member : (key, value) ∈ entries) {target : Kind}
    (declared : declared? (store.hints layers) value.marker = some target) {display : Display W}
    (displayed : lastFor? (store.displays layers) target = some display) (host : Host W)
    (viewer : Option Value) :
    let rendered := display.render host.state value viewer
    let shown := if rendered = invalidText then engine.config.invalidMarker else rendered
    (engine.renderOnce store host ⟨"\x7b" ++ key ++ "\x7d", .named entries, viewer⟩).1 =
        .ok shown ∧
      ∀ text template, Template.parse text = .ok template →
        ∃ prepared, (engine.prepare store ⟨text, .named entries, viewer⟩).1 = .ok prepared ∧
          (engine.renderOnce store host ⟨text, .named entries, viewer⟩).1 =
            .ok (String.join (prepared.pieces host)) ∧
          prepared.ShowsAt template ⟨[key]⟩ shown host := by
  intro rendered shown
  have transparent := run.isTransparent
  have shows := NamedContext.showsAt_prepared accepted member declared displayed host viewer
    engine.config
  refine ⟨?_, fun text template parsed => ⟨_, ?_,
    transparent.renderOnce_named accepted parsed host viewer, shows template⟩⟩
  · have printable : Name.IsPrintable ⟨[key]⟩ :=
      ⟨nofun, List.forall_mem_singleton.mpr (accepted.words _ member)⟩
    obtain ⟨template, place, parsed, only⟩ := Template.parse_placeholder printable
    obtain ⟨span, rfl⟩ := Template.eq_of_onlyCall? only
    have text : Name.placeholder ⟨[key]⟩ = "\x7b" ++ key ++ "\x7d" := by
      simp [Name.placeholder, Name.toString]
    rw [text] at parsed
    rw [transparent.renderOnce_named accepted parsed, (shows _).pieces_eq ⟨_, rfl, rfl⟩,
      String.join_cons]
    simp [shown, rendered, Display.shows]
  · exact (transparent.prepare_eq _).1.trans (Request.prepare_of_isAccepted parsed accepted)

end Engine

/-! Two mappings from the kind of named contexts that a call of `a` could mean as well, and a display
to which all but texts are invalid. -/

def rival (tokens : List String) : Mapping Unit where
  name := ⟨tokens⟩
  source := NamedContext.kind
  target := "words"
  implicit := true
  map _ _ _ := some (.text "rival")

def rivalStore : Store Unit :=
  ⟨[{ helps := .empty
      displays := ⟨[⟨"words", fun _ value _ => value.asText?.getD invalidText, true⟩], 1⟩
      mappings := ⟨[rival ["a"], rival ["other", "a"]], 2⟩
      hints := ⟨[⟨.text, "words"⟩, ⟨.bool, "words"⟩], 2⟩ }]⟩

theorem Engine.Run.shows_named_rivals :
    let config : Config := { invalidMarker := "?" }
    let engine : Engine Unit := { indices := .ofLayers [0], config }
    let entries := [("c", .bool true), ("b", .text "y"), ("a", .text "x")]
    let host : Host Unit := { state := () }
    Run [0] rivalStore engine ∧ NamedContext.IsAccepted (rivalStore.hints [0]) entries ∧
      ("a", .text "x") ∈ entries ∧ declared? (rivalStore.hints [0]) .text = some "words" ∧
      (∃ display, lastFor? (rivalStore.displays [0]) "words" = some display) ∧
      (engine.renderOnce rivalStore host ⟨"\x7ba\x7d", .named entries, none⟩).1 = .ok "x" ∧
      (engine.renderOnce rivalStore host ⟨"\x7bc\x7d", .named entries, none⟩).1 = .ok "?" ∧
      ∃ prepared : Prepared Unit,
        (engine.renderOnce rivalStore host ⟨"<\x7ba | b\x7d>", .named entries, none⟩).1 =
            .ok (String.join (prepared.pieces host)) ∧
          (prepared.pieces host)[1]? = some "x" := by
  intro config engine entries host
  have run : Run [0] rivalStore engine := .opened rivalStore config
  have words : ∀ entry ∈ entries, IsWord entry.1 :=
    List.forall_mem_cons.mpr ⟨⟨by decide, by with_unfolding_all rfl⟩,
      List.forall_mem_cons.mpr ⟨⟨by decide, by with_unfolding_all rfl⟩,
        List.forall_mem_singleton.mpr ⟨by decide, by with_unfolding_all rfl⟩⟩⟩
  have hinted : ∀ entry ∈ entries, NamedContext.IsHinted (rivalStore.hints [0]) entry.2 := by
    have text (value : String) : NamedContext.IsHinted (rivalStore.hints [0]) (.text value) :=
      ⟨⟨.text, "words"⟩, List.mem_cons_self, rfl⟩
    have bool : NamedContext.IsHinted (rivalStore.hints [0]) (.bool true) :=
      ⟨⟨.bool, "words"⟩, List.mem_cons_of_mem _ List.mem_cons_self, rfl⟩
    exact List.forall_mem_cons.mpr ⟨bool, List.forall_mem_cons.mpr ⟨text "y",
      List.forall_mem_singleton.mpr (text "x")⟩⟩
  have accepted : NamedContext.IsAccepted (rivalStore.hints [0]) entries :=
    ⟨hinted, words, by decide⟩
  have first : ("c", .bool true) ∈ entries := List.mem_cons_self
  have member : ("a", .text "x") ∈ entries :=
    List.mem_cons_of_mem _ (List.mem_cons_of_mem _ List.mem_cons_self)
  have parsed : Template.parse "<\x7ba | b\x7d>" = .ok ⟨[.text "<" ⟨0, 1⟩,
      .placeholder (.orElse (.first (.bare ⟨["a"]⟩ ⟨2, 3⟩)) (.arm (.first (.bare ⟨["b"]⟩ ⟨6, 7⟩))))
        ⟨1, 8⟩, .text ">" ⟨8, 9⟩]⟩ := by
    with_unfolding_all rfl
  obtain ⟨alone, among⟩ := run.shows_named accepted member rfl rfl host none
  obtain ⟨invalid, -⟩ := run.shows_named accepted first rfl rfl host none
  obtain ⟨prepared, -, rendered, shows⟩ := among _ _ parsed
  exact ⟨run, accepted, member, rfl, ⟨_, rfl⟩, alone, invalid, prepared, rendered,
    shows.piece (i := 1) rfl ⟨_, rfl, rfl⟩⟩

end TypedTemplate
