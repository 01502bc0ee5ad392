import Mathlib.Data.List.Forall2
import TypedTemplate.Documentation
import TypedTemplate.Proofs.Registry

/-!
What documentation says of some layers. Each help and each display says something about its kind
(`Layer.remarks`), and what comes later completes what came before, field by field
(`KindDoc.completedBy`). Going through layers one after the other therefore comes to the same as
taking together all that they say (`Documentation.kind?_ofLayers`), and from there the fields of a
kind are read off. Mappings are listed as they are registered, each with an entry that describes it
(`MappingDoc.Describes`).
-/
namespace TypedTemplate

variable {W : Type}

/-! ## Tables with distinct keys -/

namespace Table

variable {α κ ν : Type} [DecidableEq κ]

theorem mem_keys_update (table : Table κ ν) (key other : κ) (f : Option ν → ν) :
    other ∈ (update table key f).map Prod.fst ↔ other = key ∨ other ∈ table.map Prod.fst := by
  induction table with
  | nil => simp [update]
  | cons entry rest ih =>
    obtain ⟨k, v⟩ := entry
    by_cases here : k = key
    · simp [update, here]
    · rw [update, if_neg here, List.map_cons, List.map_cons, List.mem_cons, List.mem_cons, ih]
      exact or_left_comm

theorem nodup_update {table : Table κ ν} (distinct : (table.map Prod.fst).Nodup) (key : κ)
    (f : Option ν → ν) : ((update table key f).map Prod.fst).Nodup := by
  induction table with
  | nil => simp [update]
  | cons entry rest ih =>
    obtain ⟨k, v⟩ := entry
    rw [List.map_cons, List.nodup_cons] at distinct
    by_cases here : k = key
    · simpa [update, here] using distinct
    · rw [update, if_neg here, List.map_cons, List.nodup_cons, mem_keys_update]
      exact ⟨not_or.mpr ⟨here, distinct.1⟩, ih distinct.2⟩

theorem nodup_foldl_update {table : Table κ ν} (distinct : (table.map Prod.fst).Nodup)
    (key : α → κ) (f : α → Option ν → ν) (items : List α) :
    ((items.foldl (fun held item => update held (key item) (f item)) table).map
      Prod.fst).Nodup := by
  induction items generalizing table with
  | nil => exact distinct
  | cons first rest ih => exact ih (nodup_update distinct (key first) (f first))

theorem find?_eq_some {table : Table κ ν} (distinct : (table.map Prod.fst).Nodup) {key : κ}
    {value : ν} : find? table key = some value ↔ (key, value) ∈ table := by
  refine ⟨mem_of_find?, fun member => ?_⟩
  induction table with
  | nil => cases member
  | cons entry rest ih =>
    rw [List.map_cons, List.nodup_cons] at distinct
    rcases List.mem_cons.mp member with rfl | later
    · rw [find?, if_pos rfl]
    · have other : entry.1 ≠ key := fun same =>
        distinct.1 (List.mem_map.mpr ⟨(key, value), later, same.symm⟩)
      rw [find?, if_neg other]
      exact ih distinct.2 later

/-- In what order distinct keys stand makes no difference to what is found. -/
theorem find?_of_perm {table other : Table κ ν} (perm : table.Perm other)
    (distinct : (table.map Prod.fst).Nodup) (key : κ) : find? table key = find? other key := by
  have also := (perm.map Prod.fst).nodup_iff.mp distinct
  refine Option.ext fun value => ?_
  rw [find?_eq_some distinct, find?_eq_some also, perm.mem_iff]

end Table

/-! ## What is said about a kind -/

namespace KindDoc

/-- The documentation with later documentation, which overrides it where it says something. -/
def completedBy (doc next : KindDoc) : KindDoc where
  shortName := next.shortName.or doc.shortName
  help := next.help.or doc.help
  canDisplay := doc.canDisplay || next.canDisplay

/-- What a help says. -/
def ofHelp (help : KindHelp) : KindDoc :=
  { shortName := help.shortName, help := help.help }

/-- What any display says. -/
def displayed : KindDoc :=
  { canDisplay := true }

theorem completedBy_ofHelp (doc : KindDoc) (help : KindHelp) :
    doc.completedBy (ofHelp help) = doc.addHelp help := by
  simp [completedBy, ofHelp, addHelp]

theorem completedBy_displayed (doc : KindDoc) :
    doc.completedBy displayed = { doc with canDisplay := true } := by
  simp [completedBy, displayed]

theorem empty_completedBy (doc : KindDoc) : ({} : KindDoc).completedBy doc = doc := by
  simp [completedBy]

instance : Std.Associative completedBy where
  assoc a b c := by simp [completedBy, Option.or_assoc, Bool.or_assoc]

theorem merge_assoc (a b c : Option KindDoc) :
    Option.merge completedBy (Option.merge completedBy a b) c =
      Option.merge completedBy a (Option.merge completedBy b c) :=
  Std.Associative.assoc a b c

/-- What some documentation comes to, if there is any. -/
def together? : List KindDoc → Option KindDoc
  | [] => none
  | doc :: docs => some (docs.foldl completedBy doc)

theorem together?_append (docs others : List KindDoc) :
    together? (docs ++ others) =
      Option.merge completedBy (together? docs) (together? others) := by
  cases docs with
  | nil => cases others <;> rfl
  | cons doc docs =>
    cases others with
    | nil => simp [together?, Option.merge]
    | cons other others =>
      simp only [together?, List.cons_append, List.foldl_append, List.foldl_cons, Option.merge,
        List.foldl_assoc]

theorem isSome_together? (docs : List KindDoc) : (together? docs).isSome = !docs.isEmpty := by
  cases docs <;> rfl

theorem foldl_completedBy (doc : KindDoc) (docs : List KindDoc) :
    docs.foldl completedBy doc =
      { shortName := (docs.filterMap shortName).getLast?.or doc.shortName
        help := (docs.filterMap help).getLast?.or doc.help
        canDisplay := doc.canDisplay || docs.any canDisplay } := by
  induction docs generalizing doc with
  | nil => simp
  | cons first rest ih =>
    rw [List.foldl_cons, ih]
    cases short : first.shortName <;> cases long : first.help <;>
      simp [completedBy, short, long, Bool.or_assoc, List.getLast?_cons]

/-- Of each field the last text that is there, and whether anything says that the kind can be
displayed. -/
theorem eq_of_together? {docs : List KindDoc} {said : KindDoc} (all : together? docs = some said) :
    said = { shortName := (docs.filterMap shortName).getLast?
             help := (docs.filterMap help).getLast?
             canDisplay := docs.any canDisplay } := by
  cases docs with
  | nil => cases all
  | cons doc docs =>
    have whole := foldl_completedBy {} (doc :: docs)
    rw [List.foldl_cons, empty_completedBy] at whole
    cases all
    simpa using whole

end KindDoc

/-! ## What layers say -/

/-- What a layer says about a kind, its helps first. -/
def Layer.remarks (layer : Layer W) (kind : Kind) : List KindDoc :=
  (layer.helps.items.filter (·.kind == kind)).map KindDoc.ofHelp ++
    (layer.displays.items.filter (·.kind == kind)).map fun _ => KindDoc.displayed

/-- The helps of some layers, in the order of the layers and then of registration. -/
def Store.helps (store : Store W) (layers : List LayerId) : List KindHelp :=
  layers.flatMap fun id => (store.layer id).helps.items

theorem DisplayIndex.canDisplay_read (store : Store W) (layers : List LayerId) (kind : Kind) :
    ((Index.ofLayers layers : Index (DisplayIndex W)).read store).canDisplay kind =
      (store.displays layers).any (·.kind == kind) := by
  rw [canDisplay, get?_read, Bool.eq_iff_iff, isSome_lastFor?]
  simp

/-- Whether an entry says of a mapping what has been registered, and whether it can be watched. -/
structure MappingDoc.Describes (doc : MappingDoc) (mapping : Mapping W) : Prop where
  name : doc.name = ":".intercalate mapping.name.tokens
  sourceKind : doc.sourceKind = mapping.source.label
  targetKind : doc.targetKind = mapping.target.label
  isImplicit : doc.isImplicit = mapping.implicit
  parameters : doc.parameters = mapping.parameters
  mutable : doc.mutable = mapping.watch.isSome
  help : doc.help = mapping.help
  metadata : doc.metadata = mapping.metadata

theorem MappingDoc.describes_ofMapping (mapping : Mapping W) :
    (ofMapping mapping).Describes mapping :=
  ⟨rfl, rfl, rfl, rfl, rfl, rfl, rfl, rfl⟩

namespace Documentation

/-- What is listed under a kind. -/
def kind? (doc : Documentation) (kind : Kind) : Option KindDoc :=
  Table.find? doc.kinds kind.label

/-- A table in which items complete what stands under the labels of their kinds. -/
theorem find?_foldl_complete {α : Type} (about : α → Kind) (remark : α → KindDoc) (items : List α)
    (kinds : Table String KindDoc) (kind : Kind) :
    Table.find? (items.foldl (fun held item => Table.update held (about item).label fun old =>
        (old.getD {}).completedBy (remark item)) kinds) kind.label =
      Option.merge KindDoc.completedBy (Table.find? kinds kind.label)
        (KindDoc.together? ((items.filter (about · == kind)).map remark)) := by
  induction items generalizing kinds with
  | nil => simp [KindDoc.together?]
  | cons first rest ih =>
    rw [List.foldl_cons, ih, List.filter_cons]
    by_cases here : about first = kind
    · rw [if_pos (by simpa using here), here, Table.find?_update_self, List.map_cons,
        ← List.singleton_append, KindDoc.together?_append, ← KindDoc.merge_assoc]
      cases Table.find? kinds kind.label <;>
        simp [KindDoc.together?, KindDoc.empty_completedBy, Option.merge]
    · have apart : kind.label ≠ (about first).label := fun same =>
        here (congrArg Kind.mk same.symm)
      rw [if_neg (by simpa using here), Table.find?_update_of_ne kinds _ apart]

theorem addLayer_eq (kinds : Table String KindDoc) (layer : Layer W) :
    addLayer kinds layer =
      layer.displays.items.foldl (fun held display =>
        Table.update held display.kind.label fun old =>
          (old.getD {}).completedBy KindDoc.displayed)
        (layer.helps.items.foldl (fun held help =>
          Table.update held help.kind.label fun old =>
            (old.getD {}).completedBy (KindDoc.ofHelp help)) kinds) := by
  simp only [KindDoc.completedBy_displayed, KindDoc.completedBy_ofHelp]
  rfl

theorem find?_addLayer (kinds : Table String KindDoc) (layer : Layer W) (kind : Kind) :
    Table.find? (addLayer kinds layer) kind.label =
      Option.merge KindDoc.completedBy (Table.find? kinds kind.label)
        (KindDoc.together? (layer.remarks kind)) := by
  rw [addLayer_eq, find?_foldl_complete Display.kind fun _ => KindDoc.displayed,
    find?_foldl_complete KindHelp.kind KindDoc.ofHelp, Layer.remarks, KindDoc.together?_append,
    KindDoc.merge_assoc]

theorem find?_foldl_addLayer (layers : List (Layer W)) (kinds : Table String KindDoc)
    (kind : Kind) :
    Table.find? (layers.foldl addLayer kinds) kind.label =
      Option.merge KindDoc.completedBy (Table.find? kinds kind.label)
        (KindDoc.together? (layers.flatMap (·.remarks kind))) := by
  induction layers generalizing kinds with
  | nil => simp [KindDoc.together?]
  | cons first rest ih =>
    rw [List.foldl_cons, ih, find?_addLayer, List.flatMap_cons, KindDoc.together?_append,
      KindDoc.merge_assoc]

theorem nodup_foldl_addLayer (layers : List (Layer W)) {kinds : Table String KindDoc}
    (distinct : (kinds.map Prod.fst).Nodup) :
    ((layers.foldl addLayer kinds).map Prod.fst).Nodup := by
  induction layers generalizing kinds with
  | nil => exact distinct
  | cons first rest ih =>
    apply ih
    rw [addLayer_eq]
    exact Table.nodup_foldl_update (Table.nodup_foldl_update distinct _ _ _) _ _ _

theorem kinds_ofLayers_perm (layers : List (Layer W)) :
    (ofLayers layers).kinds.Perm (layers.foldl addLayer []) :=
  List.mergeSort_perm _ _

/-- Kinds are listed once each, in the order of their labels. -/
theorem pairwise_kinds_ofLayers (layers : List (Layer W)) :
    (ofLayers layers).kinds.Pairwise fun a b => a.1 < b.1 := by
  have distinct : ((ofLayers layers).kinds.map Prod.fst).Nodup :=
    ((kinds_ofLayers_perm layers).map Prod.fst).nodup_iff.mpr
      (nodup_foldl_addLayer layers List.nodup_nil)
  have sorted : (ofLayers layers).kinds.Pairwise fun a b => decide (a.1 ≤ b.1) = true :=
    List.pairwise_mergeSort (fun a b c => by simpa using String.le_trans)
      (fun a b => by simpa using String.le_total a.1 b.1) _
  refine (sorted.and (List.pairwise_map.mp distinct)).imp fun {a b} ⟨before, apart⟩ => ?_
  exact String.not_le.mp fun after => apart (String.le_antisymm (of_decide_eq_true before) after)

/-- Going through layers comes to taking together what they say about each kind. -/
theorem kind?_ofLayers (layers : List (Layer W)) (kind : Kind) :
    (ofLayers layers).kind? kind = KindDoc.together? (layers.flatMap (·.remarks kind)) := by
  have found := Table.find?_of_perm (kinds_ofLayers_perm layers).symm
    (nodup_foldl_addLayer layers List.nodup_nil) kind.label
  rw [kind?, ← found, find?_foldl_addLayer, Table.find?]
  exact Option.merge_none_left

variable (store : Store W) (layers : List LayerId) (kind : Kind)

/-- Of the texts in what layers say, all are from helps. -/
theorem filterMap_remarks {text : KindDoc → Option String} {from? : KindHelp → Option String}
    (helped : ∀ help, text (.ofHelp help) = from? help) (silent : text .displayed = none) :
    ((layers.map store.layer).flatMap (·.remarks kind)).filterMap text =
      ((store.helps layers).filter (·.kind == kind)).filterMap from? := by
  have helps (items : List KindHelp) :
      (items.map KindDoc.ofHelp).filterMap text = items.filterMap from? := by
    rw [List.filterMap_map]
    exact congrArg (List.filterMap · items) (funext helped)
  have displays (items : List (Display W)) :
      (items.map fun _ => KindDoc.displayed).filterMap text = [] := by
    rw [List.filterMap_map, List.filterMap_eq_nil_iff]
    exact fun _ _ => silent
  simp only [List.flatMap_map, List.filterMap_flatMap, Store.helps, List.filter_flatMap,
    Layer.remarks, List.filterMap_append, helps, displays, List.append_nil]

/-- That a kind can be displayed is said by displays alone. -/
theorem any_remarks :
    ((layers.map store.layer).flatMap (·.remarks kind)).any KindDoc.canDisplay =
      (store.displays layers).any (·.kind == kind) := by
  have helps (items : List KindHelp) :
      (items.map KindDoc.ofHelp).any KindDoc.canDisplay = false := by
    rw [List.any_map, List.any_eq_false]
    exact fun _ _ => Bool.false_ne_true
  have displays (items : List (Display W)) :
      ((items.filter (·.kind == kind)).map fun _ => KindDoc.displayed).any KindDoc.canDisplay =
        items.any (·.kind == kind) := by
    rw [List.any_map, List.any_filter]
    exact congrArg items.any (funext fun _ => Bool.and_true _)
  simp only [List.flatMap_map, List.any_flatMap, Store.displays, Layer.remarks, List.any_append,
    helps, displays, Bool.false_or]

theorem isSome_kind?_ofLayers :
    ((ofLayers (layers.map store.layer)).kind? kind).isSome = true ↔
      (∃ help ∈ store.helps layers, help.kind = kind) ∨
        ∃ display ∈ store.displays layers, display.kind = kind := by
  have quiet : (layers.map store.layer).flatMap (·.remarks kind) = [] ↔
      (∀ help ∈ store.helps layers, help.kind ≠ kind) ∧
        ∀ display ∈ store.displays layers, display.kind ≠ kind := by
    simp only [Store.helps, Store.displays, List.forall_mem_flatMap, List.flatMap_eq_nil_iff,
      List.forall_mem_map, Layer.remarks, List.append_eq_nil_iff, List.map_eq_nil_iff,
      List.filter_eq_nil_iff, beq_iff_eq, ne_eq, forall_and]
  rw [kind?_ofLayers, KindDoc.isSome_together?]
  grind

/-- The entries describe the mappings of the layers, one for one. -/
theorem forall₂_describes : List.Forall₂ MappingDoc.Describes
    (ofLayers (layers.map store.layer)).mappings (store.mappings layers) := by
  have entries : (ofLayers (layers.map store.layer)).mappings =
      (store.mappings layers).map MappingDoc.ofMapping := by
    simp [ofLayers, Store.mappings, List.flatMap_map, List.map_flatMap]
  rw [entries, List.forall₂_map_left_iff, List.forall₂_same]
  exact fun mapping _ => MappingDoc.describes_ofMapping mapping

/-- Documentation of layers agrees with the indices over them, whatever has been registered. Each
kind that has a help or a display is listed once; it can be displayed if the index of displays says
so; and its short name and its help are the last ones given, in the order of the layers and then of
registration. The mappings are listed one for one in that order, each under its name and with its
kinds, its parameters and all else that is registered with it, as mutable if it can be watched. And
the documentation of layers that follow completes that of those before. -/
theorem ofLayers_read :
    let doc : Documentation := .ofLayers (layers.map store.layer)
    let indices : Indices W := .ofLayers layers
    doc.kinds.Pairwise (fun a b => a.1 < b.1) ∧
    (∀ kind, (doc.kind? kind).isSome = true ↔
      (∃ help ∈ store.helps layers, help.kind = kind) ∨
        ∃ display ∈ store.displays layers, display.kind = kind) ∧
    (∀ kind, ∀ said ∈ doc.kind? kind,
      said.canDisplay = (indices.displays.read store).canDisplay kind ∧
      said.shortName = (((store.helps layers).filter (·.kind == kind)).filterMap
        KindHelp.shortName).getLast? ∧
      said.help = (((store.helps layers).filter (·.kind == kind)).filterMap
        KindHelp.help).getLast?) ∧
    List.Forall₂ MappingDoc.Describes doc.mappings (store.mappings layers) ∧
    ∀ more : List LayerId,
      let next : Documentation := .ofLayers (more.map store.layer)
      let both : Documentation := .ofLayers ((layers ++ more).map store.layer)
      both.mappings = doc.mappings ++ next.mappings ∧
      ∀ kind, both.kind? kind =
        Option.merge KindDoc.completedBy (doc.kind? kind) (next.kind? kind) := by
  intro doc indices
  refine ⟨pairwise_kinds_ofLayers _, fun kind => ?_, fun kind said listed => ?_, ?_,
    fun more => ⟨?_, fun kind => ?_⟩⟩
  · exact isSome_kind?_ofLayers store layers kind
  · rw [kind?_ofLayers] at listed
    have fields := KindDoc.eq_of_together? listed
    rw [any_remarks] at fields
    subst fields
    refine ⟨?_, ?_, ?_⟩
    · exact (DisplayIndex.canDisplay_read store layers kind).symm
    · exact congrArg List.getLast? (filterMap_remarks store layers kind (fun _ => rfl) rfl)
    · exact congrArg List.getLast? (filterMap_remarks store layers kind (fun _ => rfl) rfl)
  · exact forall₂_describes store layers
  · simp [doc, ofLayers]
  · simp only [doc, kind?_ofLayers, List.map_append, List.flatMap_append, KindDoc.together?_append]

end Documentation

end TypedTemplate
