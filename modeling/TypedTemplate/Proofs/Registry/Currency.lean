import TypedTemplate.Proofs.Registry

/-!
An index is never stale. Registries only grow, so a registry with the generation that an
index has seen still holds what the index has taken in (`Registry.Grows.eq_of_generation`).
What an index remembers was therefore right for an earlier state of its layers, or it
remembers nothing (`Index.Mirrors`), and reading it gives the view of all items that there
are now, whatever has been appended, copied, inserted and read before.
-/
namespace TypedTemplate

variable {W : Type}

/-! ## Growth -/

namespace Registry

variable {α : Type}

/-- Items are appended, and the generation counts them. -/
def Grows (before after : Registry α) : Prop :=
  ∃ added, after = ⟨before.items ++ added, before.generation + added.length⟩

theorem Grows.refl (registry : Registry α) : registry.Grows registry := ⟨[], by simp⟩

theorem Grows.trans {first second third : Registry α} (left : first.Grows second)
    (right : second.Grows third) : first.Grows third := by
  obtain ⟨earlier, rfl⟩ := left
  obtain ⟨later, rfl⟩ := right
  exact ⟨earlier ++ later, by simp [Nat.add_assoc]⟩

theorem grows_register (registry : Registry α) (item : α) :
    registry.Grows (registry.register item) := ⟨[item], rfl⟩

/-- Without a new generation there is no new item. -/
theorem Grows.eq_of_generation {before after : Registry α} (grows : before.Grows after)
    (same : before.generation = after.generation) : before = after := by
  obtain ⟨added, rfl⟩ := grows
  have none : added = [] := by simpa using same
  simp [none]

/-- What comes of a request to append an item: it is last, unless a check has refused it. -/
inductive Takes (before : Registry α) : Registry α → Prop
  | registered (item : α) : Takes before (before.register item)
  | accepted {ε : Type} {item : α} {check : List α → α → Except ε Unit} {after : Registry α}
      (checked : before.registerChecked item check = .ok after) : Takes before after
  | refused {ε : Type} {item : α} {check : List α → α → Except ε Unit} {cause : ε}
      (checked : before.registerChecked item check = .error cause) : Takes before before

theorem Takes.grows {before after : Registry α} (takes : before.Takes after) :
    before.Grows after := by
  cases takes with
  | registered item => exact before.grows_register item
  | @accepted _ item _ _ checked =>
    unfold registerChecked at checked
    split at checked
    · cases checked
      exact before.grows_register item
    · cases checked
  | refused _ => exact .refl before

end Registry

namespace Layer

structure Grows (before after : Layer W) : Prop where
  helps : before.helps.Grows after.helps
  displays : before.displays.Grows after.displays
  mappings : before.mappings.Grows after.mappings
  hints : before.hints.Grows after.hints

theorem Grows.refl (layer : Layer W) : layer.Grows layer := ⟨.refl _, .refl _, .refl _, .refl _⟩

theorem Grows.trans {first second third : Layer W} (left : first.Grows second)
    (right : second.Grows third) : first.Grows third :=
  ⟨left.helps.trans right.helps, left.displays.trans right.displays,
    left.mappings.trans right.mappings, left.hints.trans right.hints⟩

/-- A request to append an item to one of the registries. -/
inductive Takes (before : Layer W) : Layer W → Prop
  | helps {helps : Registry KindHelp} (takes : before.helps.Takes helps) :
      Takes before { before with helps }
  | displays {displays : Registry (Display W)} (takes : before.displays.Takes displays) :
      Takes before { before with displays }
  | mappings {mappings : Registry (Mapping W)} (takes : before.mappings.Takes mappings) :
      Takes before { before with mappings }
  | hints {hints : Registry TypeHint} (takes : before.hints.Takes hints) :
      Takes before { before with hints }

theorem Takes.grows {before after : Layer W} (takes : before.Takes after) :
    before.Grows after := by
  cases takes with
  | helps takes => exact ⟨takes.grows, .refl _, .refl _, .refl _⟩
  | displays takes => exact ⟨.refl _, takes.grows, .refl _, .refl _⟩
  | mappings takes => exact ⟨.refl _, .refl _, takes.grows, .refl _⟩
  | hints takes => exact ⟨.refl _, .refl _, .refl _, takes.grows⟩

end Layer

namespace Store

/-- All layers grow, also those whose numbers have not been given out, which are empty. -/
def Grows (before after : Store W) : Prop := ∀ id, (before.layer id).Grows (after.layer id)

theorem Grows.refl (store : Store W) : store.Grows store := fun _ => .refl _

theorem Grows.trans {first second third : Store W} (left : first.Grows second)
    (right : second.Grows third) : first.Grows third :=
  fun id => (left id).trans (right id)

theorem grows_set {store : Store W} {id : LayerId} {layer : Layer W}
    (grows : (store.layer id).Grows layer) : store.Grows (store.set id layer) := by
  intro other
  by_cases same : other = id
  · subst same
    by_cases inside : other < store.layers.length
    · simpa [Store.layer, set, inside] using grows
    · simpa [Store.layer, set, inside] using Layer.Grows.refl .empty
  · have kept : (store.set id layer).layer other = store.layer other := by
      simp [Store.layer, set, List.getElem?_set_ne (Ne.symm same)]
    rw [kept]
    exact .refl _

theorem grows_add {store : Store W} {layer : Layer W} (grows : Layer.empty.Grows layer) :
    store.Grows (store.add layer).2 := by
  intro other
  by_cases new : other = store.layers.length
  · rw [new, layer_length, layer_add_self]
    exact grows
  · rw [layer_add_of_ne new]
    exact .refl _

end Store

/-! ## Indices -/

/-- Whether the registry that an index is about is one of the layer's, and grows with it. -/
class Indexes.IsLawful (β : Type) {W ι : outParam Type} [Indexes β W ι] : Prop where
  grows : ∀ {before after : Layer W}, before.Grows after →
    (Indexes.registry β before).Grows (Indexes.registry β after)

instance : Indexes.IsLawful (NamedIndex W) := ⟨fun grows => grows.mappings⟩

instance : Indexes.IsLawful (ImplicitIndex W) := ⟨fun grows => grows.mappings⟩

instance : Indexes.IsLawful (DisplayIndex W) := ⟨fun grows => grows.displays⟩

instance : Indexes.IsLawful (HintIndex W) := ⟨fun grows => grows.hints⟩

instance : Indexes.IsLawful (HelpIndex W) := ⟨fun grows => grows.helps⟩

namespace Index

section Lawful

variable {β ι : Type} [Indexes β W ι]

/-- All items of some layers, in the order of the layers and then of registration. -/
def items (β : Type) {ι : Type} [Indexes β W ι] (store : Store W) (sources : List LayerId) :
    List ι :=
  sources.flatMap fun id => (Indexes.registry β (store.layer id)).items

theorem build_eq_foldl (store : Store W) (sources : List LayerId) :
    (build store sources : β) = (items β store sources).foldl Indexes.absorb Indexes.empty := by
  rw [items, List.foldl_flatMap]
  rfl

/-- What an index remembers, if anything, is what it would have been built from the layers
as they were at some time. -/
def Mirrors (store : Store W) (index : Index β) : Prop :=
  ∀ generations, index.synced = some generations → ∃ earlier : Store W, earlier.Grows store ∧
    generations = index.generations earlier ∧ index.view = build earlier index.sources

theorem mirrors_of_synced_none (store : Store W) {index : Index β} (none : index.synced = none) :
    index.Mirrors store :=
  fun generations synced => by simp [none] at synced

theorem Mirrors.grow {before after : Store W} {index : Index β} (mirrors : index.Mirrors before)
    (grows : before.Grows after) : index.Mirrors after := by
  intro generations synced
  obtain ⟨earlier, past, seen, view⟩ := mirrors generations synced
  exact ⟨earlier, past.trans grows, seen, view⟩

theorem Mirrors.sync {store : Store W} {index : Index β} (mirrors : index.Mirrors store) :
    (index.sync store).Mirrors store := by
  rw [Index.sync]
  split
  · exact mirrors
  · rintro generations synced
    cases synced
    exact ⟨store, .refl store, rfl, rfl⟩

theorem sources_sync (store : Store W) (index : Index β) :
    (index.sync store).sources = index.sources := by
  rw [Index.sync]
  split <;> rfl

variable [Indexes.IsLawful β]

/-- Layers whose generations have not changed show the same. -/
theorem build_eq_of_generations {before after : Store W} (grows : before.Grows after)
    {sources : List LayerId}
    (same : (sources.map fun id => (Indexes.registry β (before.layer id)).generation) =
      sources.map fun id => (Indexes.registry β (after.layer id)).generation) :
    (build before sources : β) = build after sources := by
  have unchanged : ∀ id ∈ sources,
      Indexes.registry β (before.layer id) = Indexes.registry β (after.layer id) := by
    intro id member
    exact (Indexes.IsLawful.grows (grows id)).eq_of_generation (List.map_inj_left.mp same id member)
  have sameItems : items β before sources = items β after sources := by
    rw [items, items, List.flatMap_def, List.flatMap_def,
      List.map_congr_left fun id member => by rw [unchanged id member]]
  rw [build_eq_foldl, build_eq_foldl, sameItems]

/-- Reading gives the view of all items that there are now. -/
theorem Mirrors.read_eq {store : Store W} {index : Index β} (mirrors : index.Mirrors store) :
    index.read store = (items β store index.sources).foldl Indexes.absorb Indexes.empty := by
  rw [← build_eq_foldl, read, Index.sync]
  split
  · rename_i current
    obtain ⟨earlier, grows, seen, view⟩ := mirrors _ current
    rw [view]
    exact build_eq_of_generations grows seen.symm
  · rfl

/-- Indices over the same layers show the same, whatever they remember. -/
theorem Mirrors.read_congr {store : Store W} {first second : Index β}
    (left : first.Mirrors store) (right : second.Mirrors store)
    (same : first.sources = second.sources) : first.read store = second.read store := by
  rw [left.read_eq, right.read_eq, same]

end Lawful

end Index

/-! ## Runs -/

/-- An index of any sort. -/
structure AnyIndex (W : Type) where
  {View : Type}
  {Item : Type}
  [indexes : Indexes View W Item]
  [lawful : Indexes.IsLawful View]
  index : Index View

namespace AnyIndex

instance (any : AnyIndex W) : Indexes any.View W any.Item := any.indexes

instance (any : AnyIndex W) : Indexes.IsLawful any.View := any.lawful

def insert (any : AnyIndex W) (position : Nat) (id : LayerId) : AnyIndex W :=
  ⟨any.index.insert position id⟩

def sync (store : Store W) (any : AnyIndex W) : AnyIndex W := ⟨any.index.sync store⟩

end AnyIndex

/-- Layers and the indices that share them. -/
structure Archive (W : Type) where
  store : Store W
  indices : List (AnyIndex W)

namespace Archive

/-- Adds a layer to one of the indices. -/
def insert (archive : Archive W) (place position : Nat) (id : LayerId) : Archive W :=
  { archive with indices := archive.indices.modify place fun any => any.insert position id }

/-- Reads one of the indices, which brings it up to date. -/
def look (archive : Archive W) (place : Nat) : Archive W :=
  { archive with indices := archive.indices.modify place (AnyIndex.sync archive.store) }

/-- The states that operations on layers and indices lead to, in any order. -/
inductive Run : Archive W → Prop
  | created : Run ⟨.empty, []⟩
  | shared {archive : Archive W} (run : Run archive) :
      Run { archive with store := (archive.store.add .empty).2 }
  | appended {archive : Archive W} (run : Run archive) {id : LayerId} {layer : Layer W}
      (takes : (archive.store.layer id).Takes layer) :
      Run { archive with store := archive.store.set id layer }
  | opened {archive : Archive W} (run : Run archive) (β : Type) {ι : Type} [Indexes β W ι]
      [Indexes.IsLawful β] (sources : List LayerId) :
      Run { archive with indices := archive.indices ++ [⟨(.ofLayers sources : Index β)⟩] }
  | copied {archive : Archive W} (run : Run archive) {any : AnyIndex W}
      (known : any ∈ archive.indices) :
      Run { archive with indices := archive.indices ++ [any] }
  | inserted {archive : Archive W} (run : Run archive) (place position : Nat) (id : LayerId) :
      Run (archive.insert place position id)
  | looked {archive : Archive W} (run : Run archive) (place : Nat) : Run (archive.look place)

/-- What every operation keeps. -/
def Mirrors (archive : Archive W) : Prop :=
  ∀ any ∈ archive.indices, any.index.Mirrors archive.store

namespace Mirrors

variable {archive : Archive W}

theorem grow (mirrors : archive.Mirrors) {store : Store W} (grows : archive.store.Grows store) :
    Mirrors { archive with store } :=
  fun any member => (mirrors any member).grow grows

theorem append (mirrors : archive.Mirrors) {any : AnyIndex W}
    (new : any.index.Mirrors archive.store) :
    Mirrors { archive with indices := archive.indices ++ [any] } := by
  intro other member
  rcases List.mem_append.mp member with old | last
  · exact mirrors other old
  · rw [List.mem_singleton.mp last]
    exact new

theorem modify (mirrors : archive.Mirrors) {change : AnyIndex W → AnyIndex W}
    (changed : ∀ any ∈ archive.indices, (change any).index.Mirrors archive.store) (place : Nat) :
    Mirrors { archive with indices := archive.indices.modify place change } := by
  intro any member
  obtain ⟨other, found⟩ := List.getElem?_of_mem member
  rw [List.getElem?_modify] at found
  obtain ⟨old, known, same⟩ := Option.map_eq_some_iff.mp found
  have inside := List.mem_of_getElem? known
  by_cases here : place = other
  · rw [if_pos here] at same
    exact same ▸ changed old inside
  · rw [if_neg here] at same
    exact same ▸ mirrors old inside

end Mirrors

theorem Run.mirrors {archive : Archive W} (run : archive.Run) : archive.Mirrors := by
  induction run with
  | created => simp [Mirrors]
  | shared _ ih => exact ih.grow (Store.grows_add (.refl _))
  | appended _ takes ih => exact ih.grow (Store.grows_set takes.grows)
  | opened _ β sources ih => exact ih.append (Index.mirrors_of_synced_none _ rfl)
  | copied _ known ih => exact ih.append (ih _ known)
  | inserted _ place position id ih =>
    exact ih.modify (fun _ _ => Index.mirrors_of_synced_none _ rfl) place
  | looked _ place ih => exact ih.modify (fun any member => (ih any member).sync) place

/-- An index is never stale. In every state that appending to registries, with or without
checks, opening and copying indices, adding layers to them at any position and reading them
lead to, reading an index gives what all items of its layers make of an empty view, in the
order of the layers and then of registration; and adding a layer to one index changes no
other. -/
theorem Run.isCurrent {archive : Archive W} (run : archive.Run) :
    (∀ any ∈ archive.indices, any.index.read archive.store =
      (Index.items any.View archive.store any.index.sources).foldl
        Indexes.absorb Indexes.empty) ∧
      ∀ place position id other, other ≠ place →
        (archive.insert place position id).indices[other]? = archive.indices[other]? := by
  refine ⟨fun any member => (run.mirrors any member).read_eq, ?_⟩
  intro place position id other apart
  simp [insert, Ne.symm apart]

/-- Texts are words in one layer and names in another. An index of the first layer is read
and copied, and the other layer is added past the end of the copy only. -/
theorem Run.isCurrent_hints :
    let words : Layer Unit := Layer.empty.registerHint ⟨.text, "words"⟩
    let names : Layer Unit := Layer.empty.registerHint ⟨.text, "names"⟩
    let read : Index (HintIndex Unit) := (Index.ofLayers [0]).sync ⟨[words]⟩
    let archive : Archive Unit := ⟨⟨[words, names]⟩, [⟨read⟩, ⟨read.insert 7 1⟩]⟩
    archive.Run ∧
      (∀ any ∈ archive.indices, any.index.read archive.store =
        (Index.items any.View archive.store any.index.sources).foldl
          Indexes.absorb Indexes.empty) ∧
      (read.read archive.store).get? .text = some "words" ∧
      ((read.insert 7 1).read archive.store).get? .text = some "names" := by
  intro words names read archive
  have opened : Run (⟨⟨[words]⟩, [⟨(.ofLayers [0] : Index (HintIndex Unit))⟩]⟩ : Archive Unit) :=
    .opened (@Run.appended _ _ (.shared .created) 0 words (.hints (.registered _))) _ [0]
  have copied : Run (⟨⟨[words]⟩, [⟨read⟩, ⟨read⟩]⟩ : Archive Unit) :=
    @Run.copied _ _ (opened.looked 0) ⟨read⟩ (.head _)
  have run : archive.Run :=
    .inserted (@Run.appended _ _ (.shared copied) 1 names (.hints (.registered _))) 1 7 1
  exact ⟨run, run.isCurrent.1, rfl, rfl⟩

end Archive

end TypedTemplate
