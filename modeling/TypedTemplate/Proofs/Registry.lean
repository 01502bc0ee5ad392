import TypedTemplate.Registry.Indices

/-!
What the indices over some layers show of the mappings in them. Nothing is lost and
nothing is made up: a mapping is found from its source by every reference that its name
matches, and by implicit steps if it is implicit (`Indices.shows_mappings`).
-/
namespace TypedTemplate

variable {W : Type}

theorem Table.mem_of_find? {κ ν : Type} [DecidableEq κ] {table : Table κ ν} {key : κ} {value : ν}
    (found : Table.find? table key = some value) : (key, value) ∈ table := by
  induction table with
  | nil => cases found
  | cons entry rest ih =>
    obtain ⟨k, v⟩ := entry
    rw [find?] at found
    split at found
    · rename_i same
      cases found
      rw [same]
      exact List.mem_cons_self
    · exact List.mem_cons_of_mem _ (ih found)

/-- A reference ends in the same token as each name that it matches. -/
theorem Name.short_eq_of_skipped? {name reference : Name} {score : Nat}
    (matched : name.skipped? reference = some score) : name.short = reference.short := by
  unfold skipped? at matched
  split at matched
  · cases matched
  · rename_i differs
    simp only [Bool.or_eq_true, bne_iff_ne, ne_eq, not_or,
      Decidable.not_not] at differs
    rw [short, short, differs.2]

/-- Views that take in each item where it fits, and change nowhere else, hold in the end
just the items that fit. -/
theorem mem_foldl_absorb {β α : Type} {absorb : β → α → β} (held : β → List α) {fits : α → Prop}
    (step : ∀ view added item,
      item ∈ held (absorb view added) ↔ item ∈ held view ∨ item = added ∧ fits added)
    (view : β) (items : List α) (item : α) :
    item ∈ held (items.foldl absorb view) ↔ item ∈ held view ∨ item ∈ items ∧ fits item := by
  induction items generalizing view with
  | nil => simp
  | cons first rest ih =>
    rw [List.foldl_cons, ih, step, List.mem_cons]
    constructor
    · rintro ((old | ⟨rfl, here⟩) | later)
      · exact .inl old
      · exact .inr ⟨.inl rfl, here⟩
      · exact .inr ⟨.inr later.1, later.2⟩
    · rintro (old | ⟨rfl | later, here⟩)
      · exact .inl (.inl old)
      · exact .inl (.inr ⟨rfl, here⟩)
      · exact .inr ⟨later, here⟩

/-! ## Named mappings -/

namespace NamedIndex

/-- The mappings under a source kind and a short name. -/
def under (index : NamedIndex W) (key : Kind × String) : List (Mapping W) :=
  (Table.find? index.byName key).getD []

theorem mem_under_absorb (key : Kind × String) (index : NamedIndex W) (added mapping : Mapping W) :
    mapping ∈ (Indexes.absorb index added).under key ↔
      mapping ∈ index.under key ∨ mapping = added ∧ (added.source, added.name.short) = key := by
  by_cases same : (added.source, added.name.short) = key
  · subst same
    simp [under, Indexes.absorb]
  · simp [under, Indexes.absorb, Table.find?_update_of_ne _ _ (Ne.symm same), same]

theorem mem_find (index : NamedIndex W) (source : Kind) (reference : Name) (found : Scored W) :
    found ∈ index.find source reference ↔
      found.mapping ∈ index.under (source, reference.short) ∧
        found.mapping.name.skipped? reference = some found.score := by
  obtain ⟨mapping, score⟩ := found
  rw [find, under, List.mem_filterMap]
  constructor
  · rintro ⟨other, member, fits⟩
    obtain ⟨found, matched, same⟩ := Option.map_eq_some_iff.mp fits
    cases same
    exact ⟨member, matched⟩
  · rintro ⟨member, matched⟩
    exact ⟨mapping, member, by rw [matched]; rfl⟩

theorem mem_targets {index : NamedIndex W} {mapping : Mapping W} {key : Kind × String}
    (member : mapping ∈ index.under key) : mapping.target ∈ index.targets := by
  rw [under] at member
  cases found : Table.find? index.byName key with
  | none => simp [found] at member
  | some mappings =>
    rw [found] at member
    exact List.mem_flatMap.mpr
      ⟨(key, mappings), Table.mem_of_find? found, List.mem_map_of_mem member⟩

end NamedIndex

/-! ## Implicit mappings -/

namespace ImplicitIndex

theorem mem_get_absorb (source : Kind) (index : ImplicitIndex W) (added mapping : Mapping W) :
    mapping ∈ (Indexes.absorb index added).get source ↔
      mapping ∈ index.get source ∨
        mapping = added ∧ added.implicit = true ∧ added.source = source := by
  cases free : added.implicit with
  | false => simp [Indexes.absorb, free]
  | true =>
    by_cases same : added.source = source
    · subst same
      simp [get, Indexes.absorb, free, or_comm]
    · simp [get, Indexes.absorb, free, Table.find?_update_of_ne _ _ (Ne.symm same), same]

end ImplicitIndex

/-! ## All layers -/

namespace Store

@[simp] theorem layer_add_self (store : Store W) (layer : Layer W) :
    (store.add layer).2.layer store.layers.length = layer := by
  simp [Store.layer, add]

theorem layer_add_of_ne {store : Store W} {layer : Layer W} {id : LayerId}
    (other : id ≠ store.layers.length) : (store.add layer).2.layer id = store.layer id := by
  rcases Nat.lt_or_gt_of_ne other with inside | outside
  · simp [Store.layer, add, List.getElem?_append_left inside]
  · have none : store.layers[id]? = Option.none := by simp; omega
    have still : (store.layers ++ [layer])[id]? = Option.none := by simp; omega
    simp [Store.layer, add, none, still]

/-- A number that has not been given out stands for an empty layer. -/
theorem layer_length (store : Store W) : store.layer store.layers.length = .empty := by
  simp [Store.layer]

end Store

/-- The mappings of some layers, in the order of the layers and then of registration. -/
def Store.mappings (store : Store W) (layers : List LayerId) : List (Mapping W) :=
  layers.flatMap fun id => (store.layer id).mappings.items

theorem Index.read_ofLayers {β ι : Type} [Indexes β W ι] (store : Store W)
    (sources : List LayerId) :
    (ofLayers sources : Index β).read store =
      (sources.flatMap fun id => (Indexes.registry β (store.layer id)).items).foldl
        Indexes.absorb Indexes.empty := by
  rw [List.foldl_flatMap]
  rfl

theorem NamedIndex.mem_under_read (store : Store W) (layers : List LayerId)
    (key : Kind × String) (mapping : Mapping W) :
    mapping ∈ ((Index.ofLayers layers : Index (NamedIndex W)).read store).under key ↔
      mapping ∈ store.mappings layers ∧ (mapping.source, mapping.name.short) = key := by
  have view : (Index.ofLayers layers : Index (NamedIndex W)).read store =
      (store.mappings layers).foldl Indexes.absorb ⟨[]⟩ := Index.read_ofLayers store layers
  rw [view, mem_foldl_absorb (under · key) (mem_under_absorb key)]
  exact or_iff_right List.not_mem_nil

theorem NamedIndex.mem_find_read (store : Store W) (layers : List LayerId) (source : Kind)
    (call : Name) (found : Scored W) :
    found ∈ ((Index.ofLayers layers : Index (NamedIndex W)).read store).find source call ↔
      found.mapping ∈ store.mappings layers ∧ found.mapping.source = source ∧
        found.mapping.name.skipped? call = some found.score := by
  rw [mem_find, mem_under_read]
  constructor
  · rintro ⟨⟨member, same⟩, matched⟩
    exact ⟨member, congrArg Prod.fst same, matched⟩
  · rintro ⟨member, rfl, matched⟩
    exact ⟨⟨member, by rw [Name.short_eq_of_skipped? matched]⟩, matched⟩

theorem ImplicitIndex.mem_get_read (store : Store W) (layers : List LayerId) (source : Kind)
    (mapping : Mapping W) :
    mapping ∈ ((Index.ofLayers layers : Index (ImplicitIndex W)).read store).get source ↔
      mapping ∈ store.mappings layers ∧ mapping.implicit = true ∧ mapping.source = source := by
  have view : (Index.ofLayers layers : Index (ImplicitIndex W)).read store =
      (store.mappings layers).foldl Indexes.absorb ⟨[]⟩ := Index.read_ofLayers store layers
  rw [view, mem_foldl_absorb (get · source) (mem_get_absorb source)]
  exact or_iff_right List.not_mem_nil

/-! ## Displays -/

/-- The displays of some layers, in the order of the layers and then of registration. -/
def Store.displays (store : Store W) (layers : List LayerId) : List (Display W) :=
  layers.flatMap fun id => (store.layer id).displays.items

/-- The last of some displays that is for a kind. -/
def lastFor? (displays : List (Display W)) (kind : Kind) : Option (Display W) :=
  (displays.filter (·.kind == kind)).getLast?

theorem isSome_lastFor? {displays : List (Display W)} {kind : Kind} :
    (lastFor? displays kind).isSome = true ↔ ∃ display ∈ displays, display.kind = kind := by
  simp [lastFor?]

theorem kind_of_lastFor? {displays : List (Display W)} {kind : Kind} {display : Display W}
    (found : lastFor? displays kind = some display) : display.kind = kind := by
  have member := List.mem_of_getLast? found
  simpa using (List.mem_filter.mp member).2

/-- A table into which items are put under their keys, each in place of the one before, holds
the last item of each key. -/
theorem Table.find?_foldl_update {α κ ν : Type} [DecidableEq κ] (key : α → κ) (value : α → ν)
    (items : List α) (table : Table κ ν) (wanted : κ) :
    find? (items.foldl (fun held item => update held (key item) fun _ => value item) table) wanted =
      ((items.filter (key · == wanted)).getLast?.map value).or (find? table wanted) := by
  induction items generalizing table with
  | nil => rfl
  | cons first rest ih =>
    rw [List.foldl_cons, ih, List.filter_cons]
    by_cases same : key first = wanted
    · subst same
      rw [if_pos (beq_self_eq_true _), List.getLast?_cons, find?_update_self]
      cases (rest.filter (key · == key first)).getLast? <;> rfl
    · rw [if_neg (by simpa using same), find?_update_of_ne table _ (Ne.symm same)]

theorem DisplayIndex.get?_foldl (displays : List (Display W)) (index : DisplayIndex W)
    (kind : Kind) :
    (displays.foldl Indexes.absorb index).get? kind =
      (lastFor? displays kind).or (index.get? kind) := by
  have table : displays.foldl (fun held display =>
        Table.update held display.kind fun _ => display) index.byKind =
      (displays.foldl Indexes.absorb index).byKind :=
    List.foldl_hom DisplayIndex.byKind fun _ _ => rfl
  rw [get?, ← table, Table.find?_foldl_update Display.kind fun display => display]
  simp [lastFor?, get?]

/-- The display of a kind is the last one that is registered for it. -/
theorem DisplayIndex.get?_read (store : Store W) (layers : List LayerId) (kind : Kind) :
    ((Index.ofLayers layers : Index (DisplayIndex W)).read store).get? kind =
      lastFor? (store.displays layers) kind := by
  rw [Index.read_ofLayers]
  refine (get?_foldl (store.displays layers) Indexes.empty kind).trans ?_
  exact Option.or_none

/-! ## Directories -/

/-- Whether a directory shows just these mappings to the search for paths. -/
structure Directory.Shows (directory : Directory W) (mappings : List (Mapping W)) : Prop where
  named : ∀ source call found, found ∈ directory.named.find source call ↔
    found.mapping ∈ mappings ∧ found.mapping.source = source ∧
      found.mapping.name.skipped? call = some found.score
  implicits : ∀ source mapping, mapping ∈ directory.implicits.get source ↔
    mapping ∈ mappings ∧ mapping.implicit = true ∧ mapping.source = source
  targets : ∀ mapping ∈ mappings, mapping.target ∈ directory.named.targets

theorem Indices.shows_mappings (store : Store W) (layers : List LayerId) :
    ((Indices.ofLayers layers).directory store).Shows (store.mappings layers) := by
  rw [directory, ofLayers]
  refine ⟨NamedIndex.mem_find_read store layers, ImplicitIndex.mem_get_read store layers,
    fun mapping member => ?_⟩
  exact NamedIndex.mem_targets
    ((NamedIndex.mem_under_read store layers _ mapping).mpr ⟨member, rfl⟩)

end TypedTemplate
