import Mathlib.Data.List.Basic
import TypedTemplate.Proofs.Name
import TypedTemplate.Proofs.Registry

/-!
What an index finds is what a look through all mappings finds, in the same order. Filing
mappings under their kinds and short names neither loses nor moves one: the named ones stand in
the order of the layers and then of registration (`NamedIndex.find_read`), the implicit ones the
other way round (`ImplicitIndex.get_read`), and of displays and declarations of kinds the last one
counts (`Indices.scan_read`).
-/
namespace TypedTemplate

variable {W : Type}

/-- The mappings from a kind that a reference may mean, with the tokens that it leaves out. -/
def matchesFor (mappings : List (Mapping W)) (source : Kind) (reference : Name) : List (Scored W) :=
  mappings.filterMap fun mapping =>
    if mapping.source = source then (mapping.name.skipped? reference).map (Scored.mk mapping)
    else none

theorem matchesFor_append (mappings others : List (Mapping W)) (source : Kind) (reference : Name) :
    matchesFor (mappings ++ others) source reference =
      matchesFor mappings source reference ++ matchesFor others source reference :=
  List.filterMap_append

/-- The implicit mappings from a kind, the newest first. -/
def implicitsFrom (mappings : List (Mapping W)) (source : Kind) : List (Mapping W) :=
  (mappings.filter fun mapping => mapping.implicit && decide (mapping.source = source)).reverse

theorem NamedIndex.under_foldl (mappings : List (Mapping W)) (index : NamedIndex W)
    (key : Kind × String) :
    (mappings.foldl Indexes.absorb index).under key =
      index.under key ++ mappings.filter fun mapping =>
        decide ((mapping.source, mapping.name.short) = key) := by
  induction mappings generalizing index with
  | nil => simp
  | cons first rest ih =>
    rw [List.foldl_cons, ih, List.filter_cons]
    by_cases same : (first.source, first.name.short) = key
    · subst same
      simp [under, Indexes.absorb]
    · simp [under, Indexes.absorb, Table.find?_update_of_ne _ _ (Ne.symm same), same]

theorem NamedIndex.find_read (store : Store W) (layers : List LayerId) (source : Kind)
    (reference : Name) :
    ((Index.ofLayers layers : Index (NamedIndex W)).read store).find source reference =
      matchesFor (store.mappings layers) source reference := by
  have view : (Index.ofLayers layers : Index (NamedIndex W)).read store =
      (store.mappings layers).foldl Indexes.absorb ⟨[]⟩ := Index.read_ofLayers store layers
  have filed := under_foldl (store.mappings layers) ⟨[]⟩ (source, reference.short)
  rw [under, under, Table.find?, Option.getD_none, List.nil_append] at filed
  rw [view, find, filed, List.filterMap_filter, matchesFor]
  -- A mapping under another short name is not meant, so it makes no difference to leave it out.
  refine List.filterMap_congr fun mapping _ => ?_
  by_cases here : mapping.source = source
  · cases matched : mapping.name.skipped? reference with
    | none => simp
    | some score => simp [here, Name.short_eq_of_skipped? matched]
  · simp [here]

theorem ImplicitIndex.get_foldl (mappings : List (Mapping W)) (index : ImplicitIndex W)
    (source : Kind) :
    (mappings.foldl Indexes.absorb index).get source =
      implicitsFrom mappings source ++ index.get source := by
  induction mappings generalizing index with
  | nil => rfl
  | cons first rest ih =>
    rw [List.foldl_cons, ih, implicitsFrom, implicitsFrom, List.filter_cons]
    cases free : first.implicit with
    | false => simp [Indexes.absorb, free]
    | true =>
      by_cases same : first.source = source
      · subst same
        simp [get, Indexes.absorb, free]
      · simp [get, Indexes.absorb, free, same, Table.find?_update_of_ne _ _ (Ne.symm same)]

theorem ImplicitIndex.get_read (store : Store W) (layers : List LayerId) (source : Kind) :
    ((Index.ofLayers layers : Index (ImplicitIndex W)).read store).get source =
      implicitsFrom (store.mappings layers) source := by
  have view : (Index.ofLayers layers : Index (ImplicitIndex W)).read store =
      (store.mappings layers).foldl Indexes.absorb ⟨[]⟩ := Index.read_ofLayers store layers
  rw [view, get_foldl]
  exact List.append_nil _

/-! ## Scans -/

/-- What a reference may mean are the mappings whose names it abbreviates. -/
theorem matchesFor_eq (mappings : List (Mapping W)) (source : Kind) (reference : Name) :
    matchesFor mappings source reference =
      (mappings.filter fun mapping =>
          decide (mapping.source = source ∧ reference.Abbreviates mapping.name)).map fun mapping =>
        ⟨mapping, mapping.name.tokens.length - reference.tokens.length⟩ := by
  rw [matchesFor, ← List.filterMap_eq_map, List.filterMap_filter]
  refine List.filterMap_congr fun mapping _ => ?_
  rw [Name.skipped?_eq]
  by_cases here : mapping.source = source
  · by_cases means : reference.Abbreviates mapping.name
    · simp [here, means]
    · simp [here, means]
  · simp [here]

/-- The declarations of kinds in some layers, in the order of the layers and then of
registration. -/
def Store.hints (store : Store W) (layers : List LayerId) : List TypeHint :=
  layers.flatMap fun id => (store.layer id).hints.items

/-- The kind that the last of some declarations gives to a representation. -/
def declared? (hints : List TypeHint) (marker : Marker) : Option Kind :=
  (hints.filter (·.marker == marker)).getLast?.map TypeHint.kind

theorem HintIndex.get?_read (store : Store W) (layers : List LayerId) (marker : Marker) :
    ((Index.ofLayers layers : Index (HintIndex W)).read store).get? marker =
      declared? (store.hints layers) marker := by
  have view : (Index.ofLayers layers : Index (HintIndex W)).read store =
      (store.hints layers).foldl Indexes.absorb ⟨[]⟩ := Index.read_ofLayers store layers
  have table : (store.hints layers).foldl (fun held hint =>
        Table.update held hint.marker fun _ => hint.kind) [] =
      ((store.hints layers).foldl Indexes.absorb (⟨[]⟩ : HintIndex W)).byMarker :=
    List.foldl_hom HintIndex.byMarker fun _ _ => rfl
  rw [view, get?, ← table, Table.find?_foldl_update]
  exact Option.or_none

/-- Indices answer like a look through all that is registered, whatever that is. A reference finds
the mappings from its kind whose names it abbreviates, in the order of the layers and then of
registration, each with the number of name tokens that it leaves out; implicit mappings are found
in the reverse of that order; and the last display of a kind and the last declaration for a
representation count. -/
theorem Indices.scan_read (store : Store W) (layers : List LayerId) :
    let indices : Indices W := .ofLayers layers
    (∀ source reference, (indices.named.read store).find source reference =
      ((store.mappings layers).filter fun mapping =>
          decide (mapping.source = source ∧ reference.Abbreviates mapping.name)).map fun mapping =>
        ⟨mapping, mapping.name.tokens.length - reference.tokens.length⟩) ∧
    (∀ source, (indices.implicits.read store).get source =
      ((store.mappings layers).filter fun mapping =>
        mapping.implicit && decide (mapping.source = source)).reverse) ∧
    (∀ kind, (indices.displays.read store).get? kind =
      ((store.displays layers).filter (·.kind == kind)).getLast?) ∧
    ∀ marker, (indices.hints.read store).get? marker =
      ((store.hints layers).filter (·.marker == marker)).getLast?.map TypeHint.kind := by
  refine ⟨fun source reference => ?_, ImplicitIndex.get_read store layers,
    DisplayIndex.get?_read store layers, HintIndex.get?_read store layers⟩
  exact (NamedIndex.find_read store layers source reference).trans (matchesFor_eq _ _ _)

end TypedTemplate
