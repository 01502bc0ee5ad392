import TypedTemplate.Proofs.Template.Printing
import TypedTemplate.Registry

/-!
Which mappings a layer takes in. A request to register a mapping is granted exactly if the mapping
keeps the rules that are about itself and clashes with no mapping that is there
(`Layer.registerMapping_eq_ok`); else the layer stays as it was, with the same generation, so that
no index over it has to be built anew. What all requests keep is `Layer.IsSound`, and after any
requests the layer holds the mappings of those that were granted (`Layer.requestAll_spec`).
-/
namespace TypedTemplate

theorem Name.checkTokens_eq_ok (name : Name) (tokens : List String) :
    name.checkTokens tokens = .ok () ↔ ∀ token ∈ tokens, IsWord token := by
  induction tokens with
  | nil => exact iff_of_true rfl nofun
  | cons token rest ih =>
    rw [checkTokens, List.forall_mem_cons, ← ih, IsWord]
    cases isNameToken token with
    | false => simp
    | true => cases isIdent token <;> simp

variable {W : Type}

/-! ## Single mappings -/

namespace Mapping

/-- Whether a mapping keeps the rules that are about itself: its name can be written in a
template, and it needs no arguments where no call can give them. -/
structure IsValid (mapping : Mapping W) : Prop where
  name : mapping.name.IsPrintable
  bare : mapping.implicit = true → mapping.parameters = []

theorem validate_eq_ok_iff {mapping : Mapping W} : mapping.validate = .ok () ↔ mapping.IsValid := by
  have words := mapping.name.checkTokens_eq_ok mapping.name.tokens
  by_cases nameless : mapping.name.tokens = []
  · refine iff_of_false ?_ fun valid => valid.name.nonempty nameless
    simp [validate, nameless]
  · have named : mapping.name.tokens.isEmpty = false := by simpa using nameless
    rw [validate, named]
    cases checked : mapping.name.checkTokens mapping.name.tokens with
    | error cause =>
      refine iff_of_false (by simp) fun valid => ?_
      rw [words.mpr valid.name.words] at checked
      cases checked
    | ok =>
      have printable : mapping.name.IsPrintable := ⟨nameless, words.mp checked⟩
      constructor
      · intro passed
        refine ⟨printable, fun implicit => ?_⟩
        simpa [implicit] using passed
      · intro valid
        cases implicit : mapping.implicit with
        | false => simp
        | true => simp [valid.bare implicit]

/-- Whether both mappings have the same name and start from the same kind. -/
def Clash (first second : Mapping W) : Prop :=
  first.source = second.source ∧ first.name = second.name

theorem checkUnique_eq_ok {existing : List (Mapping W)} {mapping : Mapping W} :
    checkUnique existing mapping = .ok () ↔ ∀ other ∈ existing, ¬ other.Clash mapping := by
  have found : existing.any mapping.clashes = true ↔ ∃ other ∈ existing, other.Clash mapping := by
    simp [clashes, Clash]
  unfold checkUnique
  split
  · rename_i clash
    refine iff_of_false nofun fun apart => ?_
    obtain ⟨other, member, same⟩ := found.mp clash
    exact apart other member same
  · rename_i none
    exact iff_of_true rfl fun other member same => none (found.mpr ⟨other, member, same⟩)

end Mapping

namespace Layer

/-- Whether a layer has room for a mapping. -/
structure Admits (layer : Layer W) (mapping : Mapping W) : Prop where
  valid : mapping.IsValid
  apart : ∀ other ∈ layer.mappings.items, ¬ other.Clash mapping

/-- A mapping that is taken in is put behind all others, and nothing else changes. -/
theorem registerMapping_eq_ok {layer after : Layer W} {mapping : Mapping W} :
    layer.registerMapping mapping = .ok after ↔
      layer.Admits mapping ∧
        after = { layer with mappings := layer.mappings.register mapping } := by
  unfold registerMapping
  cases validated : mapping.validate with
  | error cause =>
    refine iff_of_false nofun fun ⟨admits, _⟩ => ?_
    rw [Mapping.validate_eq_ok_iff.mpr admits.valid] at validated
    cases validated
  | ok =>
    have valid := Mapping.validate_eq_ok_iff.mp validated
    cases checked : Mapping.checkUnique layer.mappings.items mapping with
    | error cause =>
      refine iff_of_false (by simp [Registry.registerChecked, checked]) fun ⟨admits, _⟩ => ?_
      rw [Mapping.checkUnique_eq_ok.mpr admits.apart] at checked
      cases checked
    | ok =>
      have admits : layer.Admits mapping := ⟨valid, Mapping.checkUnique_eq_ok.mp checked⟩
      simp [Registry.registerChecked, checked, admits, eq_comm]

/-! ## Requests -/

/-- What comes of a request to register a mapping: the layer with it, or the layer as it was and
why it does not take the mapping. -/
def request (layer : Layer W) (mapping : Mapping W) : Layer W × Except RegistryError Unit :=
  match layer.registerMapping mapping with
  | .ok after => (after, .ok ())
  | .error cause => (layer, .error cause)

theorem request_of_admits {layer : Layer W} {mapping : Mapping W} (admits : layer.Admits mapping) :
    layer.request mapping =
      ({ layer with mappings := layer.mappings.register mapping }, .ok ()) := by
  rw [request, registerMapping_eq_ok.mpr ⟨admits, rfl⟩]

theorem request_of_not_admits {layer : Layer W} {mapping : Mapping W}
    (full : ¬ layer.Admits mapping) : ∃ cause, layer.request mapping = (layer, .error cause) := by
  rw [request]
  cases registered : layer.registerMapping mapping with
  | ok after => exact absurd (registerMapping_eq_ok.mp registered).1 full
  | error cause => exact ⟨cause, rfl⟩

/-- Requests one after another, with the answer to each. -/
def requestAll (layer : Layer W) : List (Mapping W) → Layer W × List (Except RegistryError Unit)
  | [] => (layer, [])
  | mapping :: rest =>
    let (next, answer) := layer.request mapping
    let (after, answers) := next.requestAll rest
    (after, answer :: answers)

/-- The mappings whose requests were granted. -/
def granted (requests : List (Mapping W)) (answers : List (Except RegistryError Unit)) :
    List (Mapping W) :=
  ((requests.zip answers).filter fun entry => entry.2.isOk).map Prod.fst

theorem requestAll_answers (layer : Layer W) (requests : List (Mapping W)) :
    (layer.requestAll requests).2.length = requests.length := by
  induction requests generalizing layer with
  | nil => rfl
  | cons mapping rest ih => simp [requestAll, ih]

theorem requestAll_items (layer : Layer W) (requests : List (Mapping W)) :
    (layer.requestAll requests).1.mappings.items =
      layer.mappings.items ++ granted requests (layer.requestAll requests).2 := by
  induction requests generalizing layer with
  | nil => exact (List.append_nil _).symm
  | cons mapping rest ih =>
    by_cases admits : layer.Admits mapping
    · rw [requestAll, request_of_admits admits]
      dsimp only
      rw [ih]
      simp [granted, Registry.register, Except.isOk, Except.toBool]
    · obtain ⟨cause, refused⟩ := request_of_not_admits admits
      rw [requestAll, refused]
      dsimp only
      rw [ih]
      simp [granted, Except.isOk, Except.toBool]

/-! ## What requests keep -/

/-- Whether the generation counts the mappings, and these keep the rules, each by itself and any
two together. -/
structure IsSound (layer : Layer W) : Prop where
  counted : layer.mappings.generation = layer.mappings.items.length
  valid : ∀ mapping ∈ layer.mappings.items, mapping.IsValid
  apart : layer.mappings.items.Pairwise fun first second => ¬ first.Clash second

theorem isSound_empty : (empty : Layer W).IsSound := ⟨rfl, nofun, .nil⟩

theorem IsSound.register {layer : Layer W} (sound : layer.IsSound) {mapping : Mapping W}
    (admits : layer.Admits mapping) :
    IsSound { layer with mappings := layer.mappings.register mapping } where
  counted := by simp [Registry.register, sound.counted]
  valid := by
    intro other member
    rcases List.mem_append.mp member with old | new
    · exact sound.valid other old
    · rw [List.mem_singleton.mp new]
      exact admits.valid
  apart := by
    refine List.pairwise_append.mpr ⟨sound.apart, List.pairwise_singleton _ _, ?_⟩
    intro other old last new
    rw [List.mem_singleton.mp new]
    exact admits.apart other old

theorem IsSound.request {layer : Layer W} (sound : layer.IsSound) (mapping : Mapping W) :
    (layer.request mapping).1.IsSound := by
  by_cases admits : layer.Admits mapping
  · rw [request_of_admits admits]
    exact sound.register admits
  · obtain ⟨cause, refused⟩ := request_of_not_admits admits
    rw [refused]
    exact sound

theorem IsSound.requestAll {layer : Layer W} (sound : layer.IsSound) (requests : List (Mapping W)) :
    (layer.requestAll requests).1.IsSound := by
  induction requests generalizing layer with
  | nil => exact sound
  | cons mapping rest ih => exact ih (sound.request mapping)

/-- Registration is atomic and keeps a layer valid. After any requests to an empty layer, it holds
the mappings of those that were granted, in the order of the requests, and its generation is their
number. The name of each of these mappings can be written in a template, the implicit ones have no
parameters, and no two have the same name and start from the same kind. A further request is
refused exactly if its mapping would break one of these rules, and then the layer stays as it
was. -/
theorem requestAll_spec (requests : List (Mapping W)) :
    let (layer, answers) := (empty : Layer W).requestAll requests
    answers.length = requests.length ∧
      layer.mappings.items = granted requests answers ∧
      layer.mappings.generation = layer.mappings.items.length ∧
      (∀ mapping ∈ layer.mappings.items, mapping.IsValid) ∧
      (layer.mappings.items.Pairwise fun first second => ¬ first.Clash second) ∧
      ∀ mapping : Mapping W,
        ((∃ cause, (layer.request mapping).2 = .error cause) ↔
          ¬ (mapping.IsValid ∧ ∀ other ∈ layer.mappings.items, ¬ other.Clash mapping)) ∧
        ∀ cause, (layer.request mapping).2 = .error cause → (layer.request mapping).1 = layer := by
  have sound := isSound_empty.requestAll requests
  refine ⟨requestAll_answers empty requests, requestAll_items empty requests, sound.counted,
    sound.valid, sound.apart, fun mapping => ?_⟩
  by_cases admits : ((empty : Layer W).requestAll requests).1.Admits mapping
  · rw [request_of_admits admits]
    exact ⟨iff_of_false nofun fun breaks => breaks ⟨admits.valid, admits.apart⟩, nofun⟩
  · obtain ⟨cause, refused⟩ := request_of_not_admits admits
    rw [refused]
    exact ⟨iff_of_true ⟨cause, rfl⟩ fun keeps => admits ⟨keeps.1, keeps.2⟩, fun _ _ => rfl⟩

end Layer

end TypedTemplate
