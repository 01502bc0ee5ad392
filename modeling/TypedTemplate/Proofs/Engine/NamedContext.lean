import TypedTemplate.Proofs.Engine
import TypedTemplate.Proofs.Registry.Admission
import TypedTemplate.Proofs.Registry.Scan

/-!
Contexts of named values. Which of them are accepted depends on their entries only
(`NamedContext.IsAccepted`), and one that is not is refused for the first entry that is at fault
(`NamedContext.FailsAs`); nothing else about a request with named values can fail, and no request
leaves a trace in the engine (`Engine.Run.refuses_first_fault`).
-/
namespace TypedTemplate

variable {W : Type}

theorem isSome_declared? {hints : List TypeHint} {marker : Marker} :
    (declared? hints marker).isSome = true ↔ ∃ hint ∈ hints, hint.marker = marker := by
  simp [declared?]

namespace NamedContext

/-! ## Entries at fault -/

section Faults

variable (hints : List TypeHint)

/-- Whether the kind of a value has been declared by its representation. -/
def IsHinted (value : Value) : Prop := ∃ hint ∈ hints, hint.marker = value.marker

/-- Whether named values can be a context: their kinds are known, and the names can be written in
a template and are all different. -/
structure IsAccepted (entries : List (String × Value)) : Prop where
  hinted : ∀ entry ∈ entries, IsHinted hints entry.2
  words : ∀ entry ∈ entries, IsWord entry.1
  distinct : (entries.map Prod.fst).Nodup

/-- Why an entry is refused that stands behind others with these keys. What is wrong with the value
comes before what is wrong with the key, and that before a key that is there already. -/
inductive Fault (earlier : List String) : String × Value → RenderError → Prop
  | unknownKind {key : String} {value : Value} (unhinted : ¬ IsHinted hints value) :
      Fault earlier (key, value) (.unknownContextKind key)
  | invalid {key : String} {value : Value} (hinted : IsHinted hints value)
      (invalid : isNameToken key = false) :
      Fault earlier (key, value) (.registry (.invalidToken ⟨[key]⟩ key))
  | reserved {key : String} {value : Value} (hinted : IsHinted hints value)
      (valid : isNameToken key = true) (reserved : isIdent key = false) :
      Fault earlier (key, value) (.registry (.reservedToken ⟨[key]⟩ key))
  | duplicate {key : String} {value : Value} (hinted : IsHinted hints value) (word : IsWord key)
      (twice : key ∈ earlier) :
      Fault earlier (key, value) (.registry (.duplicate ⟨[key]⟩ kind))

/-- Whether the first entry that is at fault is so for this reason. -/
def FailsAs (entries : List (String × Value)) (error : RenderError) : Prop :=
  ∃ before entry behind, entries = before ++ entry :: behind ∧ IsAccepted hints before ∧
    Fault hints (before.map Prod.fst) entry error

end Faults

variable {hints : List TypeHint} {before entries : List (String × Value)}

theorem isAccepted_nil : IsAccepted hints [] := ⟨nofun, nofun, .nil⟩

theorem isAccepted_concat {entry : String × Value} :
    IsAccepted hints (before ++ [entry]) ↔ IsAccepted hints before ∧ IsHinted hints entry.2 ∧
      IsWord entry.1 ∧ entry.1 ∉ before.map Prod.fst := by
  have distinct : ((before ++ [entry]).map Prod.fst).Nodup ↔
      (before.map Prod.fst).Nodup ∧ entry.1 ∉ before.map Prod.fst := by
    rw [List.map_append, List.map_singleton, (List.perm_append_singleton _ _).nodup_iff,
      List.nodup_cons, and_comm]
  constructor
  · intro accepted
    obtain ⟨hinted, last⟩ := List.forall_mem_append.mp accepted.hinted
    obtain ⟨words, word⟩ := List.forall_mem_append.mp accepted.words
    obtain ⟨others, fresh⟩ := distinct.mp accepted.distinct
    exact ⟨⟨hinted, words, others⟩, last entry List.mem_cons_self, word entry List.mem_cons_self,
      fresh⟩
  · rintro ⟨accepted, hinted, word, fresh⟩
    exact ⟨List.forall_mem_append.mpr ⟨accepted.hinted, by simpa using hinted⟩,
      List.forall_mem_append.mpr ⟨accepted.words, by simpa using word⟩,
      distinct.mpr ⟨accepted.distinct, fresh⟩⟩

theorem IsAccepted.front {behind : List (String × Value)}
    (accepted : IsAccepted hints (before ++ behind)) : IsAccepted hints before where
  hinted := (List.forall_mem_append.mp accepted.hinted).1
  words := (List.forall_mem_append.mp accepted.words).1
  distinct := (List.nodup_append.mp (List.map_append ▸ accepted.distinct)).1

/-- An entry that cannot follow the others is at fault. -/
theorem exists_fault (accepted : IsAccepted hints before) {entry : String × Value}
    (refused : ¬ IsAccepted hints (before ++ [entry])) :
    ∃ error, Fault hints (before.map Prod.fst) entry error := by
  obtain ⟨key, value⟩ := entry
  rw [isAccepted_concat] at refused
  by_cases hinted : IsHinted hints value
  · cases valid : isNameToken key with
    | false => exact ⟨_, .invalid hinted valid⟩
    | true =>
      cases free : isIdent key with
      | false => exact ⟨_, .reserved hinted valid free⟩
      | true =>
        have twice : key ∈ before.map Prod.fst := by
          by_contra fresh
          exact refused ⟨accepted, hinted, ⟨valid, free⟩, fresh⟩
        exact ⟨_, .duplicate hinted ⟨valid, free⟩ twice⟩
  · exact ⟨_, .unknownKind hinted⟩

theorem isAccepted_or_failsAs_behind (accepted : IsAccepted hints before)
    (entries : List (String × Value)) :
    IsAccepted hints (before ++ entries) ∨ ∃ error, FailsAs hints (before ++ entries) error := by
  induction entries generalizing before with
  | nil =>
    rw [List.append_nil]
    exact .inl accepted
  | cons entry rest ih =>
    by_cases more : IsAccepted hints (before ++ [entry])
    · rw [List.append_cons]
      exact ih more
    · obtain ⟨error, fault⟩ := exists_fault accepted more
      exact .inr ⟨error, before, entry, rest, rfl, accepted, fault⟩

/-- Entries that are not accepted have a first one that is at fault. -/
theorem isAccepted_or_failsAs (hints : List TypeHint) (entries : List (String × Value)) :
    IsAccepted hints entries ∨ ∃ error, FailsAs hints entries error :=
  isAccepted_or_failsAs_behind isAccepted_nil entries

/-! ## The layer of a context -/

/-- The mappings that entries become whose kinds are known. -/
def mappings (hints : List TypeHint) (entries : List (String × Value)) : List (Mapping W) :=
  entries.filterMap fun entry => (declared? hints entry.2.marker).map (mapping entry.1)

/-- The layer with just these mappings. -/
def layer (hints : List TypeHint) (entries : List (String × Value)) : Layer W :=
  { Layer.empty with mappings := ⟨mappings hints entries, entries.length⟩ }

theorem keys_mappings (hinted : ∀ entry ∈ entries, IsHinted hints entry.2) (key : String) :
    (∃ old ∈ (mappings hints entries : List (Mapping W)), old.name = ⟨[key]⟩) ↔
      key ∈ entries.map Prod.fst := by
  simp only [mappings, List.mem_filterMap, Option.map_eq_some_iff, List.mem_map]
  constructor
  · rintro ⟨old, ⟨entry, member, target, -, rfl⟩, same⟩
    exact ⟨entry, member, by simpa [mapping] using same⟩
  · rintro ⟨entry, member, rfl⟩
    obtain ⟨target, declared⟩ := Option.isSome_iff_exists.mp
      (isSome_declared?.mpr (hinted entry member))
    exact ⟨mapping entry.1 target, ⟨entry, member, target, declared, rfl⟩, rfl⟩

theorem source_mappings {old : Mapping W} (member : old ∈ mappings hints entries) :
    old.source = kind := by
  simp only [mappings, List.mem_filterMap, Option.map_eq_some_iff] at member
  obtain ⟨entry, -, target, -, rfl⟩ := member
  rfl

theorem validate_mapping (key : String) (target : Kind) :
    (mapping key target : Mapping W).validate = Name.checkTokens ⟨[key]⟩ [key] := by
  cases checked : Name.checkTokens ⟨[key]⟩ [key] with
  | ok => simp [Mapping.validate, mapping, checked]
  | error cause => simp [Mapping.validate, mapping, checked]

theorem registerMapping_of_refused {key : String} {cause : RegistryError}
    (refused : Name.checkTokens ⟨[key]⟩ [key] = .error cause) (held : Layer W) (target : Kind) :
    held.registerMapping (mapping key target) = .error cause := by
  rw [Layer.registerMapping, validate_mapping, refused]

/-- A key that is there already makes the mapping clash, whatever the kinds of the values are. -/
theorem registerMapping_of_twice {key : String} (word : IsWord key)
    (hinted : ∀ entry ∈ entries, IsHinted hints entry.2) (twice : key ∈ entries.map Prod.fst)
    (target : Kind) :
    (layer hints entries : Layer W).registerMapping (mapping key target) =
      .error (.duplicate ⟨[key]⟩ kind) := by
  obtain ⟨old, member, same⟩ := (keys_mappings (W := W) hinted key).mpr twice
  have clashes : (mapping key target).clashes old = true := by
    simp [Mapping.clashes, same, source_mappings member, mapping]
  have found : (mappings hints entries).any (mapping key target).clashes = true :=
    List.any_eq_true.mpr ⟨old, member, clashes⟩
  have valid : Name.checkTokens ⟨[key]⟩ [key] = .ok () :=
    (Name.checkTokens_eq_ok _ _).mpr (List.forall_mem_singleton.mpr word)
  have refused : (layer hints entries : Layer W).mappings.registerChecked (mapping key target)
      Mapping.checkUnique = .error (.duplicate ⟨[key]⟩ kind) := by
    rw [Registry.registerChecked, Mapping.checkUnique, layer, found]
    rfl
  rw [Layer.registerMapping, validate_mapping, valid]
  dsimp only
  rw [refused]

section Registering

variable {index : HintIndex W} (reads : ∀ marker, index.get? marker = declared? hints marker)

include reads

/-- An entry whose kind is known asks the layer to take its mapping. -/
theorem register_hinted {key : String} {value : Value} (hinted : IsHinted hints value)
    (held : Layer W) (rest : List (String × Value)) :
    ∃ target, declared? hints value.marker = some target ∧
      (∀ after, held.registerMapping (mapping key target) = .ok after →
        register index held ((key, value) :: rest) = register index after rest) ∧
      ∀ cause, held.registerMapping (mapping key target) = .error cause →
        register index held ((key, value) :: rest) = .error (.registry cause) := by
  obtain ⟨target, declared⟩ := Option.isSome_iff_exists.mp (isSome_declared?.mpr hinted)
  refine ⟨target, declared, fun after taken => ?_, fun cause refused => ?_⟩
  · rw [register, reads, declared]
    dsimp only
    rw [taken]
  · rw [register, reads, declared]
    dsimp only
    rw [refused]

variable (accepted : IsAccepted hints before)

include accepted

/-- One more entry that is accepted becomes a mapping behind the others. -/
theorem register_step {entry : String × Value} (more : IsAccepted hints (before ++ [entry]))
    (rest : List (String × Value)) :
    register index (layer hints before) (entry :: rest) =
      register index (layer hints (before ++ [entry])) rest := by
  obtain ⟨key, value⟩ := entry
  obtain ⟨-, hinted, word, fresh⟩ := isAccepted_concat.mp more
  obtain ⟨target, declared, takes, -⟩ := register_hinted reads hinted (layer hints before) rest
  have admits : (layer hints before : Layer W).Admits (mapping key target) := by
    refine ⟨⟨⟨nofun, List.forall_mem_singleton.mpr word⟩, nofun⟩, fun old member clash => fresh ?_⟩
    exact (keys_mappings accepted.hinted key).mp ⟨old, member, clash.2⟩
  rw [takes _ (Layer.registerMapping_eq_ok.mpr ⟨admits, rfl⟩)]
  simp [layer, mappings, Registry.register, declared]

theorem register_fault {entry : String × Value} {error : RenderError}
    (fault : Fault hints (before.map Prod.fst) entry error) (rest : List (String × Value)) :
    register index (layer hints before) (entry :: rest) = .error error := by
  cases fault with
  | unknownKind unhinted =>
    have undeclared : declared? hints _ = none :=
      Option.not_isSome_iff_eq_none.mp (mt isSome_declared?.mp unhinted)
    rw [register, reads, undeclared]
  | invalid hinted invalid =>
    obtain ⟨target, -, -, refuses⟩ := register_hinted reads hinted (layer hints before) rest
    exact refuses _ (registerMapping_of_refused (by simp [Name.checkTokens, invalid]) _ _)
  | reserved hinted valid reserved =>
    obtain ⟨target, -, -, refuses⟩ := register_hinted reads hinted (layer hints before) rest
    exact refuses _ (registerMapping_of_refused (by simp [Name.checkTokens, valid, reserved]) _ _)
  | duplicate hinted word twice =>
    obtain ⟨target, -, -, refuses⟩ := register_hinted reads hinted (layer hints before) rest
    exact refuses _ (registerMapping_of_twice word accepted.hinted twice target)

theorem register_append (more : IsAccepted hints (before ++ entries))
    (rest : List (String × Value)) :
    register index (layer hints before) (entries ++ rest) =
      register index (layer hints (before ++ entries)) rest := by
  induction entries generalizing before with
  | nil => rw [List.append_nil, List.nil_append]
  | cons entry others ih =>
    rw [List.append_cons] at more ⊢
    rw [List.cons_append, register_step reads accepted more.front]
    exact ih more.front more

end Registering

/-! ## Requests with named values -/

section Directories

variable {store : Store W} {layers : List LayerId}

/-- What a template with accepted entries is resolved against. The mappings of the entries come
before those of all layers. -/
def extended (store : Store W) (layers : List LayerId) (entries : List (String × Value)) :
    Directory W :=
  let indices : Indices W := .ofLayers layers
  { indices with named := indices.named.insert 0 store.layers.length }.directory
    (store.add (layer (store.hints layers) entries)).2

/-- A template that is bound for accepted entries. -/
def prepared (store : Store W) (layers : List LayerId) (entries : List (String × Value))
    (viewer : Option Value) (config : Config) (template : Template) : Prepared W :=
  ⟨template.bind (extended store layers entries) kind, .context entries, viewer, config⟩

theorem directory_of_isAccepted (accepted : IsAccepted (store.hints layers) entries) :
    directory store (.ofLayers layers) entries = .ok (extended store layers entries) := by
  have registered := register_append (HintIndex.get?_read store layers) isAccepted_nil accepted []
  rw [List.append_nil, List.nil_append, register] at registered
  have filled : register ((Index.ofLayers layers : Index (HintIndex W)).read store) .empty entries =
      .ok (layer (store.hints layers) entries) := registered
  rw [directory]
  dsimp only [Indices.ofLayers]
  rw [filled]
  rfl

theorem directory_of_failsAs {error : RenderError}
    (fails : FailsAs (store.hints layers) entries error) :
    directory store (.ofLayers layers) entries = .error error := by
  obtain ⟨before, entry, behind, rfl, accepted, fault⟩ := fails
  have reads := HintIndex.get?_read store layers
  have registered := register_append reads isAccepted_nil accepted (entry :: behind)
  rw [List.nil_append, register_fault reads accepted fault] at registered
  have stopped : register ((Index.ofLayers layers : Index (HintIndex W)).read store) .empty
      (before ++ entry :: behind) = .error error := registered
  rw [directory]
  dsimp only [Indices.ofLayers]
  rw [stopped]
  rfl

end Directories

end NamedContext

open NamedContext (IsAccepted FailsAs)

namespace Request

variable {store : Store W} {layers : List LayerId} {config : Config} {text : String}
  {entries : List (String × Value)} {viewer : Option Value}

theorem prepare_of_parsed {template : Template} (parsed : Template.parse text = .ok template) :
    (⟨text, .named entries, viewer⟩ : Request).prepare store layers config =
      (NamedContext.directory store (.ofLayers layers) entries).map fun directory =>
        ⟨template.bind directory NamedContext.kind, .context entries, viewer, config⟩ := by
  rw [prepare]
  dsimp only
  rw [parsed]

theorem prepare_of_failsAs {template : Template} {error : RenderError}
    (parsed : Template.parse text = .ok template)
    (fails : FailsAs (store.hints layers) entries error) :
    (⟨text, .named entries, viewer⟩ : Request).prepare store layers config = .error error := by
  rw [prepare_of_parsed parsed, NamedContext.directory_of_failsAs fails]
  rfl

theorem prepare_of_isAccepted {template : Template} (parsed : Template.parse text = .ok template)
    (accepted : IsAccepted (store.hints layers) entries) :
    (⟨text, .named entries, viewer⟩ : Request).prepare store layers config =
      .ok (NamedContext.prepared store layers entries viewer config template) := by
  rw [prepare_of_parsed parsed, NamedContext.directory_of_isAccepted accepted]
  rfl

/-- A request with named values is refused for its text or for its first entry at fault. -/
theorem prepare_named (text : String) (entries : List (String × Value)) (viewer : Option Value)
    (store : Store W) (layers : List LayerId) (config : Config) :
    let prepared := (⟨text, .named entries, viewer⟩ : Request).prepare store layers config
    ((∃ bound, prepared = .ok bound) ↔
        (∃ template, Template.parse text = .ok template) ∧
          IsAccepted (store.hints layers) entries) ∧
      ∀ error, prepared = .error error ↔
        (∃ cause, Template.parse text = .error cause ∧ error = .parse cause) ∨
          (∃ template, Template.parse text = .ok template) ∧
            FailsAs (store.hints layers) entries error := by
  intro prepared
  cases parsed : Template.parse text with
  | error cause =>
    have refused : prepared = .error (.parse cause) := by
      dsimp only [prepared]
      rw [prepare]
      dsimp only
      rw [parsed]
    simp [refused, eq_comm]
  | ok template =>
    have refuses : ∀ {error}, FailsAs (store.hints layers) entries error →
        prepared = .error error := fun fails => prepare_of_failsAs parsed fails
    rcases NamedContext.isAccepted_or_failsAs (store.hints layers) entries with
      accepted | ⟨fault, fails⟩
    · have bound : prepared = .ok _ := prepare_of_isAccepted parsed accepted
      refine ⟨iff_of_true ⟨_, bound⟩ ⟨⟨template, rfl⟩, accepted⟩, fun error => ?_⟩
      constructor
      · intro refused
        cases bound.symm.trans refused
      · rintro (⟨_, ⟨⟩, -⟩ | ⟨-, fails⟩)
        exact refuses fails
    · refine ⟨iff_of_false ?_ ?_, fun error => ?_⟩
      · rintro ⟨bound, passed⟩
        cases (refuses fails).symm.trans passed
      · rintro ⟨-, accepted⟩
        cases (refuses fails).symm.trans (prepare_of_isAccepted parsed accepted)
      · constructor
        · intro refused
          cases (refuses fails).symm.trans refused
          exact .inr ⟨⟨template, rfl⟩, fails⟩
        · rintro (⟨_, ⟨⟩, -⟩ | ⟨-, fails⟩)
          exact refuses fails

end Request

namespace Engine

/-- Naming values fails only for bad inputs, and of several faults the first one is reported. After
any use of the engine, rendering a text for named values gives a text if and only if the text
parses, the kind of each value is declared, each name is a word, and no name comes twice.
Otherwise the error is that of the text, if it does not parse, and else that of the first entry at
fault; then no function of the host has been called. The layers are only read, and the engine and
its indices go on answering as if the request had not been made, whatever is registered and asked
for later. -/
theorem Run.refuses_first_fault {layers : List LayerId} {store : Store W} {engine : Engine W}
    (run : Run layers store engine) (host : Host W) (text : String)
    (entries : List (String × Value)) (viewer : Option Value) :
    let rendered := engine.renderOnce store host ⟨text, .named entries, viewer⟩
    ((∃ shown, rendered.1 = .ok shown) ↔
        (∃ template, Template.parse text = .ok template) ∧
          IsAccepted (store.hints layers) entries) ∧
      (∀ error, rendered.1 = .error error ↔
        (∃ cause, Template.parse text = .error cause ∧ error = .parse cause) ∨
          (∃ template, Template.parse text = .ok template) ∧
            FailsAs (store.hints layers) entries error) ∧
      (∀ error, rendered.1 = .error error → rendered.2.2 = host) ∧
      ∀ later left right, Alongside store rendered.2.1 engine later left right →
        left.AnswersAs later right ∧ left.indices.ShowsAs later right.indices := by
  intro rendered
  let request : Request := ⟨text, .named entries, viewer⟩
  have transparent := run.isTransparent
  have result : rendered.1 = (request.prepare store layers engine.config).map fun prepared =>
      (prepared.renderOnce host).1 := transparent.renderOnce_eq host request
  obtain ⟨accepts, refuses⟩ := Request.prepare_named text entries viewer store layers engine.config
  refine ⟨?_, fun error => ?_, fun _ failed => renderOnce_host_of_error failed, ?_⟩
  · rw [← accepts, result]
    cases request.prepare store layers engine.config <;> simp [Except.map]
  · rw [← refuses, result]
    cases request.prepare store layers engine.config <;> simp [Except.map]
  · have kept := engine.prepare_keeps store request
    have alike : AreAlike store layers rendered.2.1 engine := by
      rw [renderOnce_engine]
      exact ⟨(transparent.prepare_eq request).2, transparent, kept.config, kept.helps⟩
    intro later left right alongside
    have same := alongside.areAlike alike
    exact ⟨same.left.answersAs same.right same.config, same.showsAs⟩

/-- The second of three names is reserved; the third one comes for the second time, and the kind of
its value is not known either. -/
theorem Run.refuses_first_fault_reserved :
    let store : Store Unit := ⟨[Layer.empty.registerHint ⟨.text, "words"⟩]⟩
    let engine : Engine Unit := { indices := .ofLayers [0] }
    let entries := [("a", .text "x"), ("true", .text "y"), ("a", .list [])]
    let rendered := engine.renderOnce store { state := () } ⟨"\x7ba\x7d", .named entries, none⟩
    Run [0] store engine ∧ rendered.1 = .error (.registry (.reservedToken ⟨["true"]⟩ "true")) := by
  intro store engine entries rendered
  have run : Run [0] store engine := .opened store {}
  have parsed : Template.parse "\x7ba\x7d" =
      .ok ⟨[.placeholder (.arm (.first (.bare ⟨["a"]⟩ ⟨1, 2⟩))) ⟨0, 3⟩]⟩ := by
    with_unfolding_all rfl
  have word : IsWord "a" := ⟨by decide, by with_unfolding_all rfl⟩
  have reserved : isIdent "true" = false := by with_unfolding_all rfl
  have hinted : ∀ text, NamedContext.IsHinted (store.hints [0]) (.text text) :=
    fun _ => ⟨⟨.text, "words"⟩, List.mem_cons_self, rfl⟩
  have first : IsAccepted (store.hints [0]) [("a", .text "x")] :=
    ⟨List.forall_mem_singleton.mpr (hinted "x"), List.forall_mem_singleton.mpr word, by decide⟩
  have fails : FailsAs (store.hints [0]) entries
      (.registry (.reservedToken ⟨["true"]⟩ "true")) :=
    ⟨_, _, _, rfl, first, .reserved (hinted "y") (by decide) reserved⟩
  obtain ⟨-, refuses, -⟩ := run.refuses_first_fault { state := () } "\x7ba\x7d" entries none
  exact ⟨run, (refuses _).mpr (.inr ⟨⟨_, parsed⟩, fails⟩)⟩

end Engine

end TypedTemplate
