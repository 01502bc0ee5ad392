import TypedTemplate.Plan.Binding
import TypedTemplate.Proofs.Path.Exploration
import TypedTemplate.Proofs.Plan

/-!
Plans fit together. No kind is looked at when a plan is followed, so it has to be right
when a template is bound: a route applies each mapping to the target of the one before it,
a nested route ends in the kind of its parameter, and the display of an arm is one for the
kind where its route ends (`Template.bind_isKinded`).
-/
namespace TypedTemplate

variable {W : Type}

/-! ## Directories -/

/-- The named mappings of some layers, the implicit ones of others, and the displays of
yet others. -/
def Directory.ofLayers (store : Store W) (named implicits displays : List LayerId) :
    Directory W :=
  ⟨(Index.ofLayers named).read store, (Index.ofLayers implicits).read store,
    (Index.ofLayers displays).read store⟩

/-- Whether a directory holds only these mappings, and files them and the displays under the
kinds that they are for. -/
structure Directory.IsFiled (directory : Directory W) (mappings : List (Mapping W)) : Prop where
  named : ∀ {source call found}, found ∈ directory.named.find source call →
    found.mapping ∈ mappings ∧ found.mapping.source = source
  implicits : ∀ {source mapping}, mapping ∈ directory.implicits.get source →
    mapping ∈ mappings ∧ mapping.source = source
  displays : ∀ {kind display}, directory.displays.get? kind = some display → display.kind = kind

theorem Directory.isFiled_ofLayers (store : Store W) (named implicits displays : List LayerId) :
    (ofLayers store named implicits displays).IsFiled (store.mappings (named ++ implicits)) := by
  have both : store.mappings (named ++ implicits) =
      store.mappings named ++ store.mappings implicits := List.flatMap_append
  rw [both]
  refine ⟨fun {source call found} member => ?_, fun {source mapping} member => ?_,
    fun {kind display} found => ?_⟩
  · obtain ⟨known, same, -⟩ := (NamedIndex.mem_find_read store named source call found).mp member
    exact ⟨List.mem_append_left _ known, same⟩
  · obtain ⟨known, -, same⟩ := (ImplicitIndex.mem_get_read store implicits source mapping).mp member
    exact ⟨List.mem_append_right _ known, same⟩
  · exact kind_of_lastFor? ((DisplayIndex.get?_read store displays kind).symm.trans found)

/-! ## Paths -/

/-- Hops that can be taken one after another, from a kind to another. -/
inductive Joined (mappings : List (Mapping W)) : Kind → List (Hop W) → Kind → Prop
  | nil (kind : Kind) : Joined mappings kind [] kind
  | cons {hop : Hop W} {rest : List (Hop W)} {tail : Kind} (known : hop.mapping ∈ mappings)
      (joined : Joined mappings hop.mapping.target rest tail) :
      Joined mappings hop.mapping.source (hop :: rest) tail

section Search

variable {query : Query W} {mappings : List (Mapping W)}

theorem Query.Trail.joined (filed : query.directory.IsFiled mappings) {spot last : Spot}
    {hops : List (Hop W)} (trail : query.Trail spot hops last) :
    Joined mappings spot.2 hops last.2 := by
  induction trail with
  | nil spot => exact .nil spot.2
  | cons first _ ih =>
    cases first with
    | @named consumed _ _ found next known =>
      obtain ⟨registered, rfl⟩ := filed.named known
      exact @Joined.cons _ _ ⟨found.mapping, some consumed⟩ _ _ registered ih
    | @implicit _ _ mapping known =>
      obtain ⟨registered, rfl⟩ := filed.implicits known
      exact @Joined.cons _ _ ⟨mapping, none⟩ _ _ registered ih

theorem Query.joined_paths (filed : query.directory.IsFiled mappings) {path : Path W}
    (given : path ∈ query.paths) :
    Joined mappings query.start path.hops path.tail ∧ query.accepts path.tail = true := by
  obtain ⟨trail, accepted⟩ := Query.trail_of_mem_paths given
  exact ⟨trail.joined filed, accepted⟩

end Search

/-! ## Plans -/

/-- The parameter for a single one of the arguments that a parameter takes. -/
def Parameter.single (parameter : Parameter) : Parameter := { parameter with variadic := false }

section Plans

variable (mappings : List (Mapping W)) (literals : List Value) (start : Kind)

mutual

/-- Whether a route leads from a kind to another and fills the parameters on its way. -/
def Route.Leads : Route W → Kind → Kind → Prop
  | .nil, source, tail => source = tail
  | .cons mapping args rest, source, tail =>
    mapping.source = source ∧ mapping ∈ mappings ∧ args.Fit mapping.parameters ∧
      rest.Leads mapping.target tail

/-- Whether there is a fitting binding for each of some parameters. -/
def Bindings.Fit : Bindings W → List Parameter → Prop
  | .nil, parameters => parameters = []
  | .cons first rest, parameters =>
    ∃ parameter others, parameters = parameter :: others ∧ first.Fits parameter ∧ rest.Fit others

/-- Whether all routes for a parameter end in its kind. Literals need not be of that kind. -/
def Binding.Fits : Binding W → Parameter → Prop
  | .unset, parameter => parameter.variadic = false
  | .constant value, parameter => parameter.variadic = false ∧ value ∈ literals
  | .firstOf route others, parameter =>
    parameter.variadic = false ∧ route.Leads start parameter.kind ∧ others.Lead parameter.kind
  | .collected items, parameter =>
    parameter.variadic = true ∧ items.Fit (List.replicate items.length parameter.single)

def Routes.Lead : Routes W → Kind → Prop
  | .nil, _ => True
  | .cons first rest, tail => first.Leads start tail ∧ rest.Lead tail

end

/-- Whether every arm leads from the start to a kind that its display is for. -/
def BoundTemplate.IsKinded (template : BoundTemplate W) : Prop :=
  ∀ choice ∈ template.choices, choice.route.Leads mappings literals start start choice.display.kind

variable {mappings literals start}

theorem Parameter.single_of_not_variadic {parameter : Parameter}
    (single : parameter.variadic = false) : parameter.single = parameter := by
  rw [Parameter.single, ← single]

/-! ## Arguments -/

theorem Binding.fits_ofRoutes {routes : List (Route W)} {parameter : Parameter}
    (leads : ∀ route ∈ routes, route.Leads mappings literals start start parameter.kind)
    (single : parameter.variadic = false) :
    (ofRoutes routes).Fits mappings literals start parameter := by
  cases routes with
  | nil => exact single
  | cons first others =>
    refine ⟨single, leads first List.mem_cons_self, ?_⟩
    have behind : ∀ route ∈ others, route.Leads mappings literals start start parameter.kind :=
      fun route member => leads route (List.mem_cons_of_mem _ member)
    clear leads
    induction others with
    | nil => trivial
    | cons next rest ih =>
      exact ⟨behind next List.mem_cons_self,
        ih fun route member => behind route (List.mem_cons_of_mem _ member)⟩

theorem Bindings.fit_ofList {items : List (Binding W)} {parameter : Parameter}
    (fits : ∀ item ∈ items, item.Fits mappings literals start parameter) :
    (ofList items).Fit mappings literals start
      (List.replicate (ofList items).length parameter) := by
  induction items with
  | nil => rfl
  | cons first rest ih =>
    exact ⟨parameter, _, rfl, fits first List.mem_cons_self,
      ih fun item member => fits item (List.mem_cons_of_mem _ member)⟩

variable (mappings literals start)

/-- Whether an argument can be one of those for any parameter. -/
def Binder.Suits (binder : Binder W) : Prop :=
  ∀ parameter, (binder parameter).Fits mappings literals start parameter.single

structure Written.Suits (written : Written W) : Prop where
  named : ∀ entry ∈ written.named, Binder.Suits mappings literals start entry.2
  positional : ∀ binder ∈ written.positional, Binder.Suits mappings literals start binder

variable {mappings literals start}

theorem Written.suits_none : (none : Written W).Suits mappings literals start :=
  ⟨by simp [none], by simp [none]⟩

theorem Written.Suits.cons {written : Written W} (suits : written.Suits mappings literals start)
    (label : Option String) {binder : Binder W} (first : binder.Suits mappings literals start) :
    (written.cons label binder).Suits mappings literals start := by
  cases label with
  | none => exact ⟨suits.named, List.forall_mem_cons.mpr ⟨first, suits.positional⟩⟩
  | some name => exact ⟨List.forall_mem_cons.mpr ⟨first, suits.named⟩, suits.positional⟩

theorem Parameter.fits_bindNamed {binder : Binder W} (suits : binder.Suits mappings literals start)
    (parameter : Parameter) :
    (parameter.bindNamed binder).Fits mappings literals start parameter := by
  rw [bindNamed]
  split
  · rename_i variadic
    exact ⟨variadic, parameter.single, [], rfl, suits parameter, rfl⟩
  · rename_i single
    have alone := suits parameter
    rw [parameter.single_of_not_variadic (by simpa using single)] at alone
    exact alone

theorem fit_assign (taken : List String) {written : Written W}
    (suits : written.Suits mappings literals start) (parameters : List Parameter) :
    (assign taken written parameters).Fit mappings literals start parameters := by
  induction parameters generalizing taken written with
  | nil => rfl
  | cons parameter others ih =>
    rw [assign]
    split
    · rename_i binder found
      have member : (parameter.name, binder) ∈ written.named := by
        split at found
        · cases found
        · obtain ⟨before, after, split, -⟩ := List.lookup_eq_some_iff.mp found
          simp [split]
      exact ⟨parameter, others, rfl, parameter.fits_bindNamed (suits.named _ member), ih _ suits⟩
    · split
      · rename_i variadic
        refine ⟨parameter, others, rfl, ⟨variadic, Bindings.fit_ofList fun item member => ?_⟩,
          ih _ ⟨suits.named, by simp⟩⟩
        obtain ⟨binder, given, rfl⟩ := List.mem_map.mp member
        exact suits.positional binder given parameter
      · rename_i single
        have single : parameter.variadic = false := by simpa using single
        split
        · exact ⟨parameter, others, rfl, single, ih _ suits⟩
        · rename_i binder positional written_eq
          have given : ∀ other ∈ binder :: positional, Binder.Suits mappings literals start other :=
            written_eq ▸ suits.positional
          have alone := given binder List.mem_cons_self parameter
          rw [parameter.single_of_not_variadic single] at alone
          exact ⟨parameter, others, rfl, alone,
            ih _ ⟨suits.named, fun other member => given other (List.mem_cons_of_mem _ member)⟩⟩

/-! ## Routes -/

theorem Path.leads_route {path : Path W} {source : Kind}
    (joined : Joined mappings source path.hops path.tail)
    {fill : List (Mapping W → Bindings W)}
    (fits : ∀ given ∈ fill, ∀ mapping,
      (given mapping).Fit mappings literals start mapping.parameters) :
    (path.route fill).Leads mappings literals start source path.tail := by
  obtain ⟨hops, tail, cost⟩ := path
  rw [route]
  dsimp only at joined ⊢
  induction joined with
  | nil kind => rfl
  | @cons hop rest tail known _ ih =>
    refine ⟨rfl, known, ?_, ih⟩
    split
    · rename_i given filled
      obtain ⟨call, -, found⟩ := Option.bind_eq_some_iff.mp filled
      exact fits given (List.mem_of_getElem? found) hop.mapping
    · exact fit_assign [] Written.suits_none hop.mapping.parameters

end Plans

/-! ## Templates -/

mutual

/-- The values of all literals in the arguments of a call. -/
def Call.literals : Call → List Value
  | .bare _ _ => []
  | .applied _ args _ => args.literals

def Args.literals : Args → List Value
  | .nil => []
  | .cons (.mk _ value _) rest => value.literals ++ rest.literals

def ArgValue.literals : ArgValue → List Value
  | .literal literal => [literal.value.toValue]
  | .expr expr => expr.literals

def Chain.literals : Chain → List Value
  | .first call => call.literals
  | .next parent call => parent.literals ++ call.literals

def Expr.literals : Expr → List Value
  | .arm main => main.literals
  | .orElse main others => main.literals ++ others.literals

end

def Element.literals : Element → List Value
  | .text _ _ => []
  | .placeholder expr _ => expr.literals

def Template.literals (template : Template) : List Value :=
  template.elements.flatMap Element.literals

theorem Expr.literals_arms : ∀ expr : Expr, ∀ main ∈ expr.arms, main.literals ⊆ expr.literals
  | .arm main, other, member => by
    rw [Expr.arms, List.mem_singleton] at member
    rw [member, Expr.literals]
    exact List.Subset.refl _
  | .orElse main others, other, member => by
    rw [Expr.arms] at member
    rw [Expr.literals]
    rcases List.mem_cons.mp member with rfl | later
    · exact List.subset_append_left _ _
    · exact List.subset_append_of_subset_right _ (others.literals_arms other later)

section Binding

variable {mappings : List (Mapping W)} {literals : List Value} {directory : Directory W}

theorem Chain.joined_path? (filed : directory.IsFiled mappings) {start : Kind}
    {accepts : Kind → Bool} {chain : Chain} {path : Path W}
    (found : chain.path? directory start accepts = some path) :
    Joined mappings start path.hops path.tail ∧ accepts path.tail = true :=
  Query.joined_paths filed (List.mem_of_mem_head? found)

variable {start : Kind}

mutual

theorem Call.fit_fill (filed : directory.IsFiled mappings) :
    ∀ call : Call, call.literals ⊆ literals → ∀ mapping : Mapping W,
      (call.fill directory start mapping).Fit mappings literals start mapping.parameters
  | .bare _ _, _, mapping => fit_assign [] Written.suits_none mapping.parameters
  | .applied _ args _, known, mapping => by
    rw [Call.fill]
    rw [Call.literals] at known
    exact fit_assign [] (args.suits_written filed known) mapping.parameters

theorem Args.suits_written (filed : directory.IsFiled mappings) :
    ∀ args : Args, args.literals ⊆ literals →
      (args.written directory start).Suits mappings literals start
  | .nil, _ => Written.suits_none
  | .cons (.mk label value _) rest, known => by
    rw [Args.written]
    rw [Args.literals] at known
    obtain ⟨inValue, inRest⟩ := List.append_subset.mp known
    exact (rest.suits_written filed inRest).cons label (value.suits_bind filed inValue)

theorem ArgValue.suits_bind (filed : directory.IsFiled mappings) :
    ∀ value : ArgValue, value.literals ⊆ literals →
      Binder.Suits mappings literals start (value.bind directory start)
  | .literal literal, known, parameter => by
    rw [ArgValue.bind]
    rw [ArgValue.literals] at known
    exact ⟨rfl, known List.mem_cons_self⟩
  | .expr expr, known, parameter => by
    rw [ArgValue.bind]
    rw [ArgValue.literals] at known
    refine Binding.fits_ofRoutes (fun route member => ?_) rfl
    obtain ⟨tail, accepted, leads⟩ := expr.leads_routes filed known _ route member
    rw [beq_iff_eq] at accepted
    exact accepted ▸ leads

theorem Chain.fit_fills (filed : directory.IsFiled mappings) :
    ∀ chain : Chain, chain.literals ⊆ literals → ∀ given ∈ chain.fills directory start,
      ∀ mapping : Mapping W, (given mapping).Fit mappings literals start mapping.parameters
  | .first call, known, given, member, mapping => by
    rw [Chain.fills, List.mem_singleton] at member
    rw [Chain.literals] at known
    rw [member]
    exact call.fit_fill filed known mapping
  | .next parent call, known, given, member, mapping => by
    rw [Chain.fills, List.mem_append, List.mem_singleton] at member
    rw [Chain.literals] at known
    obtain ⟨inParent, inCall⟩ := List.append_subset.mp known
    rcases member with before | rfl
    · exact parent.fit_fills filed inParent given before mapping
    · exact call.fit_fill filed inCall mapping

theorem Expr.leads_routes (filed : directory.IsFiled mappings) :
    ∀ expr : Expr, expr.literals ⊆ literals → ∀ accepts,
      ∀ route ∈ expr.routes directory start accepts,
        ∃ tail, accepts tail = true ∧ route.Leads mappings literals start start tail
  | .arm main, known, accepts, route, member => by
    rw [Expr.routes] at member
    rw [Expr.literals] at known
    split at member
    · cases member
    · rename_i path found
      obtain ⟨joined, accepted⟩ := Chain.joined_path? filed found
      rw [List.mem_singleton] at member
      rw [member]
      exact ⟨path.tail, accepted, Path.leads_route joined (main.fit_fills filed known)⟩
  | .orElse main others, known, accepts, route, member => by
    rw [Expr.routes] at member
    rw [Expr.literals] at known
    obtain ⟨inMain, inOthers⟩ := List.append_subset.mp known
    split at member
    · exact others.leads_routes filed inOthers accepts route member
    · rename_i path found
      obtain ⟨joined, accepted⟩ := Chain.joined_path? filed found
      rcases List.mem_cons.mp member with rfl | later
      · exact ⟨path.tail, accepted, Path.leads_route joined (main.fit_fills filed inMain)⟩
      · exact others.leads_routes filed inOthers accepts route later

end

theorem Chain.leads_choice? (filed : directory.IsFiled mappings) {chain : Chain}
    (known : chain.literals ⊆ literals) {choice : Choice W}
    (chosen : chain.choice? directory start = some choice) :
    choice.route.Leads mappings literals start start choice.display.kind := by
  obtain ⟨path, found, shown⟩ := Option.bind_eq_some_iff.mp chosen
  obtain ⟨display, displayed, same⟩ := Option.bind_eq_some_iff.mp shown
  cases same
  obtain ⟨joined, -⟩ := Chain.joined_path? filed found
  dsimp only
  rw [filed.displays displayed]
  exact Path.leads_route joined (chain.fit_fills filed known)

/-- Binding makes plans that fit together, whatever is registered. -/
theorem Template.bind_isKinded (filed : directory.IsFiled mappings) (template : Template) :
    (template.bind directory start).IsKinded mappings template.literals start := by
  intro choice member
  obtain ⟨bound, inside, chosen⟩ := List.mem_flatMap.mp member
  obtain ⟨element, written, rfl⟩ := List.mem_map.mp inside
  cases element with
  | text raw span => cases chosen
  | placeholder expr span =>
    obtain ⟨main, arm, chosen⟩ := List.mem_filterMap.mp chosen
    refine Chain.leads_choice? filed (fun value inArm => ?_) chosen
    exact List.mem_flatMap.mpr ⟨_, written, expr.literals_arms main arm inArm⟩

end Binding

end TypedTemplate
