import TypedTemplate.Proofs.Name
import TypedTemplate.Proofs.Path.Exploration
import TypedTemplate.Proofs.Plan.Kinds
import TypedTemplate.Proofs.Plan.Shares
import Mathlib.Data.List.Forall2

/-!
Plans resolve what is written. An arm gives a route if and only if some mappings consume all
its calls on the way to an accepted kind. A route consumes the calls one by one, in order,
each mapping that consumes a call gets the arguments written there and no other mapping gets
any, and all that holds again of the routes for its arguments.
-/
namespace TypedTemplate

variable {W : Type}

/-! ## Ways -/

section Ways

variable (named implicits : List (Mapping W))

/-- Mappings that lead from one kind to another and consume calls: a named one the next call,
which refers to it, an implicit one none. -/
inductive Consumes : Kind → List Name → List (Mapping W) → Kind → Prop
  | nil (kind : Kind) : Consumes kind [] [] kind
  | named {mapping : Mapping W} {call : Name} {calls : List Name} {mappings : List (Mapping W)}
      {tail : Kind} (known : mapping ∈ named)
      (matched : call.Abbreviates mapping.name)
      (onward : Consumes mapping.target calls mappings tail) :
      Consumes mapping.source (call :: calls) (mapping :: mappings) tail
  | implicit {mapping : Mapping W} {calls : List Name} {mappings : List (Mapping W)} {tail : Kind}
      (known : mapping ∈ implicits) (free : mapping.implicit = true)
      (onward : Consumes mapping.target calls mappings tail) :
      Consumes mapping.source calls (mapping :: mappings) tail

/-- Whether some mappings consume all calls of an arm on the way to an accepted kind. -/
def Chain.HasWay (start : Kind) (accepts : Kind → Prop) (main : Chain) : Prop :=
  ∃ mappings tail,
    Consumes named implicits start (main.calls.map Call.name) mappings tail ∧ accepts tail

end Ways

/-! ## Resolved templates -/

section Resolved

variable (named implicits : List (Mapping W)) (displays : List (Display W)) (start : Kind)

mutual

/-- Whether a route leads from one kind to another and consumes calls on its way, with the
arguments of a call given to the mapping that consumes it and to no other. -/
inductive Route.Carries : Route W → Kind → List Call → Kind → Prop
  | nil (kind : Kind) : Route.Carries .nil kind [] kind
  | named {mapping : Mapping W} {args : Bindings W} {rest : Route W} {call : Call}
      {calls : List Call} {tail : Kind} (known : mapping ∈ named)
      (matched : call.name.Abbreviates mapping.name)
      (complete : args.length = mapping.parameters.length)
      (given : Bindings.Serve args (shares call.arguments mapping.parameters))
      (onward : Route.Carries rest mapping.target calls tail) :
      Route.Carries (.cons mapping args rest) mapping.source (call :: calls) tail
  | implicit {mapping : Mapping W} {args : Bindings W} {rest : Route W} {calls : List Call}
      {tail : Kind} (known : mapping ∈ implicits) (free : mapping.implicit = true)
      (complete : args.length = mapping.parameters.length)
      (given : Bindings.Serve args (shares [] mapping.parameters))
      (onward : Route.Carries rest mapping.target calls tail) :
      Route.Carries (.cons mapping args rest) mapping.source calls tail

/-- Whether parameters are bound to their shares, one by one. -/
inductive Bindings.Serve : Bindings W → List (Parameter × Share ArgValue) → Prop
  | nil : Bindings.Serve .nil []
  | cons {binding : Binding W} {rest : Bindings W} {parameter : Parameter}
      {share : Share ArgValue} {others : List (Parameter × Share ArgValue)}
      (first : Binding.Serves binding parameter share) (onward : Bindings.Serve rest others) :
      Bindings.Serve (.cons binding rest) ((parameter, share) :: others)

/-- Whether a parameter is bound to its share: a literal as its own value, and an expression as
the routes of its arms, or unset if no arm of it has a way to the kind of the parameter. -/
inductive Binding.Serves : Binding W → Parameter → Share ArgValue → Prop
  | none (parameter : Parameter) : Binding.Serves .unset parameter .none
  | literal {value : Value} {literal : Literal} (means : literal.value.Means value)
      (parameter : Parameter) :
      Binding.Serves (.constant value) parameter (.one (.literal literal))
  | resolved {route : Route W} {others : Routes W} {expr : Expr} {parameter : Parameter}
      (arms : Routes.Follow (.cons route others) expr.arms parameter.kind) :
      Binding.Serves (.firstOf route others) parameter (.one (.expr expr))
  | unresolved {expr : Expr} {parameter : Parameter}
      (lost : ∀ main ∈ expr.arms, ¬ main.HasWay named implicits start (· = parameter.kind)) :
      Binding.Serves .unset parameter (.one (.expr expr))
  | all {items : Bindings W} {parameter : Parameter} {values : List ArgValue}
      (each : Bindings.Serve items (values.map fun value => (parameter, .one value))) :
      Binding.Serves (.collected items) parameter (.all values)

/-- Whether routes are those of the arms that have a way to a kind, in the order of the arms. -/
inductive Routes.Follow : Routes W → List Chain → Kind → Prop
  | nil (tail : Kind) : Routes.Follow .nil [] tail
  | skip {routes : Routes W} {main : Chain} {others : List Chain} {tail : Kind}
      (lost : ¬ main.HasWay named implicits start (· = tail))
      (onward : Routes.Follow routes others tail) : Routes.Follow routes (main :: others) tail
  | take {route : Route W} {routes : Routes W} {main : Chain} {others : List Chain} {tail : Kind}
      (way : main.HasWay named implicits start (· = tail)) (nonempty : route ≠ .nil)
      (first : Route.Carries route start main.calls tail)
      (onward : Routes.Follow routes others tail) :
      Routes.Follow (.cons route routes) (main :: others) tail

end

/-- Whether choices are those of the arms that have a way to a kind with a display, in the
order of the arms. -/
inductive Choices.Follow : List (Choice W) → List Chain → Prop
  | nil : Choices.Follow [] []
  | skip {choices : List (Choice W)} {main : Chain} {others : List Chain}
      (lost : ¬ main.HasWay named implicits start fun tail =>
        ∃ display ∈ displays, display.kind = tail)
      (onward : Choices.Follow choices others) : Choices.Follow choices (main :: others)
  | take {choice : Choice W} {choices : List (Choice W)} {main : Chain} {others : List Chain}
      (way : main.HasWay named implicits start fun tail =>
        ∃ display ∈ displays, display.kind = tail)
      (nonempty : choice.route ≠ .nil)
      (shown : lastFor? displays choice.display.kind = some choice.display)
      (first : choice.route.Carries named implicits start start main.calls choice.display.kind)
      (onward : Choices.Follow choices others) :
      Choices.Follow (choice :: choices) (main :: others)

/-- What becomes of an element. -/
inductive Element.Resolves : Element → BoundElement W → Prop
  | text (text : String) (span : Span) : Element.Resolves (.text text span) (.text text)
  | placeholder {expr : Expr} {span : Span} {bound : BoundPlaceholder W}
      (raw : bound.raw = expr.main.names)
      (arms : Choices.Follow named implicits displays start bound.choices expr.arms) :
      Element.Resolves (.placeholder expr span) (.placeholder bound)

end Resolved

/-! ## Directories -/

/-- Whether a directory shows just these mappings and displays. -/
structure Directory.Holds (directory : Directory W) (named implicits : List (Mapping W))
    (displays : List (Display W)) : Prop where
  named : ∀ source call found, found ∈ directory.named.find source call ↔
    found.mapping ∈ named ∧ found.mapping.source = source ∧
      found.mapping.name.skipped? call = some found.score
  implicits : ∀ source mapping, mapping ∈ directory.implicits.get source ↔
    mapping ∈ implicits ∧ mapping.implicit = true ∧ mapping.source = source
  displays : ∀ kind, directory.displays.get? kind = lastFor? displays kind

theorem Directory.holds_ofLayers (store : Store W) (named implicits displays : List LayerId) :
    (ofLayers store named implicits displays).Holds (store.mappings named)
      (store.mappings implicits) (store.displays displays) :=
  ⟨NamedIndex.mem_find_read store named, ImplicitIndex.mem_get_read store implicits,
    DisplayIndex.get?_read store displays⟩

section Holding

variable {directory : Directory W} {named implicits : List (Mapping W)}
  {displays : List (Display W)} {start : Kind}

/-! ## Trails and ways -/

/-- Mappings that consume the calls from a spot on make a trail. -/
theorem Consumes.exists_trail (holds : directory.Holds named implicits displays)
    (query : Query W) (within : query.directory = directory) {source tail : Kind}
    {calls : List Name} {mappings : List (Mapping W)}
    (consumes : Consumes named implicits source calls mappings tail) {consumed : Nat}
    (left : query.calls.drop consumed = calls) (reached : consumed ≤ query.calls.length) :
    ∃ hops, query.Trail (consumed, source) hops (query.calls.length, tail) := by
  subst within
  induction consumes generalizing consumed with
  | nil kind =>
    have finished : consumed = query.calls.length :=
      Nat.le_antisymm reached (List.drop_eq_nil_iff.mp left)
    subst finished
    exact ⟨[], .nil _⟩
  | @named mapping call calls mappings tail known matched _ ih =>
    have more : consumed < query.calls.length := by
      apply Nat.lt_of_not_le
      intro beyond
      rw [List.drop_eq_nil_of_le beyond] at left
      cases left
    rw [List.drop_eq_getElem_cons more, List.cons.injEq] at left
    obtain ⟨score, matched⟩ := Name.exists_skipped?.mpr matched
    obtain ⟨hops, trail⟩ := ih left.2 more
    have next : query.calls[consumed]? = some call :=
      List.getElem?_eq_some_iff.mpr ⟨more, left.1⟩
    have offered : ⟨mapping, score⟩ ∈ query.directory.named.find mapping.source call :=
      (holds.named _ _ _).mpr ⟨known, rfl, matched⟩
    exact ⟨_, .cons (.named next offered) trail⟩
  | @implicit mapping calls mappings tail known free _ ih =>
    obtain ⟨hops, trail⟩ := ih left reached
    have offered := (holds.implicits mapping.source mapping).mpr ⟨known, free, rfl⟩
    exact ⟨_, .cons (.implicit offered) trail⟩

theorem Chain.calls_ne_nil (main : Chain) : main.calls ≠ [] := by
  cases main <;> simp [calls]

theorem Chain.references_ne_nil (main : Chain) : main.references ≠ [] := by
  rw [references, ne_eq, List.map_eq_nil_iff]
  exact main.calls_ne_nil

theorem Query.Trail.ne_nil {query : Query W} {source tail : Kind} {hops : List (Hop W)}
    (trail : query.Trail (0, source) hops (query.calls.length, tail)) (some : query.calls ≠ []) :
    hops ≠ [] := by
  rintro rfl
  have stays : (0, source) = (query.calls.length, tail) := by
    generalize (query.calls.length, tail) = last at trail
    cases trail
    rfl
  exact some (List.eq_nil_of_length_eq_zero (congrArg Prod.fst stays).symm)

/-- An arm without a path has no way. -/
theorem Chain.not_hasWay (holds : directory.Holds named implicits displays) {main : Chain}
    {accepts : Kind → Bool} (none : main.path? directory start accepts = none) :
    ¬ main.HasWay named implicits start (accepts · = true) := by
  rintro ⟨mappings, tail, consumes, accepted⟩
  obtain ⟨hops, trail⟩ := consumes.exists_trail holds
    ⟨directory, main.references, start, accepts⟩ rfl rfl (Nat.zero_le _)
  have refused : accepts tail = false := Query.not_trail_of_paths_eq_nil
    (List.head?_eq_none_iff.mp none) (trail.ne_nil main.references_ne_nil) trail
  rw [refused] at accepted
  cases accepted

/-! ## Trails and routes -/

/-- What the mapping of a hop gets when a path becomes a route. -/
def Hop.bindings (fill : List (Mapping W → Bindings W)) (hop : Hop W) : Bindings W :=
  match hop.call.bind (fill[·]?) with
  | some bind => bind hop.mapping
  | none => assign [] .none hop.mapping.parameters

theorem Path.route_eq (path : Path W) (fill : List (Mapping W → Bindings W)) :
    path.route fill = .ofHops (path.hops.map fun hop => (hop.mapping, hop.bindings fill)) := rfl

theorem Chain.fills_eq (directory : Directory W) (start : Kind) (main : Chain) :
    main.fills directory start = main.calls.map (Call.fill directory start) := by
  fun_induction Chain.calls main with
  | case1 call => rfl
  | case2 parent call ih =>
    rw [fills, ih, List.map_append]
    rfl

@[simp] theorem Bindings.length_ofList (items : List (Binding W)) :
    (ofList items).length = items.length := by
  induction items with
  | nil => rfl
  | cons first rest ih => simp [ofList, length, ih]

/-- A mapping that is given the shares of some arguments gets one binding for each parameter. -/
theorem Bindings.length_shares (binder : ArgValue → Binder W) (arguments : List Arg)
    (parameters : List Parameter) :
    (ofList ((shares arguments parameters).map fun entry =>
      entry.2.bind binder entry.1)).length = parameters.length := by
  rw [length_ofList, List.length_map, ← congrArg List.length (map_fst_shares arguments parameters),
    List.length_map]

theorem Bindings.serve_ofList {entries : List (Parameter × Share ArgValue)}
    {bind : Parameter × Share ArgValue → Binding W}
    (each : ∀ entry ∈ entries, (bind entry).Serves named implicits start entry.1 entry.2) :
    (ofList (entries.map bind)).Serve named implicits start entries := by
  induction entries with
  | nil => exact .nil
  | cons first rest ih =>
    exact .cons (each first List.mem_cons_self)
      (ih fun entry member => each entry (List.mem_cons_of_mem _ member))

theorem Share.serves_bind {binder : ArgValue → Binder W} {parameter : Parameter}
    {share : Share ArgValue} (each : ∀ value ∈ share.values,
      (binder value parameter).Serves named implicits start parameter (.one value)) :
    (share.bind binder parameter).Serves named implicits start parameter share := by
  cases share with
  | none => exact .none parameter
  | one value => exact each value (List.mem_singleton_self value)
  | all values =>
    have items : (Bindings.ofList ((values.map fun value => (parameter, Share.one value)).map
        fun entry => entry.2.bind binder entry.1)).Serve named implicits start
        (values.map fun value => (parameter, .one value)) := by
      refine Bindings.serve_ofList fun entry member => ?_
      obtain ⟨value, given, rfl⟩ := List.mem_map.mp member
      exact each value given
    rw [List.map_map] at items
    exact .all items

/-- If each argument is bound right, so is the share of each parameter. -/
theorem Bindings.serve_shares {binder : ArgValue → Binder W} {arguments : List Arg}
    (each : ∀ arg ∈ arguments, ∀ parameter,
      (binder arg.value parameter).Serves named implicits start parameter (.one arg.value))
    (parameters : List Parameter) :
    (ofList ((shares arguments parameters).map fun entry =>
      entry.2.bind binder entry.1)).Serve named implicits start (shares arguments parameters) := by
  refine serve_ofList fun entry dealt => Share.serves_bind fun value given => ?_
  obtain ⟨arg, written, rfl⟩ := mem_of_mem_shares dealt given
  exact each arg written entry.1

/-- Whether a call gives each mapping that consumes it the arguments written there. -/
structure Call.IsServed (named implicits : List (Mapping W)) (start : Kind)
    (directory : Directory W) (call : Call) : Prop where
  complete : ∀ mapping : Mapping W,
    (call.fill directory start mapping).length = mapping.parameters.length
  given : ∀ mapping : Mapping W, (call.fill directory start mapping).Serve named implicits start
    (shares call.arguments mapping.parameters)

theorem Call.isServed {call : Call} (each : ∀ arg ∈ call.arguments, ∀ parameter,
      (arg.value.bind directory start parameter).Serves named implicits start parameter
        (.one arg.value)) : call.IsServed named implicits start directory := by
  refine ⟨fun mapping => ?_, fun mapping => ?_⟩
  · rw [call.fill_eq]
    exact Bindings.length_shares _ _ _
  · rw [call.fill_eq]
    exact Bindings.serve_shares each mapping.parameters

theorem Query.Trail.carries (holds : directory.Holds named implicits displays) {query : Query W}
    (within : query.directory = directory) {calls : List Call}
    (written : query.calls = calls.map Call.name)
    (served : ∀ call ∈ calls, call.IsServed named implicits start directory)
    {spot last : Spot} {hops : List (Hop W)} (trail : query.Trail spot hops last)
    (ends : last.1 = calls.length) :
    (Route.ofHops (hops.map fun hop => (hop.mapping,
      hop.bindings (calls.map (Call.fill directory start))))).Carries named implicits start
      spot.2 (calls.drop spot.1) last.2 := by
  subst within
  -- The calls that are left at a spot are those from its number on.
  induction trail with
  | nil spot =>
    rw [ends, List.drop_length]
    exact .nil spot.2
  | @cons spot middle last hop hops first _ ih =>
    have onward := ih ends
    cases first with
    | @named consumed kind reference found next known =>
      rw [written, List.getElem?_map, Option.map_eq_some_iff] at next
      obtain ⟨call, here, rfl⟩ := next
      obtain ⟨more, same⟩ := List.getElem?_eq_some_iff.mp here
      obtain ⟨inside, rfl, matched⟩ := (holds.named _ _ _).mp known
      have bindings : Hop.bindings (calls.map (Call.fill query.directory start))
          ⟨found.mapping, some consumed⟩ = call.fill query.directory start found.mapping := by
        simp [Hop.bindings, here]
      have served := served call (List.mem_of_getElem? here)
      rw [List.map_cons, bindings, List.drop_eq_getElem_cons more, same]
      exact .named inside (Name.exists_skipped?.mp ⟨_, matched⟩) (served.complete found.mapping)
        (served.given found.mapping) onward
    | @implicit consumed kind mapping known =>
      obtain ⟨inside, free, rfl⟩ := (holds.implicits _ _).mp known
      have nothing : Hop.bindings (calls.map (Call.fill query.directory start)) ⟨mapping, none⟩ =
          .ofList ((shares [] mapping.parameters).map fun entry =>
            entry.2.bind (ArgValue.bind query.directory start) entry.1) :=
        assign_map (ArgValue.bind query.directory start) [] [] [] mapping.parameters
      rw [List.map_cons, nothing]
      exact .implicit inside free (Bindings.length_shares _ _ _)
        (Bindings.serve_shares (fun arg written => by cases written) mapping.parameters) onward

/-- A route that carries calls shows a way for them. -/
theorem Route.Carries.consumes {route : Route W} {source tail : Kind} {calls : List Call}
    (carries : route.Carries named implicits start source calls tail) :
    Consumes named implicits source (calls.map Call.name) (route.hops.map Prod.fst) tail := by
  match route, calls, carries with
  | _, _, .nil kind => exact .nil kind
  | _, _, .named known matched _ _ onward => exact .named known matched onward.consumes
  | _, _, .implicit known free _ _ onward => exact .implicit known free onward.consumes

/-- The path of an arm becomes a route for its calls. -/
theorem Chain.carries_path? (holds : directory.Holds named implicits displays) {main : Chain}
    (served : ∀ call ∈ main.calls, call.IsServed named implicits start directory)
    {accepts : Kind → Bool} {path : Path W}
    (found : main.path? directory start accepts = some path) :
    accepts path.tail = true ∧ path.route (main.fills directory start) ≠ .nil ∧
      (path.route (main.fills directory start)).Carries named implicits start start main.calls
        path.tail := by
  obtain ⟨trail, accepted⟩ := Query.trail_of_mem_paths (List.mem_of_mem_head? found)
  rw [path.route_eq, main.fills_eq]
  have ends : (main.references.length, path.tail).1 = main.calls.length := List.length_map _
  refine ⟨accepted, fun empty => ?_, trail.carries holds rfl rfl served ends⟩
  have nonempty := trail.ne_nil main.references_ne_nil
  obtain ⟨first, rest, split⟩ := List.exists_cons_of_ne_nil nonempty
  rw [split] at empty
  cases empty

/-! ## Templates -/

theorem Routes.Follow.lost {mains : List Chain} {tail : Kind}
    (follow : (Routes.nil : Routes W).Follow named implicits start mains tail) :
    ∀ main ∈ mains, ¬ main.HasWay named implicits start (· = tail) := by
  induction mains with
  | nil => exact fun _ member => by cases member
  | cons first rest ih =>
    cases follow with
    | skip lost onward => exact List.forall_mem_cons.mpr ⟨lost, ih onward⟩

theorem Binding.serves_ofRoutes {routes : List (Route W)} {expr : Expr} {parameter : Parameter}
    (follow : (Routes.ofList routes).Follow named implicits start expr.arms parameter.kind) :
    (ofRoutes routes).Serves named implicits start parameter (.one (.expr expr)) := by
  cases routes with
  | nil => exact .unresolved follow.lost
  | cons first others => exact .resolved follow

theorem Route.Carries.hasWay {route : Route W} {main : Chain} {tail : Kind}
    {accepts : Kind → Prop} (carries : route.Carries named implicits start start main.calls tail)
    (accepted : accepts tail) : main.HasWay named implicits start accepts :=
  ⟨_, tail, carries.consumes, accepted⟩

theorem Routes.Follow.skip_arm (holds : directory.Holds named implicits displays) {main : Chain}
    {tail : Kind} (none : main.path? directory start (· == tail) = none) {routes : Routes W}
    {others : List Chain} (onward : routes.Follow named implicits start others tail) :
    routes.Follow named implicits start (main :: others) tail := by
  have lost := main.not_hasWay holds none
  simp only [beq_iff_eq] at lost
  exact .skip lost onward

theorem Routes.Follow.take_arm (holds : directory.Holds named implicits displays) {main : Chain}
    (served : ∀ call ∈ main.calls, call.IsServed named implicits start directory) {tail : Kind}
    {path : Path W} (found : main.path? directory start (· == tail) = some path)
    {routes : Routes W} {others : List Chain}
    (onward : routes.Follow named implicits start others tail) :
    (Routes.cons (path.route (main.fills directory start)) routes).Follow named implicits start
      (main :: others) tail := by
  obtain ⟨accepted, nonempty, carries⟩ := main.carries_path? holds served found
  rw [beq_iff_eq] at accepted
  rw [accepted] at carries
  exact .take (carries.hasWay rfl) nonempty carries onward

mutual

theorem Call.isServed_of_holds (holds : directory.Holds named implicits displays) :
    ∀ call : Call, call.IsServed named implicits start directory
  | .bare _ _ => Call.isServed fun _ written => by cases written
  | .applied _ args _ => Call.isServed (args.serves_bind holds)

theorem Args.serves_bind (holds : directory.Holds named implicits displays) :
    ∀ args : Args, ∀ arg ∈ args.toList, ∀ parameter,
      (arg.value.bind directory start parameter).Serves named implicits start parameter
        (.one arg.value)
  | .nil, _, written, _ => by cases written
  | .cons (.mk _ value _) rest, arg, written, parameter => by
    rcases List.mem_cons.mp written with rfl | later
    · exact value.serves_bind holds parameter
    · exact rest.serves_bind holds arg later parameter

theorem ArgValue.serves_bind (holds : directory.Holds named implicits displays) :
    ∀ value : ArgValue, ∀ parameter,
      (value.bind directory start parameter).Serves named implicits start parameter (.one value)
  | .literal literal, parameter => .literal literal.value.means_toValue parameter
  | .expr expr, parameter => by
    rw [ArgValue.bind]
    exact Binding.serves_ofRoutes (expr.follow_routes holds parameter.kind)

theorem Chain.isServed_calls (holds : directory.Holds named implicits displays) :
    ∀ main : Chain, ∀ call ∈ main.calls, call.IsServed named implicits start directory
  | .first call, other, member => by
    rw [List.mem_singleton.mp member]
    exact call.isServed_of_holds holds
  | .next parent call, other, member => by
    rcases List.mem_append.mp member with before | here
    · exact parent.isServed_calls holds other before
    · rw [List.mem_singleton.mp here]
      exact call.isServed_of_holds holds

theorem Expr.follow_routes (holds : directory.Holds named implicits displays) :
    ∀ expr : Expr, ∀ tail,
      (Routes.ofList (expr.routes directory start (· == tail))).Follow named implicits start
        expr.arms tail
  | .arm main, tail => by
    rw [Expr.routes]
    split
    · rename_i none
      exact Routes.Follow.skip_arm holds none (.nil tail)
    · rename_i path found
      exact Routes.Follow.take_arm holds (main.isServed_calls holds) found (.nil tail)
  | .orElse main others, tail => by
    have onward := others.follow_routes holds tail
    rw [Expr.routes]
    split
    · rename_i none
      exact Routes.Follow.skip_arm holds none onward
    · rename_i path found
      exact Routes.Follow.take_arm holds (main.isServed_calls holds) found onward

end

/-- The choices of a placeholder are those of the arms that have a way. -/
theorem Choices.follow_arms (holds : directory.Holds named implicits displays)
    (mains : List Chain) :
    Choices.Follow named implicits displays start
      (mains.filterMap (Chain.choice? directory start)) mains := by
  have displayable (kind : Kind) : directory.displays.canDisplay kind = true ↔
      ∃ display ∈ displays, display.kind = kind := by
    rw [DisplayIndex.canDisplay, holds.displays, isSome_lastFor?]
  induction mains with
  | nil => exact .nil
  | cons main others ih =>
    cases found : main.path? directory start directory.displays.canDisplay with
    | none =>
      have skipped : main.choice? directory start = none := by rw [Chain.choice?, found]; rfl
      have lost := main.not_hasWay holds found
      simp only [displayable] at lost
      rw [List.filterMap_cons_none skipped]
      exact .skip lost ih
    | some path =>
      obtain ⟨accepted, nonempty, carries⟩ :=
        main.carries_path? holds (main.isServed_calls holds) found
      obtain ⟨display, shown⟩ := Option.isSome_iff_exists.mp accepted
      have taken : main.choice? directory start =
          some ⟨path.route (main.fills directory start), display⟩ := by
        rw [Chain.choice?, found]
        simp only [Option.bind_eq_bind, Option.bind_some, shown]
        rfl
      rw [holds.displays] at shown
      have same := kind_of_lastFor? shown
      rw [List.filterMap_cons_some taken]
      rw [← same] at shown carries
      exact .take (carries.hasWay ((displayable _).mp (same ▸ accepted))) nonempty shown carries ih

end Holding

/-- Binding resolves every template, whatever is registered: the elements stay in order, an arm
gives a choice if and only if it has a way to a kind with a display, and every choice carries
the calls of its arm with their arguments, at every depth. -/
theorem Template.bind_resolves (store : Store W) (named implicits displays : List LayerId)
    (start : Kind) (template : Template) :
    List.Forall₂
      (Element.Resolves (store.mappings named) (store.mappings implicits)
        (store.displays displays) start)
      template.elements
      (template.bind (.ofLayers store named implicits displays) start).elements := by
  rw [Template.bind, List.forall₂_map_right_iff, List.forall₂_same]
  intro element written
  cases element with
  | text text span => exact .text text span
  | placeholder expr span =>
    exact .placeholder rfl
      (Choices.follow_arms (Directory.holds_ofLayers store named implicits displays) expr.arms)

end TypedTemplate
