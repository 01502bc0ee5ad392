import TypedTemplate.Plan.Binding

/-!
Shares. Which parameter gets which of the arguments written at a call does not depend on
what the arguments become. `deal` hands out the arguments as they are written, and binding
a call binds what has been dealt (`Call.fill_eq`).
-/
namespace TypedTemplate

variable {W : Type}

/-- What a parameter gets of some arguments: none of them, one, or a list of them. -/
inductive Share (α : Type) where
  | none
  | one (value : α)
  | all (values : List α)

namespace Share

variable {α : Type}

def values : Share α → List α
  | none => []
  | one value => [value]
  | all values => values

/-- The share of a parameter that is called by its name. -/
def named (parameter : Parameter) (value : α) : Share α :=
  if parameter.variadic then all [value] else one value

/-- What a parameter is bound to when its share is. -/
def bind (binder : α → Binder W) (parameter : Parameter) : Share α → Binding W
  | none => .unset
  | one value => binder value parameter
  | all values => .collected (.ofList (values.map (binder · parameter)))

theorem values_named (parameter : Parameter) (value : α) :
    (named parameter value).values = [value] := by
  rw [named]
  split <;> rfl

theorem bind_named (binder : α → Binder W) (parameter : Parameter) (value : α) :
    (named parameter value).bind binder parameter = parameter.bindNamed (binder value) := by
  rw [named, Parameter.bindNamed]
  split <;> rfl

end Share

/-! ## Dealing -/

section Dealing

variable {α : Type}

/-- The parameters with their shares. An argument with a name goes to the first parameter of
that name, the others go from left to right to the parameters that are left, the first
variadic one of which takes all. -/
def deal (taken : List String) (named : List (String × α)) (positional : List α) :
    List Parameter → List (Parameter × Share α)
  | [] => []
  | parameter :: parameters =>
    match if taken.contains parameter.name then none else named.lookup parameter.name with
    | some value =>
      (parameter, .named parameter value) ::
        deal (parameter.name :: taken) named positional parameters
    | none =>
      if parameter.variadic then
        (parameter, .all positional) :: deal (parameter.name :: taken) named [] parameters
      else
        match positional with
        | [] => (parameter, .none) :: deal (parameter.name :: taken) named [] parameters
        | value :: positional =>
          (parameter, .one value) :: deal (parameter.name :: taken) named positional parameters

theorem map_fst_deal (taken : List String) (named : List (String × α)) (positional : List α)
    (parameters : List Parameter) :
    (deal taken named positional parameters).map Prod.fst = parameters := by
  fun_induction deal taken named positional parameters <;> simp_all

/-- All that is dealt has been written. -/
theorem mem_of_mem_deal {taken : List String} {named : List (String × α)} {positional : List α}
    {parameters : List Parameter} {entry : Parameter × Share α}
    (dealt : entry ∈ deal taken named positional parameters) {value : α}
    (given : value ∈ entry.2.values) :
    value ∈ named.map Prod.snd ∨ value ∈ positional := by
  fun_induction deal taken named positional parameters with
  | case1 => cases dealt
  | case2 taken positional parameter parameters first found ih =>
    rcases List.mem_cons.mp dealt with rfl | later
    · rw [Share.values_named, List.mem_singleton] at given
      subst given
      have looked : named.lookup parameter.name = some value := by
        split at found
        · cases found
        · exact found
      obtain ⟨before, after, split, -⟩ := List.lookup_eq_some_iff.mp looked
      exact .inl (List.mem_map.mpr ⟨(parameter.name, value), by simp [split], rfl⟩)
    · exact ih later
  | case3 taken positional parameter parameters notNamed variadic ih =>
    rcases List.mem_cons.mp dealt with rfl | later
    · exact .inr given
    · exact (ih later).imp_right (by simp)
  | case4 taken parameter parameters notNamed single ih =>
    rcases List.mem_cons.mp dealt with rfl | later
    · cases given
    · exact ih later
  | case5 taken parameter parameters notNamed single first positional ih =>
    rcases List.mem_cons.mp dealt with rfl | later
    · exact .inr (List.mem_cons.mpr (.inl (List.mem_singleton.mp given)))
    · exact (ih later).imp_right (List.mem_cons_of_mem _)

theorem lookup_map_snd {β : Type} (f : α → β) (entries : List (String × α)) (name : String) :
    (entries.map fun entry => (entry.1, f entry.2)).lookup name =
      (entries.lookup name).map f := by
  induction entries with
  | nil => rfl
  | cons entry rest ih =>
    rw [List.map_cons, List.lookup_cons, List.lookup_cons, ih]
    cases name == entry.1 <;> rfl

/-- Binding the arguments before they are assigned is binding them after they are dealt. -/
theorem assign_map (binder : α → Binder W) (taken : List String) (named : List (String × α))
    (positional : List α) (parameters : List Parameter) :
    assign taken ⟨named.map fun entry => (entry.1, binder entry.2), positional.map binder⟩
        parameters =
      .ofList ((deal taken named positional parameters).map fun entry =>
        entry.2.bind binder entry.1) := by
  have lookup (taken : List String) (name : String) :
      (if taken.contains name then none
        else (named.map fun entry => (entry.1, binder entry.2)).lookup name) =
      (if taken.contains name then none else named.lookup name).map binder := by
    split
    · rfl
    · exact lookup_map_snd binder named name
  fun_induction deal taken named positional parameters with
  | case1 => rfl
  | case2 taken positional parameter parameters value found ih =>
    rw [assign, lookup, found, Option.map_some]
    dsimp only
    rw [ih, List.map_cons, Share.bind_named]
    rfl
  | case3 taken positional parameter parameters notNamed variadic ih =>
    rw [assign, lookup, notNamed, Option.map_none]
    dsimp only
    rw [List.map_nil] at ih
    rw [if_pos variadic, List.map_map, ih]
    rfl
  | case4 taken parameter parameters notNamed single ih =>
    rw [assign, lookup, notNamed, Option.map_none]
    dsimp only
    rw [List.map_nil] at ih
    rw [if_neg single, List.map_nil]
    dsimp only
    rw [ih]
    rfl
  | case5 taken parameter parameters notNamed single value positional ih =>
    rw [assign, lookup, notNamed, Option.map_none]
    dsimp only
    rw [if_neg single, List.map_cons]
    dsimp only
    rw [ih]
    rfl

end Dealing

/-! ## Literals -/

/-- Whether a value is the one that is written with a literal. -/
inductive LiteralValue.Means : LiteralValue → Value → Prop
  | bool (value : Bool) : Means (.bool value) (.bool value)
  | number (value : Float) : Means (.number value) (.number value)
  | text (value : String) : Means (.text value) (.text value)

theorem LiteralValue.means_toValue : ∀ literal : LiteralValue, literal.Means literal.toValue
  | .bool value => .bool value
  | .number value => .number value
  | .text value => .text value

/-! ## Calls -/

/-- The arguments written at a call. -/
def Call.arguments (call : Call) : List Arg := (call.args?.map Args.toList).getD []

/-- An argument with its name, if it has one. -/
def Arg.named? (arg : Arg) : Option (String × ArgValue) := arg.label.map (·, arg.value)

/-- An argument without a name. -/
def Arg.positional? (arg : Arg) : Option ArgValue :=
  if arg.label.isNone then some arg.value else none

/-- The parameters of a mapping with their shares of some arguments. -/
def shares (arguments : List Arg) (parameters : List Parameter) :
    List (Parameter × Share ArgValue) :=
  deal [] (arguments.filterMap Arg.named?) (arguments.filterMap Arg.positional?) parameters

theorem map_fst_shares (arguments : List Arg) (parameters : List Parameter) :
    (shares arguments parameters).map Prod.fst = parameters :=
  map_fst_deal [] _ _ parameters

theorem mem_of_mem_shares {arguments : List Arg} {parameters : List Parameter}
    {entry : Parameter × Share ArgValue} (dealt : entry ∈ shares arguments parameters)
    {value : ArgValue} (given : value ∈ entry.2.values) : ∃ arg ∈ arguments, arg.value = value := by
  rcases mem_of_mem_deal dealt given with named | positional
  · obtain ⟨⟨name, value⟩, member, rfl⟩ := List.mem_map.mp named
    obtain ⟨arg, written, found⟩ := List.mem_filterMap.mp member
    obtain ⟨label, -, same⟩ := Option.map_eq_some_iff.mp found
    cases same
    exact ⟨arg, written, rfl⟩
  · obtain ⟨arg, written, found⟩ := List.mem_filterMap.mp positional
    rw [Arg.positional?] at found
    split at found
    · exact ⟨arg, written, Option.some.inj found⟩
    · cases found

theorem Args.written_eq (directory : Directory W) (start : Kind) (args : Args) :
    args.written directory start =
      ⟨(args.toList.filterMap Arg.named?).map fun entry =>
          (entry.1, entry.2.bind directory start),
        (args.toList.filterMap Arg.positional?).map (ArgValue.bind directory start)⟩ := by
  fun_induction Args.toList args with
  | case1 => rfl
  | case2 arg rest ih =>
    obtain ⟨label, value, span⟩ := arg
    rw [written, ih]
    cases label <;> rfl

/-- A call binds to each parameter its share of the arguments written at it. -/
theorem Call.fill_eq (directory : Directory W) (start : Kind) (call : Call) (mapping : Mapping W) :
    call.fill directory start mapping =
      .ofList ((shares call.arguments mapping.parameters).map fun entry =>
        entry.2.bind (ArgValue.bind directory start) entry.1) := by
  cases call with
  | bare name span => exact assign_map (ArgValue.bind directory start) [] [] [] mapping.parameters
  | applied name args span =>
    rw [fill, args.written_eq]
    exact assign_map (ArgValue.bind directory start) [] _ _ mapping.parameters

end TypedTemplate
