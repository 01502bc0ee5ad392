import TypedTemplate.Proofs.Plan.Shares
import TypedTemplate.Proofs.Template.Concatenation
import TypedTemplate.Proofs.Template.Places

/-!
Which argument a parameter gets, as a rule about its place among the parameters and not about
the order in which arguments are dealt. A parameter that is called by its name gets the first
argument of this name; the others share the arguments without names by counting those of them
that stand in front (`leftBefore`). So how arguments with and without names are mixed does not
matter (`Call.fill_followsRule`).
-/
namespace TypedTemplate

variable {W : Type}

/-! ## The rule -/

/-- The first of some arguments with a name. -/
def argument? (arguments : List Arg) (name : String) : Option ArgValue :=
  (arguments.find? fun arg => arg.label == some name).map Arg.value

section Rule

variable (arguments : List Arg) (parameters : List Parameter)

/-- The argument that calls the parameter at a place by its name. Of several parameters with one
name only the first can be called. -/
def callOf? (place : Nat) : Option ArgValue :=
  parameters[place]?.bind fun parameter =>
    if parameter.name ∈ (parameters.take place).map Parameter.name then none
    else argument? arguments parameter.name

/-- The parameters before a place that no argument calls. -/
def uncalledBefore (place : Nat) : List Parameter :=
  (List.range place).filterMap fun earlier =>
    if (callOf? arguments parameters earlier).isNone then parameters[earlier]? else none

/-- The arguments without names that are left at a place: each uncalled parameter before has
taken one, and a variadic one among them all. -/
def leftBefore (place : Nat) : List ArgValue :=
  let uncalled := uncalledBefore arguments parameters place
  if uncalled.any Parameter.variadic then []
  else (arguments.filterMap Arg.positional?).drop uncalled.length

/-- One binding for each parameter: of the argument that calls it, which a variadic parameter
gets as a list, or else, of the arguments without names that are left, of all for a variadic
parameter and of the first for another. -/
structure FollowsRule (bind : ArgValue → Binder W) (bindings : List (Binding W)) : Prop where
  length : bindings.length = parameters.length
  called : ∀ place parameter value, parameters[place]? = some parameter →
    callOf? arguments parameters place = some value →
    bindings[place]? = some (if parameter.variadic then .collected (.ofList [bind value parameter])
      else bind value parameter)
  variadic : ∀ place parameter, parameters[place]? = some parameter →
    callOf? arguments parameters place = none → parameter.variadic = true →
    bindings[place]? = some (.collected
      (.ofList ((leftBefore arguments parameters place).map (bind · parameter))))
  single : ∀ place parameter, parameters[place]? = some parameter →
    callOf? arguments parameters place = none → parameter.variadic = false →
    bindings[place]? = some (match leftBefore arguments parameters place with
      | [] => .unset
      | value :: _ => bind value parameter)

/-- The arguments without names that parameters take: all if an uncalled parameter is variadic,
or else one for each uncalled parameter. The others are surplus. -/
def demanded : List ArgValue :=
  let uncalled := uncalledBefore arguments parameters parameters.length
  let positional := arguments.filterMap Arg.positional?
  if uncalled.any Parameter.variadic then positional else positional.take uncalled.length

/-- Whether two lists of arguments call parameters alike: under each of their names the first
arguments are the same, apart from where they stand. -/
def CallsAlike (others : List Arg) : Prop :=
  ∀ parameter ∈ parameters, (argument? arguments parameter.name).map ArgValue.erase =
    (argument? others parameter.name).map ArgValue.erase

end Rule

/-! ## Dealing by places -/

section Dealing

variable {α : Type}

/-- The share of a parameter of the argument that calls it, if there is one, and of those that
are left. -/
def Parameter.share (parameter : Parameter) (called : Option α) (left : List α) : Share α :=
  match called with
  | some value => .named parameter value
  | none =>
    if parameter.variadic then .all left
    else match left with
      | [] => .none
      | value :: _ => .one value

/-- What is left behind a parameter. -/
def Parameter.leaves (parameter : Parameter) (called : Option α) (left : List α) : List α :=
  match called with
  | some _ => left
  | none => if parameter.variadic then [] else left.tail

theorem deal_cons {taken : List String} {named : List (String × α)} {parameter : Parameter}
    {called : Option α}
    (asked : (if taken.contains parameter.name then none else named.lookup parameter.name) = called)
    (positional : List α) (parameters : List Parameter) :
    deal taken named positional (parameter :: parameters) =
      (parameter, parameter.share called positional) ::
        deal (parameter.name :: taken) named (parameter.leaves called positional) parameters := by
  rw [deal.eq_def]
  dsimp only
  rw [asked]
  cases called with
  | some value => rfl
  | none =>
    dsimp only [Parameter.share, Parameter.leaves]
    split
    · rfl
    · cases positional <;> rfl

end Dealing

theorem lookup_named (arguments : List Arg) (name : String) :
    (arguments.filterMap Arg.named?).lookup name = argument? arguments name := by
  induction arguments with
  | nil => rfl
  | cons arg rest ih =>
    obtain ⟨label, value, span⟩ := arg
    cases label with
    | none => exact ih
    | some label =>
      have named : Arg.named? (.mk (some label) value span) = some (label, value) := rfl
      rw [List.filterMap_cons_some named, List.lookup_cons, ih, argument?, argument?,
        List.find?_cons]
      by_cases same : name = label
      · simp [same, Arg.label, Arg.value]
      · have other : ((Arg.mk (some label) value span).label == some name) = false :=
          beq_false_of_ne fun labelled => same (Option.some.inj labelled).symm
        rw [beq_false_of_ne same, other]

section Places

variable {arguments : List Arg} {parameters : List Parameter} {place : Nat} {parameter : Parameter}

theorem callOf?_eq (found : parameters[place]? = some parameter) :
    (if (((parameters.take place).map Parameter.name).reverse).contains parameter.name then none
      else (arguments.filterMap Arg.named?).lookup parameter.name) =
      callOf? arguments parameters place := by
  rw [callOf?, found, Option.bind_some, lookup_named]
  simp only [List.contains_iff_mem, List.mem_reverse]

theorem uncalledBefore_succ (arguments : List Arg) (found : parameters[place]? = some parameter) :
    uncalledBefore arguments parameters (place + 1) = uncalledBefore arguments parameters place ++
      if (callOf? arguments parameters place).isNone then [parameter] else [] := by
  rw [uncalledBefore, List.range_succ, List.filterMap_append, ← uncalledBefore]
  cases called : callOf? arguments parameters place <;>
    simp only [List.filterMap_cons, List.filterMap_nil, called, found, Option.isNone_none,
      Option.isNone_some, if_true, Bool.false_eq_true, if_false]

theorem leftBefore_succ (found : parameters[place]? = some parameter) :
    leftBefore arguments parameters (place + 1) =
      parameter.leaves (callOf? arguments parameters place)
        (leftBefore arguments parameters place) := by
  rw [leftBefore, leftBefore, uncalledBefore_succ arguments found]
  cases callOf? arguments parameters place with
  | some value => simp [Parameter.leaves]
  | none =>
    cases variadic : parameter.variadic with
    | true => simp [Parameter.leaves, variadic]
    | false =>
      simp only [Parameter.leaves, variadic, Option.isNone_none, if_true, List.any_append,
        List.any_cons, List.any_nil, Bool.or_false, List.length_append, List.length_singleton,
        Bool.false_eq_true, if_false]
      split
      · rfl
      · exact List.tail_drop.symm

/-- From a place on, arguments are dealt to the parameters there from what is left. -/
theorem drop_shares (arguments : List Arg) (inside : place ≤ parameters.length) :
    (shares arguments parameters).drop place =
      deal (((parameters.take place).map Parameter.name).reverse)
        (arguments.filterMap Arg.named?) (leftBefore arguments parameters place)
        (parameters.drop place) := by
  induction place with
  | zero => rfl
  | succ place ih =>
    have found : parameters[place]? = some parameters[place] := List.getElem?_eq_getElem inside
    have before := ih (Nat.le_of_lt inside)
    rw [List.drop_eq_getElem_cons inside, deal_cons (callOf?_eq found), ← leftBefore_succ found]
      at before
    rw [← List.tail_drop, before, List.tail_cons, List.take_add_one, found, Option.toList_some,
      List.map_append, List.reverse_append]
    rfl

theorem getElem?_shares (found : parameters[place]? = some parameter) :
    (shares arguments parameters)[place]? =
      some (parameter, parameter.share (callOf? arguments parameters place)
        (leftBefore arguments parameters place)) := by
  obtain ⟨inside, same⟩ := List.getElem?_eq_some_iff.mp found
  have dealt := drop_shares arguments (Nat.le_of_lt inside)
  rw [List.drop_eq_getElem_cons inside, same, deal_cons (callOf?_eq found)] at dealt
  rw [← List.head?_drop, dealt, List.head?_cons]

end Places

/-! ## Arguments that are alike -/

section Alike

variable {first second : List Arg} {parameters : List Parameter} {place : Nat}
  {parameter : Parameter}

theorem CallsAlike.map_callOf? (alike : CallsAlike first parameters second) (place : Nat) :
    (callOf? first parameters place).map ArgValue.erase =
      (callOf? second parameters place).map ArgValue.erase := by
  rw [callOf?, callOf?]
  cases found : parameters[place]? with
  | none => rfl
  | some parameter =>
    rw [Option.bind_some, Option.bind_some]
    split
    · rfl
    · exact alike parameter (List.mem_of_getElem? found)

theorem CallsAlike.uncalledBefore_eq (alike : CallsAlike first parameters second) (place : Nat) :
    uncalledBefore first parameters place =
      uncalledBefore second parameters place := by
  refine List.filterMap_congr fun earlier _ => ?_
  have same := congrArg Option.isNone (alike.map_callOf? earlier)
  rw [Option.isNone_map, Option.isNone_map] at same
  rw [same]

theorem uncalledBefore_prefix (arguments : List Arg) (parameters : List Parameter)
    {place later : Nat} (before : place ≤ later) :
    uncalledBefore arguments parameters place <+: uncalledBefore arguments parameters later := by
  have range : List.range place = (List.range later).take place := by
    rw [List.take_range, Nat.min_eq_left before]
  rw [uncalledBefore, range]
  exact (List.take_prefix _ _).filterMap _

/-- An uncalled parameter is one of all the uncalled ones, with those before it in front. -/
theorem uncalledBefore_at {arguments : List Arg} (found : parameters[place]? = some parameter)
    (uncalled : callOf? arguments parameters place = none) :
    uncalledBefore arguments parameters place ++ [parameter] <+:
      uncalledBefore arguments parameters parameters.length := by
  have next := uncalledBefore_succ arguments found
  rw [uncalled, Option.isNone_none, if_pos rfl] at next
  rw [← next]
  exact uncalledBefore_prefix arguments parameters (List.getElem?_eq_some_iff.mp found).1

/-- What is left at an uncalled parameter begins alike if what is demanded is alike, and all of
it is alike if the parameter is variadic. -/
theorem CallsAlike.left {β : Type} {f : ArgValue → β} (alike : CallsAlike first parameters second)
    (demands : (demanded first parameters).map f = (demanded second parameters).map f)
    (found : parameters[place]? = some parameter)
    (uncalled : callOf? first parameters place = none) :
    (leftBefore first parameters place).head?.map f =
        (leftBefore second parameters place).head?.map f ∧
      (parameter.variadic = true → (leftBefore first parameters place).map f =
        (leftBefore second parameters place).map f) := by
  have front := uncalledBefore_at found uncalled
  rw [demanded, demanded, ← alike.uncalledBefore_eq] at demands
  rw [leftBefore, leftBefore, ← alike.uncalledBefore_eq]
  cases any : (uncalledBefore first parameters parameters.length).any Parameter.variadic with
  | true =>
    rw [any, if_pos rfl, if_pos rfl] at demands
    rw [← List.head?_map, ← List.head?_map]
    split
    · exact ⟨rfl, fun _ => rfl⟩
    · rw [List.map_drop, List.map_drop, demands]
      exact ⟨rfl, fun _ => rfl⟩
  | false =>
    -- No uncalled parameter is variadic, so this one takes one argument, which is demanded.
    have single := List.any_eq_false.mp any
    have before : (uncalledBefore first parameters place).any Parameter.variadic = false :=
      List.any_eq_false.mpr fun other member =>
        single other (front.subset (List.mem_append_left _ member))
    have less := front.length_le
    rw [List.length_append, List.length_singleton] at less
    rw [any, if_neg Bool.false_ne_true, if_neg Bool.false_ne_true] at demands
    rw [before, if_neg Bool.false_ne_true, if_neg Bool.false_ne_true, List.head?_drop,
      List.head?_drop]
    refine ⟨?_, fun variadic => absurd variadic (single parameter (front.subset (by simp)))⟩
    have same := congrArg (·[(uncalledBefore first parameters place).length]?) demands
    simpa only [List.getElem?_map, List.getElem?_take_of_lt less] using same

end Alike

/-! ## Binding -/

/-- A share is bound to the same if its arguments are. -/
theorem Parameter.bind_share_congr {bind : ArgValue → Binder W} {parameter : Parameter}
    {called other : Option ArgValue} {left rest : List ArgValue}
    (alike : called.map bind = other.map bind)
    (head : called = none → left.head?.map bind = rest.head?.map bind)
    (all : called = none → parameter.variadic = true → left.map bind = rest.map bind) :
    (parameter.share called left).bind bind parameter =
      (parameter.share other rest).bind bind parameter := by
  cases called with
  | some value =>
    obtain ⟨found, rfl, same⟩ := Option.map_eq_some_iff.mp alike.symm
    rw [Parameter.share, Parameter.share, Share.bind_named, Share.bind_named, same]
  | none =>
    obtain rfl := Option.map_eq_none_iff.mp alike.symm
    cases variadic : parameter.variadic with
    | true =>
      have values := congrArg (List.map (· parameter)) (all rfl variadic)
      rw [List.map_map, List.map_map] at values
      simp only [Parameter.share, variadic, if_true]
      exact congrArg (Binding.collected ∘ Bindings.ofList) values
    | false =>
      have values := head rfl
      simp only [Parameter.share, variadic, Bool.false_eq_true, if_false]
      cases left <;> cases rest <;> simp_all [Share.bind]

/-- Where an argument stands does not matter to what it is bound to. -/
theorem ArgValue.bind_comp_erase (directory : Directory W) (start : Kind) :
    ArgValue.bind directory start ∘ ArgValue.erase = ArgValue.bind directory start := by
  funext value
  rw [Function.comp_apply, ← value.relocate_zero, value.bind_relocate]

namespace Call

variable (directory : Directory W) (start : Kind) (mapping : Mapping W)

theorem getElem?_fill (call : Call) {place : Nat} {parameter : Parameter}
    (found : mapping.parameters[place]? = some parameter) :
    (call.fill directory start mapping).toList[place]? =
      some ((parameter.share (callOf? call.arguments mapping.parameters place)
        (leftBefore call.arguments mapping.parameters place)).bind
          (ArgValue.bind directory start) parameter) := by
  rw [call.fill_eq, Bindings.toList_ofList, List.getElem?_map, getElem?_shares found]
  rfl

theorem followsRule (call : Call) :
    FollowsRule call.arguments mapping.parameters (ArgValue.bind directory start)
      (call.fill directory start mapping).toList := by
  refine ⟨?_, fun place parameter value found called => ?_,
    fun place parameter found uncalled variadic => ?_,
    fun place parameter found uncalled single => ?_⟩
  · rw [call.fill_eq, Bindings.toList_ofList, List.length_map]
    simpa using congrArg List.length (map_fst_shares call.arguments mapping.parameters)
  · rw [call.getElem?_fill directory start mapping found, called, Parameter.share,
      Share.bind_named]
    rfl
  · rw [call.getElem?_fill directory start mapping found, uncalled]
    simp only [Parameter.share, variadic, if_true]
    rfl
  · rw [call.getElem?_fill directory start mapping found, uncalled]
    simp only [Parameter.share, single, Bool.false_eq_true, if_false]
    cases leftBefore call.arguments mapping.parameters place <;> rfl

/-- Arguments that no parameter asks for do not matter, nor does their order with the others. -/
theorem fill_congr {call other : Call}
    (alike : CallsAlike call.arguments mapping.parameters other.arguments)
    (demands : (demanded call.arguments mapping.parameters).map ArgValue.erase =
      (demanded other.arguments mapping.parameters).map ArgValue.erase) :
    other.fill directory start mapping = call.fill directory start mapping := by
  have bound {first second : Option ArgValue}
      (same : first.map ArgValue.erase = second.map ArgValue.erase) :
      first.map (ArgValue.bind directory start) = second.map (ArgValue.bind directory start) := by
    rw [← ArgValue.bind_comp_erase, ← Option.map_map, same, Option.map_map]
  have demandsBound := congrArg (List.map (ArgValue.bind directory start)) demands
  rw [List.map_map, List.map_map, ArgValue.bind_comp_erase] at demandsBound
  rw [other.fill_eq, call.fill_eq]
  refine congrArg Bindings.ofList (List.ext_getElem? fun place => ?_)
  rw [List.getElem?_map, List.getElem?_map]
  cases found : mapping.parameters[place]? with
  | none =>
    have outside (arguments : List Arg) :
        (shares arguments mapping.parameters)[place]? = none := by
      have length := congrArg List.length (map_fst_shares arguments mapping.parameters)
      rw [List.length_map] at length
      rw [List.getElem?_eq_none_iff] at found ⊢
      exact Nat.le_trans (Nat.le_of_eq length) found
    rw [outside, outside]
  | some parameter =>
    rw [getElem?_shares found, getElem?_shares found, Option.map_some, Option.map_some]
    refine congrArg some (Parameter.bind_share_congr (bound (alike.map_callOf? place))
      (fun uncalled => ?_) fun uncalled => ?_).symm
    · exact (alike.left demandsBound found uncalled).1
    · exact (alike.left demandsBound found uncalled).2

/-- Of the same arguments without names the same are demanded. -/
theorem demanded_congr {arguments others : List Arg} {parameters : List Parameter}
    (alike : CallsAlike arguments parameters others)
    (positional : (arguments.filterMap Arg.positional?).map ArgValue.erase =
      (others.filterMap Arg.positional?).map ArgValue.erase) :
    (demanded arguments parameters).map ArgValue.erase =
      (demanded others parameters).map ArgValue.erase := by
  rw [demanded, demanded, ← alike.uncalledBefore_eq]
  split
  · exact positional
  · rw [List.map_take, List.map_take, positional]

/-- Parameters are bound by a rule in which the order of arguments with and without names does not
occur, and one that gets a literal is bound to the value of it. So two calls with the same arguments
without names, and the same first argument under each name of a parameter, bind alike however their
arguments are mixed; arguments under other names, repeated ones and surplus ones are dropped. -/
theorem fill_followsRule (call : Call) :
    FollowsRule call.arguments mapping.parameters (ArgValue.bind directory start)
      (call.fill directory start mapping).toList ∧
    (∀ (literal : Literal) (parameter : Parameter), ∃ value,
      (ArgValue.literal literal).bind directory start parameter = .constant value ∧
        literal.value.Means value) ∧
    (∀ other : Call, CallsAlike call.arguments mapping.parameters other.arguments →
      (call.arguments.filterMap Arg.positional?).map ArgValue.erase =
        (other.arguments.filterMap Arg.positional?).map ArgValue.erase →
      other.fill directory start mapping = call.fill directory start mapping) ∧
    ∀ other : Call, CallsAlike call.arguments mapping.parameters other.arguments →
      (demanded call.arguments mapping.parameters).map ArgValue.erase =
        (demanded other.arguments mapping.parameters).map ArgValue.erase →
      other.fill directory start mapping = call.fill directory start mapping :=
  ⟨call.followsRule directory start mapping,
    fun literal _ => ⟨_, rfl, literal.value.means_toValue⟩,
    fun _ alike positional => fill_congr directory start mapping alike
      (demanded_congr alike positional),
    fun _ alike demands => fill_congr directory start mapping alike demands⟩

end Call

end TypedTemplate
