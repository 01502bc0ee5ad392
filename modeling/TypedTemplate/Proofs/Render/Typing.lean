import Mathlib.Data.List.Forall2
import TypedTemplate.Proofs.Plan.Kinds
import TypedTemplate.Proofs.Render.Compilation
import TypedTemplate.Proofs.Render.Recompute

/-!
Rendering respects kinds. Between two steps of a program there is a stack of frames whose
values are of the kinds that the plan says (`Fits`); each step keeps this and calls nothing
with values of other kinds (`Step.Keeps`). Chained together (`Annotated`), this holds of whole
programs, whether they are taken at once or in parts from slots that have been kept.
-/
namespace TypedTemplate

variable {W : Type}

/-- Whether the results for receivers of the source kind are of the target kind. -/
def Mapping.Respects (holds : Kind → Value → Prop) (mapping : Mapping W) : Prop :=
  ∀ world receiver args value, holds mapping.source receiver →
    mapping.map world receiver args = some value → holds mapping.target value

/-! ## Hops at every depth -/

mutual

/-- The mappings on a route with what their parameters get, those for arguments included. -/
def Route.allHops : Route W → List (Mapping W × Bindings W)
  | .nil => []
  | .cons mapping args rest => args.allHops ++ (mapping, args) :: rest.allHops

def Bindings.allHops : Bindings W → List (Mapping W × Bindings W)
  | .nil => []
  | .cons first rest => first.allHops ++ rest.allHops

def Binding.allHops : Binding W → List (Mapping W × Bindings W)
  | .unset | .constant _ => []
  | .firstOf route others => route.allHops ++ others.allHops
  | .collected items => items.allHops

def Routes.allHops : Routes W → List (Mapping W × Bindings W)
  | .nil => []
  | .cons first rest => first.allHops ++ rest.allHops

end

def BoundTemplate.hops (template : BoundTemplate W) : List (Mapping W × Bindings W) :=
  template.choices.flatMap fun choice => choice.route.allHops

theorem Bindings.length_toList (items : Bindings W) : items.toList.length = items.length := by
  induction items using Bindings.length.induct with
  | case1 => rfl
  | case2 first rest ih => rw [toList, length, List.length_cons, ih]

/-! ## Typed calls -/

/-- What kinds mean, and what a template is made of. -/
structure Typing (W : Type) where
  holds : Kind → Value → Prop
  literals : List Value
  hops : List (Mapping W × Bindings W)

namespace Typing

variable (typing : Typing W)

/-- The values that a single argument for a kind may have: one that stems from routes is of
that kind. -/
def Gives (kind : Kind) : Binding W → Option Value → Prop
  | .unset, value => value = none
  | .constant literal, value => value = some literal ∧ literal ∈ typing.literals
  | .firstOf _ _, value => ∀ given, value = some given → typing.holds kind given
  | .collected _, _ => False

/-- The values that a parameter may get. A variadic one gets a list of such values. -/
def Fills (parameter : Parameter) : Binding W → Option Value → Prop
  | .collected items, value =>
    parameter.variadic = true ∧ ∃ values,
      List.Forall₂ (typing.Gives parameter.kind) items.toList values ∧
        value = some (.list (values.filterMap id))
  | binding, value => parameter.variadic = false ∧ typing.Gives parameter.kind binding value

/-- Whether arguments are what the parameters with their bindings get. -/
def FillsAll (given : List (Parameter × Binding W)) (args : Arguments) : Prop :=
  List.Forall₂ (fun filled value => typing.Fills filled.1 filled.2 value) given args

/-- Whether a mapping of the plan is applied to a receiver of its source kind and to what
its parameters get. -/
structure Applies (mapping : Mapping W) (receiver : Value) (args : Arguments) : Prop where
  receiver : typing.holds mapping.source receiver
  args : ∃ bindings, (mapping, bindings) ∈ typing.hops ∧
    bindings.length = mapping.parameters.length ∧
    typing.FillsAll (mapping.parameters.zip bindings.toList) args

/-- The calls that respect kinds. -/
def Allows : HostCall W → Prop
  | .map mapping receiver args => typing.Applies mapping receiver args
  | .subscribe mapping receiver args _ => typing.Applies mapping receiver args
  | .display shown value _ => typing.holds shown.kind value
  | .cancel _ _ => True

/-- Whether all calls that have been made in between respect kinds. -/
def AllowsSince (before after : Host W) : Prop :=
  ∃ calls, after.calls = before.calls ++ calls ∧ ∀ call ∈ calls, typing.Allows call

/-! ## Slots between steps -/

/-- A frame between two steps: the kind of its value, and the parameters that have got
theirs. -/
structure Shape (W : Type) where
  kind : Kind
  given : List (Parameter × Binding W)

structure FrameFits (shape : Shape W) (frame : Frame) : Prop where
  receiver : ∀ value, frame.receiver = some value → typing.holds shape.kind value
  args : typing.FillsAll shape.given frame.args

/-- Whether a slot holds frames of these shapes, the innermost first. -/
def Fits (shapes : List (Shape W)) (slot : Slot) : Prop :=
  ∃ stack, slot = .frames stack ∧ List.Forall₂ typing.FrameFits shapes stack

end Typing

/-- Whether a step takes slots of one sort to slots of another, and makes only calls that
respect kinds. -/
structure Step.Keeps (typing : Typing W) (before : Slot → Prop) (step : Step W)
    (after : Slot → Prop) : Prop where
  slot : ∀ world input, before input → after (step.result world input)
  calls : ∀ watch host input, before input →
    typing.AllowsSince host (step.run watch host input).host

namespace Typing

variable {typing : Typing W} {before middle after : Host W}

theorem allowsSince_refl (host : Host W) : typing.AllowsSince host host :=
  ⟨[], (List.append_nil _).symm, by simp⟩

theorem AllowsSince.trans (first : typing.AllowsSince before middle)
    (next : typing.AllowsSince middle after) : typing.AllowsSince before after := by
  obtain ⟨calls, made, allowed⟩ := first
  obtain ⟨later, madeLater, allowedLater⟩ := next
  refine ⟨calls ++ later, by rw [madeLater, made, List.append_assoc], fun call member => ?_⟩
  exact (List.mem_append.mp member).elim (allowed call) (allowedLater call)

theorem allowsSince_note (host : Host W) {call : HostCall W} (allowed : typing.Allows call) :
    typing.AllowsSince host (host.note call) :=
  ⟨[call], rfl, by simpa using allowed⟩

theorem allowsSince_cancel (host : Host W) (id : FeedId) :
    typing.AllowsSince host (host.cancel id).2 := by
  unfold Host.cancel
  split
  · exact allowsSince_refl host
  · split
    · exact allowsSince_refl host
    · dsimp only
      split
      · exact allowsSince_refl host
      · exact allowsSince_note _ trivial

theorem allowsSince_subscribe (host : Host W) {mapping : Mapping W} {receiver : Value}
    {args : Arguments} (applies : typing.Applies mapping receiver args) :
    typing.AllowsSince host (host.subscribe mapping receiver args).2 := by
  unfold Host.subscribe
  split
  · exact allowsSince_refl host
  · exact @allowsSince_note _ typing (host.listen _).2 _ applies

/-! ## Steps -/

variable {shapes : List (Shape W)} {kind : Kind} {given : List (Parameter × Binding W)}

theorem fits_push {slot : Slot} (fits : typing.Fits shapes slot) {value : Option Value}
    (holds : ∀ given, value = some given → typing.holds kind given) :
    typing.Fits (⟨kind, []⟩ :: shapes) (.frames (⟨value, []⟩ :: slot.stack)) := by
  obtain ⟨stack, rfl, frames⟩ := fits
  exact ⟨_, rfl, .cons ⟨holds, .nil⟩ frames⟩

theorem FillsAll.split {more : List (Parameter × Binding W)} {args : Arguments}
    (fills : typing.FillsAll (given ++ more) args) :
    typing.FillsAll given (args.take (args.length - more.length)) ∧
      typing.FillsAll more (args.drop (args.length - more.length)) := by
  have kept : args.length - more.length = given.length := by
    have length := fills.length_eq
    rw [List.length_append] at length
    omega
  have first := List.forall₂_take given.length fills
  have last := List.forall₂_drop given.length fills
  rw [List.take_left] at first
  rw [List.drop_left] at last
  rw [kept]
  exact ⟨first, last⟩

theorem FillsAll.last {filled : Parameter × Binding W} {args : Arguments}
    (fills : typing.FillsAll (given ++ [filled]) args) :
    ∃ before value, args = before ++ [value] ∧ typing.FillsAll given before ∧
      typing.Fills filled.1 filled.2 value := by
  obtain ⟨first, last⟩ := fills.split
  obtain ⟨value, rest, fits, none, split⟩ := List.forall₂_cons_left_iff.mp last
  rw [List.forall₂_nil_left_iff.mp none] at split
  refine ⟨_, value, ?_, first, fits⟩
  rw [← split, List.take_append_drop]

theorem gives_of_fills_single {parameter : Parameter} {binding : Binding W} {value : Option Value}
    (fills : typing.Fills parameter.single binding value) :
    typing.Gives parameter.kind binding value := by
  cases binding with
  | collected items => cases fills.1
  | _ => exact fills.2

theorem FrameFits.give {frame : Frame} (fits : typing.FrameFits ⟨kind, given⟩ frame)
    {parameter : Parameter} {binding : Binding W} {value : Option Value}
    (fills : typing.Fills parameter binding value) :
    typing.FrameFits ⟨kind, given ++ [(parameter, binding)]⟩
      { frame with args := frame.args ++ [value] } :=
  ⟨fits.receiver, List.rel_append fits.args (.cons fills .nil)⟩

end Typing

section Steps

open Typing

variable {typing : Typing W} {shapes : List (Shape W)} {kind : Kind}
  {given : List (Parameter × Binding W)} {parameter : Parameter}

/-- Steps that call nothing only need to keep the shapes. -/
theorem Step.keeps_of_quiet {step : Step W} {before after : Slot → Prop}
    (quiet : ∀ watch host input, (step.run watch host input).host = host)
    (slot : ∀ world input, before input → after (step.result world input)) :
    step.Keeps typing before after :=
  ⟨slot, fun watch host input _ => by rw [quiet]; exact allowsSince_refl host⟩

theorem keeps_begin {context : Value} (starts : typing.holds kind context)
    (before : Slot → Prop) :
    Step.Keeps typing before (.begin context) (typing.Fits [⟨kind, []⟩]) := by
  refine Step.keeps_of_quiet (fun _ _ _ => rfl) fun world input _ => ?_
  refine ⟨_, rfl, .cons ⟨fun value same => ?_, .nil⟩ .nil⟩
  cases same
  exact starts

theorem keeps_push {context : Value} (starts : typing.holds kind context) (alternative : Bool) :
    Step.Keeps typing (typing.Fits shapes) (.push context alternative)
      (typing.Fits (⟨kind, []⟩ :: shapes)) := by
  refine Step.keeps_of_quiet (fun _ _ _ => rfl) fun world input fits => ?_
  refine fits_push fits fun value same => ?_
  split at same <;> cases same
  exact starts

/-- Giving the innermost frame one more argument. -/
theorem keeps_pushArg {step : Step W} {value : Option Value} {binding : Binding W}
    (fills : typing.Fills parameter binding value)
    (run : ∀ watch host input, step.run watch host input = ⟨input.pushArg value, none, host⟩) :
    Step.Keeps typing (typing.Fits (⟨kind, given⟩ :: shapes)) step
      (typing.Fits (⟨kind, given ++ [(parameter, binding)]⟩ :: shapes)) := by
  refine Step.keeps_of_quiet (fun watch host input => by rw [run]) ?_
  rintro world input ⟨stack, rfl, frames⟩
  cases frames with
  | cons top rest =>
    rw [Step.result, run]
    exact ⟨_, rfl, .cons (top.give fills) rest⟩

theorem keeps_collect {items : Bindings W} (variadic : parameter.variadic = true)
    {filled : List (Parameter × Binding W)}
    (same : filled = items.toList.map fun item => (parameter.single, item)) :
    Step.Keeps typing (typing.Fits (⟨kind, given ++ filled⟩ :: shapes)) (.collect items.length)
      (typing.Fits (⟨kind, given ++ [(parameter, .collected items)]⟩ :: shapes)) := by
  refine Step.keeps_of_quiet (fun watch host input => ?_) ?_
  · unfold Step.run
    cases input.stack <;> rfl
  · rintro world input ⟨stack, rfl, frames⟩
    cases frames with
    | @cons _ top _ rest head tail =>
      obtain ⟨before, taken⟩ := FillsAll.split head.args
      have count : filled.length = items.length := by
        rw [same, List.length_map, items.length_toList]
      rw [count] at before taken
      rw [same] at taken
      have values := (List.forall₂_map_left_iff.mp taken).imp fun item value fills =>
        gives_of_fills_single fills
      have collected : typing.Fills parameter (.collected items)
          (some (.list ((top.args.drop (top.args.length - items.length)).filterMap id))) :=
        ⟨variadic, _, values, rfl⟩
      exact ⟨_, rfl, .cons ⟨head.receiver, List.rel_append before (.cons collected .nil)⟩ tail⟩

theorem keeps_map {mapping : Mapping W} {bindings : Bindings W}
    (respects : mapping.Respects typing.holds) (known : (mapping, bindings) ∈ typing.hops)
    (length : bindings.length = mapping.parameters.length) :
    Step.Keeps typing
      (typing.Fits (⟨mapping.source, mapping.parameters.zip bindings.toList⟩ :: shapes))
      (.map mapping) (typing.Fits (⟨mapping.target, []⟩ :: shapes)) := by
  constructor
  · rintro world input ⟨stack, rfl, frames⟩
    cases frames with
    | @cons _ top _ rest head tail =>
      rw [Step.result, Step.run, Slot.stack]
      dsimp only
      rw [Step.applyTop_frame]
      refine ⟨_, rfl, .cons ⟨fun value mapped => ?_, .nil⟩ tail⟩
      obtain ⟨receiver, present, mapped⟩ := Option.bind_eq_some_iff.mp mapped
      exact respects world receiver top.args value (head.receiver receiver present) mapped
  · rintro watch host input ⟨stack, rfl, frames⟩
    cases frames with
    | @cons _ top _ rest head tail =>
      obtain ⟨receiver, args⟩ := top
      rw [Step.run, Slot.stack]
      dsimp only
      unfold Step.applyTop
      cases receiver with
      | none => exact allowsSince_refl host
      | some receiver =>
        have applies : typing.Applies mapping receiver args :=
          ⟨head.receiver receiver rfl, bindings, known, length, head.args⟩
        cases watch with
        | false => exact allowsSince_note host applies
        | true => exact (allowsSince_subscribe host applies).trans (allowsSince_note _ applies)

theorem Step.run_pop_host (alternative watch : Bool) (host : Host W) (input : Slot) :
    ((pop alternative : Step W).run watch host input).host = host := by
  unfold run
  rcases input.stack with _ | ⟨top, _ | ⟨parent, rest⟩⟩ <;> rfl

theorem keeps_pop {route : Route W} {others : Routes W} (single : parameter.variadic = false) :
    Step.Keeps typing (typing.Fits (⟨parameter.kind, []⟩ :: ⟨kind, given⟩ :: shapes))
      (.pop false)
      (typing.Fits (⟨kind, given ++ [(parameter, .firstOf route others)]⟩ :: shapes)) := by
  refine Step.keeps_of_quiet (fun watch host input => ?_) ?_
  · exact Step.run_pop_host false watch host input
  · rintro world input ⟨stack, rfl, frames⟩
    rcases frames with _ | ⟨top, _ | ⟨parent, rest⟩⟩
    exact ⟨_, rfl, .cons (parent.give ⟨single, top.receiver⟩) rest⟩

theorem keeps_popAlternative {route : Route W} {others : Routes W}
    (single : parameter.variadic = false) :
    Step.Keeps typing
      (typing.Fits (⟨parameter.kind, []⟩ ::
        ⟨kind, given ++ [(parameter, .firstOf route others)]⟩ :: shapes))
      (.pop true)
      (typing.Fits (⟨kind, given ++ [(parameter, .firstOf route others)]⟩ :: shapes)) := by
  refine Step.keeps_of_quiet (Step.run_pop_host true) ?_
  rintro world input ⟨stack, rfl, frames⟩
  rcases frames with _ | ⟨top, _ | ⟨parent, rest⟩⟩
  refine ⟨_, rfl, .cons ⟨parent.receiver, ?_⟩ rest⟩
  obtain ⟨before, value, split, first, last⟩ := FillsAll.last parent.args
  dsimp only [Step.passOn]
  rw [if_pos rfl, split]
  cases value with
  | none =>
    rw [fillLast_append_none]
    exact List.rel_append first (.cons ⟨single, top.receiver⟩ .nil)
  | some value =>
    rw [fillLast_append_some, ← split]
    exact parent.args

theorem keeps_display {display : Display W} (viewer : Option Value) (marker : String) :
    Step.Keeps typing (typing.Fits [⟨display.kind, given⟩]) (.display display viewer marker)
      fun _ => True := by
  refine ⟨fun _ _ _ => trivial, ?_⟩
  rintro watch host input ⟨stack, rfl, frames⟩
  rcases frames with _ | ⟨head, _ | _⟩
  rename_i top
  obtain ⟨receiver, args⟩ := top
  cases receiver with
  | none => exact allowsSince_refl host
  | some value => exact allowsSince_note host (head.receiver value rfl)

theorem keeps_fallback (before : Slot → Prop) (text : String) :
    Step.Keeps typing before (.fallback text) fun _ => True :=
  Step.keeps_of_quiet (fun _ _ _ => rfl) fun _ _ _ => trivial

end Steps

/-! ## Programs -/

/-- Steps with what holds of the slots before, between and after them. -/
inductive Annotated (typing : Typing W) : (Slot → Prop) → List (Step W) → (Slot → Prop) → Prop
  | nil (always : Slot → Prop) : Annotated typing always [] always
  | cons {before middle after : Slot → Prop} {step : Step W} {rest : List (Step W)}
      (keeps : step.Keeps typing before middle) (onward : Annotated typing middle rest after) :
      Annotated typing before (step :: rest) after

theorem Annotated.append {typing : Typing W} {before middle after : Slot → Prop}
    {first next : List (Step W)} (left : Annotated typing before first middle)
    (right : Annotated typing middle next after) :
    Annotated typing before (first ++ next) after := by
  induction left with
  | nil => exact right
  | cons keeps _ ih => exact .cons keeps (ih right)

theorem zip_replicate {α β : Type} (a : α) (items : List β) :
    (List.replicate items.length a).zip items = items.map fun item => (a, item) := by
  induction items with
  | nil => rfl
  | cons first rest ih => rw [List.length_cons, List.replicate_succ, List.zip_cons_cons, ih]; rfl

theorem Bindings.Fit.length_eq {mappings : List (Mapping W)} {literals : List Value}
    {start : Kind} : ∀ {bindings : Bindings W} {parameters : List Parameter},
      bindings.Fit mappings literals start parameters → bindings.length = parameters.length
  | .nil, _, fit => by
    rw [Bindings.Fit] at fit
    rw [fit]
    rfl
  | .cons _ rest, _, fit => by
    rw [Bindings.Fit] at fit
    obtain ⟨parameter, others, rfl, -, fit⟩ := fit
    rw [length, List.length_cons, fit.length_eq]

section Plans

open Typing

variable {typing : Typing W} {mappings : List (Mapping W)} {start : Kind} {context : Value}

mutual

theorem Route.annotated (respects : ∀ mapping ∈ mappings, mapping.Respects typing.holds)
    (starts : typing.holds start context) (shapes : List (Shape W)) :
    ∀ (route : Route W) (source tail : Kind),
      route.Leads mappings typing.literals start source tail → route.allHops ⊆ typing.hops →
      Annotated typing (typing.Fits (⟨source, []⟩ :: shapes)) (route.steps context)
        (typing.Fits (⟨tail, []⟩ :: shapes))
  | .nil, source, tail, leads, _ => by
    rw [Route.Leads] at leads
    rw [leads]
    exact .nil _
  | .cons mapping args rest, source, tail, leads, known => by
    rw [Route.Leads] at leads
    obtain ⟨rfl, member, fit, onward⟩ := leads
    rw [Route.allHops, List.append_subset, List.cons_subset] at known
    obtain ⟨inArgs, here, inRest⟩ := known
    rw [Route.steps]
    refine (args.annotated respects starts shapes mapping.source [] _ fit inArgs).append ?_
    rw [List.nil_append]
    exact .cons (keeps_map (respects mapping member) here fit.length_eq)
      (rest.annotated respects starts shapes _ tail onward inRest)

theorem Bindings.annotated (respects : ∀ mapping ∈ mappings, mapping.Respects typing.holds)
    (starts : typing.holds start context) (shapes : List (Shape W)) (kind : Kind) :
    ∀ (bindings : Bindings W) (given : List (Parameter × Binding W)) (parameters : List Parameter),
      bindings.Fit mappings typing.literals start parameters → bindings.allHops ⊆ typing.hops →
      Annotated typing (typing.Fits (⟨kind, given⟩ :: shapes)) (bindings.steps context)
        (typing.Fits (⟨kind, given ++ parameters.zip bindings.toList⟩ :: shapes))
  | .nil, given, parameters, fit, _ => by
    rw [Bindings.Fit] at fit
    rw [fit, List.zip_nil_left, List.append_nil]
    exact .nil _
  | .cons first rest, given, parameters, fit, known => by
    rw [Bindings.Fit] at fit
    obtain ⟨parameter, others, rfl, fits, fit⟩ := fit
    rw [Bindings.allHops, List.append_subset] at known
    rw [Bindings.steps]
    refine (first.annotated respects starts shapes kind given parameter fits known.1).append ?_
    have onward := rest.annotated respects starts shapes kind (given ++ [(parameter, first)])
      others fit known.2
    rw [List.append_assoc] at onward
    exact onward

theorem Binding.annotated (respects : ∀ mapping ∈ mappings, mapping.Respects typing.holds)
    (starts : typing.holds start context) (shapes : List (Shape W)) (kind : Kind)
    (given : List (Parameter × Binding W)) :
    ∀ (binding : Binding W) (parameter : Parameter),
      binding.Fits mappings typing.literals start parameter → binding.allHops ⊆ typing.hops →
      Annotated typing (typing.Fits (⟨kind, given⟩ :: shapes)) (binding.steps context)
        (typing.Fits (⟨kind, given ++ [(parameter, binding)]⟩ :: shapes))
  | .unset, parameter, fits, _ => by
    rw [Binding.Fits] at fits
    have fills : typing.Fills parameter .unset none := ⟨fits, rfl⟩
    exact .cons (keeps_pushArg fills fun _ _ _ => rfl) (.nil _)
  | .constant value, parameter, fits, _ => by
    rw [Binding.Fits] at fits
    have fills : typing.Fills parameter (.constant value) (some value) := ⟨fits.1, rfl, fits.2⟩
    exact .cons (keeps_pushArg fills fun _ _ _ => rfl) (.nil _)
  | .firstOf route others, parameter, fits, known => by
    rw [Binding.Fits] at fits
    obtain ⟨single, leads, lead⟩ := fits
    rw [Binding.allHops, List.append_subset] at known
    rw [Binding.steps, List.cons_append]
    refine .cons (keeps_push starts false) ?_
    refine (route.annotated respects starts _ start _ leads known.1).append ?_
    exact .cons (keeps_pop single)
      (others.annotated respects starts shapes kind given parameter route others single lead
        known.2)
  | .collected items, parameter, fits, known => by
    rw [Binding.Fits] at fits
    rw [Binding.allHops] at known
    rw [Binding.steps]
    refine (items.annotated respects starts shapes kind given _ fits.2 known).append ?_
    refine .cons (keeps_collect fits.1 ?_) (.nil _)
    rw [← items.length_toList, zip_replicate]

/-- Further routes for a parameter, behind the first one. -/
theorem Routes.annotated (respects : ∀ mapping ∈ mappings, mapping.Respects typing.holds)
    (starts : typing.holds start context) (shapes : List (Shape W)) (kind : Kind)
    (given : List (Parameter × Binding W)) :
    ∀ (routes : Routes W) (parameter : Parameter) (route : Route W) (others : Routes W),
      parameter.variadic = false → routes.Lead mappings typing.literals start parameter.kind →
      routes.allHops ⊆ typing.hops →
      Annotated typing
        (typing.Fits (⟨kind, given ++ [(parameter, .firstOf route others)]⟩ :: shapes))
        (routes.steps context)
        (typing.Fits (⟨kind, given ++ [(parameter, .firstOf route others)]⟩ :: shapes))
  | .nil, _, _, _, _, _, _ => .nil _
  | .cons first rest, parameter, route, others, single, lead, known => by
    rw [Routes.Lead] at lead
    rw [Routes.allHops, List.append_subset] at known
    rw [Routes.steps, List.cons_append]
    refine .cons (keeps_push starts true) ?_
    refine (first.annotated respects starts _ start _ lead.1 known.1).append ?_
    exact .cons (keeps_popAlternative single)
      (rest.annotated respects starts shapes kind given parameter route others single lead.2
        known.2)

end

theorem Choice.annotated (respects : ∀ mapping ∈ mappings, mapping.Respects typing.holds)
    (starts : typing.holds start context) {choice : Choice W}
    (leads : choice.route.Leads mappings typing.literals start start choice.display.kind)
    (known : choice.route.allHops ⊆ typing.hops) (viewer : Option Value) (config : Config)
    (before : Slot → Prop) :
    Annotated typing before ((choice.program context viewer config).map Instruction.step)
      fun _ => True := by
  have steps : (choice.program context viewer config).map Instruction.step =
      .begin context :: (choice.route.steps context ++
        [.display choice.display viewer config.invalidMarker]) := by
    simp [Choice.program, Instruction.plain, Instruction.last, Function.comp_def]
  rw [steps]
  refine .cons (keeps_begin starts before) ?_
  refine (choice.route.annotated respects starts [] start _ leads known).append ?_
  exact .cons (keeps_display viewer config.invalidMarker) (.nil _)

theorem BoundPlaceholder.annotated (respects : ∀ mapping ∈ mappings, mapping.Respects typing.holds)
    (starts : typing.holds start context) {placeholder : BoundPlaceholder W}
    (leads : ∀ choice ∈ placeholder.choices,
      choice.route.Leads mappings typing.literals start start choice.display.kind ∧
        choice.route.allHops ⊆ typing.hops)
    (viewer : Option Value) (config : Config) (before : Slot → Prop) :
    Annotated typing before ((placeholder.program context viewer config).map Instruction.step)
      fun _ => True := by
  obtain ⟨raw, choices⟩ := placeholder
  rw [BoundPlaceholder.program, List.map_append]
  generalize BoundPlaceholder.marker _ config = marker
  dsimp only at leads ⊢
  induction choices generalizing before with
  | nil => exact .cons (keeps_fallback before marker) (.nil _)
  | cons choice others ih =>
    obtain ⟨route, known⟩ := leads choice List.mem_cons_self
    rw [List.flatMap_cons, List.map_append, List.append_assoc]
    refine (Choice.annotated respects starts route known viewer config before).append ?_
    exact ih _ fun other member => leads other (List.mem_cons_of_mem _ member)

end Plans

/-! ## Rendering once -/

theorem runOnce_allows {typing : Typing W} {program : List (Instruction W)}
    {before after : Slot → Prop}
    (annotated : Annotated typing before (program.map Instruction.step) after) (host : Host W)
    (slot : Slot) (fits : before slot) :
    typing.AllowsSince host (runOnce host slot program).2 := by
  induction program generalizing before slot host with
  | nil => exact Typing.allowsSince_refl host
  | cons instruction rest ih =>
    cases annotated with
    | cons keeps onward =>
      have here := keeps.calls false host slot fits
      have next := keeps.slot host.state slot fits
      rw [← Step.run_slot false] at next
      rw [runOnce]
      split
      · exact here
      · exact here.trans (ih onward _ _ next)

/-! ## Watching -/

/-- Cells whose slots, where they have been kept, are such as their steps leave. -/
inductive Kept (typing : Typing W) : (Slot → Prop) → List (Cell W) → Prop
  | nil (always : Slot → Prop) : Kept typing always []
  | cons {before after : Slot → Prop} {cell : Cell W} {rest : List (Cell W)}
      (keeps : cell.step.Keeps typing before after)
      (slot : ∀ slot, cell.slot = some slot → after slot) (onward : Kept typing after rest) :
      Kept typing before (cell :: rest)

theorem Annotated.kept {typing : Typing W} {program : List (Instruction W)}
    {before after : Slot → Prop}
    (annotated : Annotated typing before (program.map Instruction.step) after) :
    Kept typing before (program.map Cell.ofInstruction) := by
  induction program generalizing before with
  | nil => exact .nil before
  | cons instruction rest ih =>
    cases annotated with
    | cons keeps onward => exact .cons keeps nofun (ih onward)

/-- Whether a cell is another one of which something may have been forgotten. -/
structure Cell.Forgets (old cell : Cell W) : Prop where
  step : cell.step = old.step
  slot : cell.slot = old.slot ∨ cell.slot = none

theorem Kept.forget {typing : Typing W} {before : Slot → Prop} {cells later : List (Cell W)}
    (kept : Kept typing before cells) (forgets : List.Forall₂ Cell.Forgets cells later) :
    Kept typing before later := by
  induction forgets generalizing before with
  | nil => exact .nil before
  | cons head _ ih =>
    cases kept with
    | cons keeps slot onward =>
      refine .cons (head.step ▸ keeps) (fun kept found => ?_) (ih onward)
      rcases head.slot with same | none
      · exact slot kept (same ▸ found)
      · rw [none] at found
        cases found

section Watching

open Typing

variable {typing : Typing W} {before : Slot → Prop} {cells : List (Cell W)}

theorem Cell.allowsSince_release (cell : Cell W) (host : Host W) :
    typing.AllowsSince host (cell.release host) := by
  unfold release
  split
  · exact allowsSince_refl host
  · exact allowsSince_cancel host _

theorem Kept.compute {cell : Cell W} {rest : List (Cell W)}
    (kept : Kept typing before (cell :: rest)) {input : Slot} (fits : before input)
    (host : Host W) :
    ∃ after : Slot → Prop, after (cell.compute host input).1 ∧ Kept typing after rest ∧
      (∀ others, Kept typing after others →
        Kept typing before ((cell.compute host input).2.1 :: others)) ∧
      typing.AllowsSince host (cell.compute host input).2.2 := by
  cases kept with
  | @cons _ after _ _ keeps slot onward =>
    unfold Cell.compute
    cases known : cell.slot with
    | some kept =>
      exact ⟨after, slot kept known, onward, fun others => .cons keeps slot,
        allowsSince_refl host⟩
    | none =>
      have left : after (cell.step.run true host input).slot := by
        rw [Step.run_slot]
        exact keeps.slot host.state input fits
      refine ⟨after, left, onward, fun others => .cons keeps fun kept found => ?_,
        (keeps.calls true host input fits).trans (cell.allowsSince_release _)⟩
      cases found
      exact left

theorem Kept.pullCells (kept : Kept typing before cells) {input : Slot} (fits : before input)
    (host : Host W) :
    Kept typing before (WatchChain.pullCells host input cells).2.1 ∧
      typing.AllowsSince host (WatchChain.pullCells host input cells).2.2 := by
  induction cells generalizing before input host with
  | nil => exact ⟨kept, allowsSince_refl host⟩
  | cons cell rest ih =>
    obtain ⟨after, left, onward, again, allowed⟩ := kept.compute fits host
    rw [WatchChain.pullCells]
    rcases computed : cell.compute host input with ⟨slot, later, next⟩
    rw [computed] at left again allowed
    dsimp only at left again allowed ⊢
    split
    · exact ⟨again rest onward, allowed⟩
    · obtain ⟨others, allowedNext⟩ := ih onward left next
      exact ⟨again _ others, allowed.trans allowedNext⟩

theorem Cell.forgets_refl (cell : Cell W) : cell.Forgets cell := ⟨rfl, .inl rfl⟩

theorem forgets_invalidateCells (cells : List (Cell W)) (host : Host W) (step : Nat) :
    List.Forall₂ Cell.Forgets cells (WatchChain.invalidateCells host step cells).2.1 ∧
      typing.AllowsSince host (WatchChain.invalidateCells host step cells).2.2 := by
  induction cells generalizing host step with
  | nil => exact ⟨.nil, allowsSince_refl host⟩
  | cons cell rest ih =>
    obtain ⟨tail, allowed⟩ := ih (cell.release host) (step + 1)
    rw [invalidateCells_cons]
    exact ⟨.cons ⟨rfl, .inr rfl⟩ tail, (cell.allowsSince_release host).trans allowed⟩

theorem forgets_changedCells (cells : List (Cell W)) (host : Host W) (step : Nat) :
    List.Forall₂ Cell.Forgets cells (WatchChain.changedCells host step cells).2.1 ∧
      typing.AllowsSince host (WatchChain.changedCells host step cells).2.2 := by
  induction cells generalizing host step with
  | nil => exact ⟨.nil, allowsSince_refl host⟩
  | cons cell rest ih =>
    cases held : cell.feed with
    | none =>
      simp only [WatchChain.changedCells, held]
      exact ⟨.cons cell.forgets_refl (ih host (step + 1)).1, (ih host (step + 1)).2⟩
    | some id =>
      rcases host.poll_cases id with
        ⟨polled, -⟩ | ⟨polled, -⟩ | ⟨feed, queued, -, -, -, polled⟩
      · simp only [WatchChain.changedCells, held, polled]
        exact ⟨.cons cell.forgets_refl (ih host (step + 1)).1, (ih host (step + 1)).2⟩
      · simp only [WatchChain.changedCells, held, polled]
        obtain ⟨tail, allowed⟩ := ih (host.drop id) (step + 1)
        exact ⟨.cons ⟨rfl, .inl rfl⟩ tail, (allowsSince_cancel host id).trans allowed⟩
      · simp only [WatchChain.changedCells, held, polled]
        exact forgets_invalidateCells (cell :: rest) (host.setFeed id { feed with queued }) step

end Watching

namespace WatchChain

/-- The states of a chain for a program. It may be pulled, asked for changes and invalidated
in any order, while others use the host as they like. -/
inductive Operated (program : List (Instruction W)) : WatchChain W → Prop
  | created : Operated program (ofProgram program)
  | pulled {chain : WatchChain W} (operated : Operated program chain) (host : Host W) :
      Operated program (chain.pull host).2.1
  | asked {chain : WatchChain W} (operated : Operated program chain) (host : Host W) :
      Operated program (chain.changed host).2.1
  | invalidated {chain : WatchChain W} (operated : Operated program chain) (host : Host W)
      (step : Nat) : Operated program (chain.invalidateFrom host step).2.1

theorem Operated.kept {typing : Typing W} {program : List (Instruction W)} {after : Slot → Prop}
    (annotated : Annotated typing (fun _ => True) (program.map Instruction.step) after)
    {chain : WatchChain W} (operated : Operated program chain) :
    Kept typing (fun _ => True) chain.cells := by
  induction operated with
  | created => exact annotated.kept
  | pulled _ host ih => exact (ih.pullCells trivial host).1
  | asked _ host ih => exact ih.forget (@forgets_changedCells _ typing _ host 0).1
  | @invalidated chain _ host step ih =>
    refine ih.forget ?_
    have dropped := (@forgets_invalidateCells _ typing (chain.cells.drop step) host step).1
    have taken : List.Forall₂ Cell.Forgets (chain.cells.take step) (chain.cells.take step) :=
      List.forall₂_same.mpr fun cell _ => cell.forgets_refl
    have all : List.Forall₂ Cell.Forgets (chain.cells.take step ++ chain.cells.drop step) _ :=
      List.rel_append taken dropped
    rw [List.take_append_drop] at all
    exact all

end WatchChain

/-! ## Templates -/

theorem BoundTemplate.mem_hops {template : BoundTemplate W} {placeholder : BoundPlaceholder W}
    (inside : .placeholder placeholder ∈ template.elements) :
    ∀ choice ∈ placeholder.choices,
      choice ∈ template.choices ∧ choice.route.allHops ⊆ template.hops := by
  intro choice member
  have known : choice ∈ template.choices := List.mem_flatMap.mpr ⟨_, inside, member⟩
  exact ⟨known, fun hop used => List.mem_flatMap.mpr ⟨choice, known, used⟩⟩

theorem renderElements_allows {typing : Typing W} {context : Value} {viewer : Option Value}
    {config : Config} {elements : List (BoundElement W)}
    (annotated : ∀ placeholder, .placeholder placeholder ∈ elements →
      Annotated typing (fun _ => True)
        ((placeholder.program context viewer config).map Instruction.step) fun _ => True)
    (host : Host W) :
    typing.AllowsSince host
      (BoundTemplate.renderElements context viewer config host elements).2 := by
  induction elements generalizing host with
  | nil => exact Typing.allowsSince_refl host
  | cons element rest ih =>
    have others := ih (fun placeholder member => annotated placeholder (.tail _ member))
    cases element with
    | text raw => exact others host
    | placeholder placeholder =>
      have here := runOnce_allows (annotated placeholder List.mem_cons_self) host .initial trivial
      exact here.trans (others _)

/-- Whether all calls respect kinds, however a template is evaluated: at once, or by chains
that keep slots and are operated in any order. -/
structure BoundTemplate.RespectsKinds (typing : Typing W) (context : Value)
    (viewer : Option Value) (config : Config) (template : BoundTemplate W) : Prop where
  once : ∀ host, typing.AllowsSince host (template.renderOnce context viewer config host).2
  pulled : ∀ placeholder, .placeholder placeholder ∈ template.elements →
    ∀ chain, WatchChain.Operated (placeholder.program context viewer config) chain →
      ∀ host, typing.AllowsSince host (chain.pull host).2.2
  asked : ∀ placeholder, .placeholder placeholder ∈ template.elements →
    ∀ chain, WatchChain.Operated (placeholder.program context viewer config) chain →
      ∀ host, typing.AllowsSince host (chain.changed host).2.2
  invalidated : ∀ placeholder, .placeholder placeholder ∈ template.elements →
    ∀ chain, WatchChain.Operated (placeholder.program context viewer config) chain →
      ∀ host step, typing.AllowsSince host (chain.invalidateFrom host step).2.2

/-- Type soundness. If the context is of the kind that a template is bound for, and mappings
give values of their target kinds, then whatever is registered, and however the template is
evaluated, mappings are applied to receivers of their source kinds, displays to values of
their kinds, and what routes give for a parameter is of its kind; only literals are not. -/
theorem Template.bind_respectsKinds (holds : Kind → Value → Prop) (store : Store W)
    (named implicits displays : List LayerId) {start : Kind} {context : Value}
    (starts : holds start context)
    (respects : ∀ mapping ∈ store.mappings (named ++ implicits), mapping.Respects holds)
    (template : Template) (viewer : Option Value) (config : Config) :
    let bound := template.bind (.ofLayers store named implicits displays) start
    bound.RespectsKinds ⟨holds, template.literals, bound.hops⟩ context viewer config := by
  intro bound
  let typing : Typing W := ⟨holds, template.literals, bound.hops⟩
  have kinded : bound.IsKinded (store.mappings (named ++ implicits)) typing.literals start :=
    template.bind_isKinded (Directory.isFiled_ofLayers store named implicits displays)
  have annotated : ∀ placeholder, .placeholder placeholder ∈ bound.elements →
      Annotated typing (fun _ => True)
        ((placeholder.program context viewer config).map Instruction.step) fun _ => True := by
    intro placeholder inside
    have leads : ∀ choice ∈ placeholder.choices,
        choice.route.Leads (store.mappings (named ++ implicits)) typing.literals start start
            choice.display.kind ∧ choice.route.allHops ⊆ typing.hops := by
      intro choice member
      obtain ⟨known, hops⟩ := BoundTemplate.mem_hops inside choice member
      exact ⟨kinded choice known, hops⟩
    exact BoundPlaceholder.annotated respects starts leads viewer config _
  have kept : ∀ placeholder, .placeholder placeholder ∈ bound.elements →
      ∀ chain, WatchChain.Operated (placeholder.program context viewer config) chain →
        Kept typing (fun _ => True) chain.cells :=
    fun placeholder inside chain operated => operated.kept (annotated placeholder inside)
  refine ⟨renderElements_allows annotated, ?_, ?_, ?_⟩
  · intro placeholder inside chain operated host
    exact ((kept placeholder inside chain operated).pullCells trivial host).2
  · intro placeholder inside chain operated host
    exact (forgets_changedCells chain.cells host 0).2
  · intro placeholder inside chain operated host step
    exact (forgets_invalidateCells (chain.cells.drop step) host step).2

/-! Users with names, which can be joined to other texts. -/

def nameMapping : Mapping String where
  name := ⟨["name"]⟩
  source := "user"
  target := "text"
  map state _ _ := some (.text state)

def joinMapping : Mapping String where
  name := ⟨["join"]⟩
  source := "text"
  target := "text"
  parameters := [{ name := "parts", kind := "text", variadic := true }]
  map _ receiver args :=
    match receiver.asText?, args with
    | some text, [some (.list parts)] =>
      some (.text (text ++ String.join (parts.filterMap Value.asText?)))
    | _, _ => none

def nameStore : Store String :=
  ⟨[{ helps := .empty
      displays := ⟨[⟨"text", fun _ value _ => value.asText?.getD invalidText, true⟩], 1⟩
      mappings := ⟨[nameMapping, joinMapping], 2⟩
      hints := .empty }]⟩

/-- The template of `name join(name, true)`. -/
def joinTemplate : Template :=
  let called : Chain := .first (.bare ⟨["name"]⟩ default)
  let args : Args := .cons (.mk none (.expr (.arm called)) default)
    (.cons (.mk none (.literal ⟨.bool true, "true"⟩) default) .nil)
  ⟨[.placeholder (.arm (.next called (.applied ⟨["join"]⟩ args default))) default]⟩

def holdsText (kind : Kind) (value : Value) : Prop := kind = "text" → value.asText?.isSome = true

theorem respectsKinds_joinTemplate :
    holdsText "user" (.object "ada" ⟨"user"⟩) ∧
      (∀ mapping ∈ nameStore.mappings ([0] ++ [0]), mapping.Respects holdsText) ∧
      let bound := joinTemplate.bind (.ofLayers nameStore [0] [0] [0]) "user"
      bound.RespectsKinds ⟨holdsText, joinTemplate.literals, bound.hops⟩
        (.object "ada" ⟨"user"⟩) none {} := by
  have starts : holdsText "user" (.object "ada" ⟨"user"⟩) := fun impossible => by
    simp at impossible
  have respects : ∀ mapping ∈ nameStore.mappings ([0] ++ [0]), mapping.Respects holdsText := by
    intro mapping member world receiver args value _ mapped _
    have known : mapping ∈ [nameMapping, joinMapping] := (List.mem_append.mp member).elim id id
    rw [List.mem_cons, List.mem_singleton] at known
    rcases known with rfl | rfl
    · cases mapped
      rfl
    · simp only [joinMapping] at mapped
      split at mapped <;> cases mapped
      rfl
  exact ⟨starts, respects, Template.bind_respectsKinds holdsText nameStore [0] [0] [0] starts
    respects joinTemplate none {}⟩

end TypedTemplate
