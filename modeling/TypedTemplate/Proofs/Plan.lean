import TypedTemplate.Plan
import TypedTemplate.Proofs.Render.StepResult
import TypedTemplate.Render.Program

/-!
The mappings and displays of a plan, at every depth. The programs of a plan call no
others (`BoundTemplate.callsOnly_program`), so that what is assumed of all functions of a
plan holds of every step.
-/
namespace TypedTemplate

variable {W : Type}

mutual

/-- All mappings on a route, those for its arguments included. -/
def Route.mappings : Route W → List (Mapping W)
  | .nil => []
  | .cons mapping args rest => args.mappings ++ mapping :: rest.mappings

def Bindings.mappings : Bindings W → List (Mapping W)
  | .nil => []
  | .cons first rest => first.mappings ++ rest.mappings

def Binding.mappings : Binding W → List (Mapping W)
  | .unset | .constant _ => []
  | .firstOf route others => route.mappings ++ others.mappings
  | .collected items => items.mappings

def Routes.mappings : Routes W → List (Mapping W)
  | .nil => []
  | .cons first rest => first.mappings ++ rest.mappings

end

def BoundElement.choices : BoundElement W → List (Choice W)
  | .text _ => []
  | .placeholder p => p.choices

namespace BoundTemplate

def choices (template : BoundTemplate W) : List (Choice W) :=
  template.elements.flatMap BoundElement.choices

def mappings (template : BoundTemplate W) : List (Mapping W) :=
  template.choices.flatMap fun choice => choice.route.mappings

def displays (template : BoundTemplate W) : List (Display W) :=
  template.choices.map fun choice => choice.display

end BoundTemplate

/-! ## What the steps of a plan call -/

/-- Whether a step calls no function of the host but these mappings and displays. -/
def Step.CallsOnly (mappings : List (Mapping W)) (displays : List (Display W)) : Step W → Prop
  | map mapping => mapping ∈ mappings
  | display shown _ _ => shown ∈ displays
  | _ => True

theorem Step.CallsOnly.mono {mappings more : List (Mapping W)} {displays others : List (Display W)}
    {step : Step W} (calls : step.CallsOnly mappings displays) (wider : mappings ⊆ more)
    (further : displays ⊆ others) : step.CallsOnly more others := by
  cases step with
  | map mapping => exact wider calls
  | display shown viewer marker => exact further calls
  | _ => trivial

theorem Step.CallsOnly.left {first next : List (Mapping W)} {displays : List (Display W)}
    {step : Step W} (calls : step.CallsOnly first displays) :
    step.CallsOnly (first ++ next) displays :=
  calls.mono (List.subset_append_left _ _) (List.Subset.refl _)

theorem Step.CallsOnly.right {first next : List (Mapping W)} {displays : List (Display W)}
    {step : Step W} (calls : step.CallsOnly next displays) :
    step.CallsOnly (first ++ next) displays :=
  calls.mono (List.subset_append_right _ _) (List.Subset.refl _)

mutual

theorem Route.callsOnly_steps (context : Value) :
    ∀ route : Route W, ∀ step ∈ route.steps context, step.CallsOnly route.mappings []
  | .nil, _, member => by simp [Route.steps] at member
  | .cons mapping args rest, step, member => by
    rw [Route.mappings]
    rw [Route.steps] at member
    rcases List.mem_append.mp member with given | onward
    · exact (args.callsOnly_steps context step given).left
    · rcases List.mem_cons.mp onward with rfl | later
      · exact List.mem_append_right _ List.mem_cons_self
      · have behind := rest.callsOnly_steps context step later
        exact (@Step.CallsOnly.right _ [mapping] _ _ _ behind).right

theorem Bindings.callsOnly_steps (context : Value) :
    ∀ bindings : Bindings W, ∀ step ∈ bindings.steps context, step.CallsOnly bindings.mappings []
  | .nil, _, member => by simp [Bindings.steps] at member
  | .cons first rest, step, member => by
    rw [Bindings.mappings]
    rw [Bindings.steps] at member
    rcases List.mem_append.mp member with head | later
    · exact (first.callsOnly_steps context step head).left
    · exact (rest.callsOnly_steps context step later).right

theorem Binding.callsOnly_steps (context : Value) :
    ∀ binding : Binding W, ∀ step ∈ binding.steps context, step.CallsOnly binding.mappings []
  | .unset, _, member => by
    rw [Binding.steps, List.mem_singleton] at member
    subst member
    trivial
  | .constant value, _, member => by
    rw [Binding.steps, List.mem_singleton] at member
    subst member
    trivial
  | .firstOf route others, step, member => by
    rw [Binding.mappings]
    rw [Binding.steps, List.cons_append, List.mem_cons, List.mem_append, List.mem_cons] at member
    rcases member with rfl | first | rfl | later
    · trivial
    · exact (route.callsOnly_steps context step first).left
    · trivial
    · exact (others.callsOnly_steps context step later).right
  | .collected items, step, member => by
    rw [Binding.steps, List.mem_append, List.mem_singleton] at member
    rcases member with given | rfl
    · exact items.callsOnly_steps context step given
    · trivial

theorem Routes.callsOnly_steps (context : Value) :
    ∀ routes : Routes W, ∀ step ∈ routes.steps context, step.CallsOnly routes.mappings []
  | .nil, _, member => by simp [Routes.steps] at member
  | .cons first rest, step, member => by
    rw [Routes.mappings]
    rw [Routes.steps, List.cons_append, List.mem_cons, List.mem_append, List.mem_cons] at member
    rcases member with rfl | head | rfl | later
    · trivial
    · exact (first.callsOnly_steps context step head).left
    · trivial
    · exact (rest.callsOnly_steps context step later).right

end

/-- The program of a placeholder calls only functions of its template. -/
theorem BoundTemplate.callsOnly_program {template : BoundTemplate W}
    {placeholder : BoundPlaceholder W} (inside : .placeholder placeholder ∈ template.elements)
    (context : Value) (viewer : Option Value) (config : Config) :
    ∀ instruction ∈ placeholder.program context viewer config,
      instruction.step.CallsOnly template.mappings template.displays := by
  intro instruction member
  rw [BoundPlaceholder.program, List.mem_append, List.mem_flatMap, List.mem_singleton] at member
  rcases member with ⟨choice, chosen, member⟩ | rfl
  · have known : choice ∈ template.choices := List.mem_flatMap.mpr ⟨_, inside, chosen⟩
    rw [Choice.program, List.mem_append, List.mem_map, List.mem_singleton] at member
    rcases member with ⟨step, member, rfl⟩ | rfl
    · rcases List.mem_cons.mp member with rfl | member
      · trivial
      · refine (choice.route.callsOnly_steps context step member).mono (fun mapping used => ?_)
          (List.nil_subset _)
        exact List.mem_flatMap.mpr ⟨choice, known, used⟩
    · exact List.mem_map.mpr ⟨choice, known, rfl⟩
  · trivial

/-! ## Steady plans -/

/-- Whether all mappings but the mutable ones give the same results in every state. -/
def AreSteady (mappings : List (Mapping W)) : Prop :=
  ∀ mapping ∈ mappings, mapping.isMutable = false → mapping.IsSteady

/-- Whether nothing but the results of mutable mappings can change with the outside state. -/
structure BoundTemplate.IsSteady (template : BoundTemplate W) : Prop where
  mappings : AreSteady template.mappings
  displays : ∀ display ∈ template.displays, display.IsSteady

theorem BoundTemplate.IsSteady.program {template : BoundTemplate W} (steady : template.IsSteady)
    {placeholder : BoundPlaceholder W} (inside : .placeholder placeholder ∈ template.elements)
    (context : Value) (viewer : Option Value) (config : Config) :
    ∀ instruction ∈ placeholder.program context viewer config, instruction.step.IsSteady := by
  intro instruction member
  have calls := template.callsOnly_program inside context viewer config instruction member
  cases called : instruction.step with
  | map mapping =>
    rw [called] at calls
    exact steady.mappings mapping calls
  | display shown viewer marker =>
    rw [called] at calls
    exact steady.displays shown calls
  | _ => trivial

/-! ## Plans that cannot change -/

mutual

theorem Route.isMutable_eq :
    ∀ route : Route W, route.isMutable = route.mappings.any Mapping.isMutable
  | .nil => rfl
  | .cons mapping args rest => by
    rw [Route.isMutable, args.anyMutable_eq, rest.isMutable_eq, Route.mappings, List.any_append,
      List.any_cons, Bool.or_comm mapping.isMutable, Bool.or_assoc]

theorem Bindings.anyMutable_eq :
    ∀ bindings : Bindings W, bindings.anyMutable = bindings.mappings.any Mapping.isMutable
  | .nil => rfl
  | .cons first rest => by
    rw [Bindings.anyMutable, first.isMutable_eq, rest.anyMutable_eq, Bindings.mappings,
      List.any_append]

theorem Binding.isMutable_eq :
    ∀ binding : Binding W, binding.isMutable = binding.mappings.any Mapping.isMutable
  | .unset | .constant _ => rfl
  | .firstOf route others => by
    rw [Binding.isMutable, route.isMutable_eq, others.anyMutable_eq, Binding.mappings,
      List.any_append]
  | .collected items => by rw [Binding.isMutable, items.anyMutable_eq, Binding.mappings]

theorem Routes.anyMutable_eq :
    ∀ routes : Routes W, routes.anyMutable = routes.mappings.any Mapping.isMutable
  | .nil => rfl
  | .cons first rest => by
    rw [Routes.anyMutable, first.isMutable_eq, rest.anyMutable_eq, Routes.mappings,
      List.any_append]

end

theorem BoundElement.isMutable_eq (element : BoundElement W) : element.isMutable =
    element.choices.any fun choice => choice.route.mappings.any Mapping.isMutable := by
  cases element with
  | text raw => rfl
  | placeholder placeholder => simp only [isMutable, choices, Route.isMutable_eq]

/-- A template can change exactly if a mapping in it can, at any depth. -/
theorem BoundTemplate.isMutable_eq (template : BoundTemplate W) :
    template.isMutable = template.mappings.any Mapping.isMutable := by
  rw [isMutable, mappings, choices, List.any_flatMap, List.any_flatMap]
  exact congrArg template.elements.any (funext BoundElement.isMutable_eq)

end TypedTemplate
