import TypedTemplate.Render.Once

/-!
The meaning of plans, without steps and frames. A route starts from the context and
applies its hops in order; once there is no value, neither arguments nor mappings are
looked at any more. An answer carries the host calls that were made for it, in order,
so that two ways to the same value can still be told apart.

`Render/Compilation` shows that the programs of plans give the same answers.
-/
namespace TypedTemplate

variable {W : Type}

/-- A result with the calls that were made for it. -/
structure Answer (W α : Type) where
  value : α
  calls : List (HostCall W)

namespace Answer

variable {α : Type}

def quiet (value : α) : Answer W α := ⟨value, []⟩

/-- The answer where it has a value, else the next one, after the calls for both. -/
def orElse (first next : Answer W (Option α)) : Answer W (Option α) :=
  match first.value with
  | some _ => first
  | none => ⟨next.value, first.calls ++ next.calls⟩

end Answer

mutual

/-- Follows a route from a value, if there is one. -/
def Route.evaluate (world : W) (context : Value) : Route W → Option Value → Answer W (Option Value)
  | _, none => .quiet none
  | .nil, some value => .quiet (some value)
  | .cons mapping args rest, some receiver =>
    let given := args.evaluate world context
    let onward := rest.evaluate world context (mapping.map world receiver given.value)
    ⟨onward.value, given.calls ++ .map mapping receiver given.value :: onward.calls⟩

def Bindings.evaluate (world : W) (context : Value) : Bindings W → Answer W Arguments
  | .nil => .quiet []
  | .cons first rest =>
    let value := first.evaluate world context
    let values := rest.evaluate world context
    ⟨value.value :: values.value, value.calls ++ values.calls⟩

def Binding.evaluate (world : W) (context : Value) : Binding W → Answer W (Option Value)
  | .unset => .quiet none
  | .constant value => .quiet (some value)
  | .firstOf route others =>
    (route.evaluate world context (some context)).orElse (others.evaluateFirst world context)
  | .collected items =>
    let given := items.evaluate world context
    ⟨some (.list (given.value.filterMap id)), given.calls⟩

/-- The value of the first route that leads to one; those behind it are not followed. -/
def Routes.evaluateFirst (world : W) (context : Value) : Routes W → Answer W (Option Value)
  | .nil => .quiet none
  | .cons first rest =>
    (first.evaluate world context (some context)).orElse (rest.evaluateFirst world context)

end

/-- The text of an arm, if its route leads to a value. -/
def Choice.evaluate (world : W) (context : Value) (viewer : Option Value) (config : Config)
    (choice : Choice W) : Answer W (Option String) :=
  let reached := choice.route.evaluate world context (some context)
  match reached.value with
  | none => ⟨none, reached.calls⟩
  | some value =>
    let text := choice.display.render world value viewer
    ⟨some (if text = invalidText then config.invalidMarker else text),
      reached.calls ++ [.display choice.display value viewer]⟩

/-- The text of the first arm that has one. -/
def evaluateChoices (world : W) (context : Value) (viewer : Option Value) (config : Config) :
    List (Choice W) → Answer W (Option String)
  | [] => .quiet none
  | choice :: others =>
    (choice.evaluate world context viewer config).orElse
      (evaluateChoices world context viewer config others)

namespace BoundPlaceholder

/-- The text of a placeholder: that of its first arm with a text, or the marker for
placeholders without arms or for those whose arms lead to no value. -/
def evaluate (world : W) (context : Value) (viewer : Option Value) (config : Config)
    (placeholder : BoundPlaceholder W) : Answer W String :=
  let first := evaluateChoices world context viewer config placeholder.choices
  let marker :=
    match placeholder.choices with
    | [] => config.unresolved placeholder.raw
    | _ :: _ => config.null placeholder.raw
  ⟨first.value.getD marker, first.calls⟩

end BoundPlaceholder

end TypedTemplate
