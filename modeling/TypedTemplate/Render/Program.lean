import TypedTemplate.Config
import TypedTemplate.Plan
import TypedTemplate.Render.Step

/-!
The program of a placeholder: the steps of its arms one after another, and last the
marker. Every argument adds exactly one value to the frame of its mapping. A program
may stop behind an arm that has rendered a text.
-/
namespace TypedTemplate

variable {W : Type}

/-- A step of a program; the last one of an arm is marked. -/
structure Instruction (W : Type) where
  step : Step W
  endsArm : Bool

namespace Instruction

def plain (step : Step W) : Instruction W := ⟨step, false⟩

def last (step : Step W) : Instruction W := ⟨step, true⟩

end Instruction

mutual

/-- Applies the mappings of a route to the innermost frame. -/
def Route.steps (context : Value) : Route W → List (Step W)
  | .nil => []
  | .cons mapping args rest => args.steps context ++ .map mapping :: rest.steps context

def Bindings.steps (context : Value) : Bindings W → List (Step W)
  | .nil => []
  | .cons first rest => first.steps context ++ rest.steps context

/-- Adds one value, or none, to the arguments of the innermost frame. -/
def Binding.steps (context : Value) : Binding W → List (Step W)
  | .unset => [.unset]
  | .constant value => [.const value]
  | .firstOf route others =>
    .push context false :: route.steps context ++ .pop false :: others.steps context
  | .collected items => items.steps context ++ [.collect items.length]

/-- Tries further routes where those before have led to no value. -/
def Routes.steps (context : Value) : Routes W → List (Step W)
  | .nil => []
  | .cons first rest =>
    .push context true :: first.steps context ++ .pop true :: rest.steps context

end

namespace Choice

def program (choice : Choice W) (context : Value) (viewer : Option Value) (config : Config) :
    List (Instruction W) :=
  (Step.begin context :: choice.route.steps context).map Instruction.plain
    ++ [.last (.display choice.display viewer config.invalidMarker)]

end Choice

namespace BoundPlaceholder

/-- The marker for a placeholder none of whose arms has a text. -/
def marker (placeholder : BoundPlaceholder W) (config : Config) : String :=
  if placeholder.choices.isEmpty then config.unresolved placeholder.raw
  else config.null placeholder.raw

def program (placeholder : BoundPlaceholder W) (context : Value) (viewer : Option Value)
    (config : Config) : List (Instruction W) :=
  placeholder.choices.flatMap (fun choice => choice.program context viewer config)
    ++ [.plain (.fallback (placeholder.marker config))]

end BoundPlaceholder

end TypedTemplate
