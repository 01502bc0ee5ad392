import TypedTemplate.Path.Search
import TypedTemplate.Plan
import TypedTemplate.Template

/-!
Binding a template. Every arm takes the cheapest path that consumes its calls and ends
in a kind with a display. The arguments of a call go to the mapping that consumes it;
an expression among them is bound like an arm, towards the kind of its parameter. Arms
without a path are left out.
-/
namespace TypedTemplate

variable {W : Type}

/-- What an argument becomes as the value of a parameter. -/
abbrev Binder (W : Type) := Parameter → Binding W

/-- The arguments written at a call. -/
structure Written (W : Type) where
  /-- Those with a name, in order. -/
  named : List (String × Binder W)
  positional : List (Binder W)

namespace Written

def none : Written W := ⟨[], []⟩

/-- The arguments with one more in front. -/
def cons (label : Option String) (binder : Binder W) (rest : Written W) : Written W :=
  match label with
  | some name => { rest with named := (name, binder) :: rest.named }
  | .none => { rest with positional := binder :: rest.positional }

end Written

/-- The value of a parameter that is called by its name. -/
def Parameter.bindNamed (parameter : Parameter) (binder : Binder W) : Binding W :=
  if parameter.variadic then .collected (.cons (binder parameter) .nil) else binder parameter

/-- What the parameters get. A named argument goes to the first parameter of its name,
and of several with one name the first counts. The positional ones go from left to
right to the other parameters, the first variadic one of which takes all that are left.
Arguments without a parameter are dropped. -/
def assign (taken : List String) (written : Written W) : List Parameter → Bindings W
  | [] => .nil
  | parameter :: parameters =>
    let named := if taken.contains parameter.name then none
      else written.named.lookup parameter.name
    match named with
    | some binder =>
      .cons (parameter.bindNamed binder) (assign (parameter.name :: taken) written parameters)
    | none =>
      if parameter.variadic then
        .cons (.collected (.ofList (written.positional.map (· parameter))))
          (assign (parameter.name :: taken) { written with positional := [] } parameters)
      else
        match written.positional with
        | [] => .cons .unset (assign (parameter.name :: taken) written parameters)
        | binder :: positional =>
          .cons (binder parameter)
            (assign (parameter.name :: taken) { written with positional } parameters)

def LiteralValue.toValue : LiteralValue → Value
  | bool value => .bool value
  | number value => .number value
  | text value => .text value

/-- The way of the cheapest path. `fill` gives the bindings of the mapping that consumes
a certain call; a mapping that consumes none gets no arguments. -/
def Path.route (path : Path W) (fill : List (Mapping W → Bindings W)) : Route W :=
  .ofHops (path.hops.map fun hop =>
    let filled := hop.call.bind (fill[·]?)
    (hop.mapping, match filled with
      | some bind => bind hop.mapping
      | none => assign [] .none hop.mapping.parameters))

/-- The names by which a chain calls mappings. -/
def Chain.references (chain : Chain) : List Name := chain.calls.map Call.name

/-- The cheapest path that consumes the calls of a chain. -/
def Chain.path? (directory : Directory W) (start : Kind) (accepts : Kind → Bool)
    (chain : Chain) : Option (Path W) :=
  (Query.paths ⟨directory, chain.references, start, accepts⟩).head?

mutual

/-- How a call fills the parameters of the mapping that consumes it. -/
def Call.fill (directory : Directory W) (start : Kind) : Call → Mapping W → Bindings W
  | .bare _ _, mapping => assign [] .none mapping.parameters
  | .applied _ args _, mapping => assign [] (args.written directory start) mapping.parameters

def Args.written (directory : Directory W) (start : Kind) : Args → Written W
  | .nil => .none
  | .cons (.mk label value _) rest =>
    .cons label (value.bind directory start) (rest.written directory start)

def ArgValue.bind (directory : Directory W) (start : Kind) : ArgValue → Parameter → Binding W
  | .literal literal, _ => .constant literal.value.toValue
  | .expr expr, parameter => .ofRoutes (expr.routes directory start (· == parameter.kind))

/-- How the calls of a chain fill parameters, in order. -/
def Chain.fills (directory : Directory W) (start : Kind) : Chain → List (Mapping W → Bindings W)
  | .first call => [call.fill directory start]
  | .next parent call => parent.fills directory start ++ [call.fill directory start]

/-- The routes of the arms that have one. -/
def Expr.routes (directory : Directory W) (start : Kind) :
    Expr → (Kind → Bool) → List (Route W)
  | .arm main, accepts =>
    match main.path? directory start accepts with
    | none => []
    | some path => [path.route (main.fills directory start)]
  | .orElse main others, accepts =>
    match main.path? directory start accepts with
    | none => others.routes directory start accepts
    | some path =>
      path.route (main.fills directory start) :: others.routes directory start accepts

end

namespace Chain

/-- The cheapest path of a chain to a kind with a display. -/
def choice? (directory : Directory W) (start : Kind) (chain : Chain) : Option (Choice W) := do
  let path ← chain.path? directory start directory.displays.canDisplay
  let display ← directory.displays.get? path.tail
  return ⟨path.route (chain.fills directory start), display⟩

end Chain

def Expr.bind (directory : Directory W) (start : Kind) (expr : Expr) : BoundPlaceholder W :=
  ⟨expr.main.names, expr.arms.filterMap (Chain.choice? directory start)⟩

/-- Binds every placeholder from a context of kind `start`. -/
def Template.bind (directory : Directory W) (start : Kind) (template : Template) :
    BoundTemplate W :=
  ⟨template.elements.map fun
    | .text text _ => .text text
    | .placeholder expr _ => .placeholder (expr.bind directory start)⟩

end TypedTemplate
