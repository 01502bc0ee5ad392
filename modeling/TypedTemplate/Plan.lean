import TypedTemplate.Descriptor

/-!
Plans. Binding a template to mappings gives a plan: for each placeholder the routes
that its arms take from the context to a value that can be displayed. An argument of
a hop is itself a plan, down to constants and further routes from the same context.
-/
namespace TypedTemplate

mutual

/-- What a parameter gets. -/
inductive Binding (W : Type) where
  | unset
  | constant (value : Value)
  /-- The value of the first of one or more routes that leads to one. -/
  | firstOf (route : Route W) (others : Routes W)
  /-- A list of the values of those items that have one. -/
  | collected (items : Bindings W)

inductive Bindings (W : Type) where
  | nil
  | cons (first : Binding W) (rest : Bindings W)

/-- Mappings to apply one after another, with what their parameters get. -/
inductive Route (W : Type) where
  | nil
  | cons (mapping : Mapping W) (args : Bindings W) (rest : Route W)

inductive Routes (W : Type) where
  | nil
  | cons (first : Route W) (rest : Routes W)

end

variable {W : Type}

namespace Bindings

def toList : Bindings W → List (Binding W)
  | nil => []
  | cons first rest => first :: rest.toList

def ofList : List (Binding W) → Bindings W
  | [] => nil
  | first :: rest => cons first (ofList rest)

@[simp] theorem toList_ofList (items : List (Binding W)) : (ofList items).toList = items := by
  induction items with
  | nil => rfl
  | cons first rest ih => simp [ofList, toList, ih]

def length : Bindings W → Nat
  | nil => 0
  | cons _ rest => rest.length + 1

end Bindings

namespace Routes

def toList : Routes W → List (Route W)
  | nil => []
  | cons first rest => first :: rest.toList

def ofList : List (Route W) → Routes W
  | [] => nil
  | first :: rest => cons first (ofList rest)

@[simp] theorem toList_ofList (routes : List (Route W)) : (ofList routes).toList = routes := by
  induction routes with
  | nil => rfl
  | cons first rest ih => simp [ofList, toList, ih]

end Routes

namespace Binding

/-- The first that leads to a value of some routes, unset if there are none. -/
def ofRoutes : List (Route W) → Binding W
  | [] => unset
  | route :: others => firstOf route (.ofList others)

end Binding

namespace Route

/-- The hops with what their parameters get. -/
def hops : Route W → List (Mapping W × Bindings W)
  | nil => []
  | cons mapping args rest => (mapping, args) :: rest.hops

def ofHops : List (Mapping W × Bindings W) → Route W
  | [] => nil
  | (mapping, args) :: rest => cons mapping args (ofHops rest)

@[simp] theorem hops_ofHops (hops : List (Mapping W × Bindings W)) :
    (ofHops hops).hops = hops := by
  induction hops with
  | nil => rfl
  | cons hop rest ih => simp [ofHops, Route.hops, ih]

end Route

mutual

/-- Whether a mapping on the way can change its result. -/
def Route.isMutable : Route W → Bool
  | .nil => false
  | .cons mapping args rest => mapping.isMutable || args.anyMutable || rest.isMutable

def Routes.anyMutable : Routes W → Bool
  | .nil => false
  | .cons first rest => first.isMutable || rest.anyMutable

def Binding.isMutable : Binding W → Bool
  | .unset | .constant _ => false
  | .firstOf route others => route.isMutable || others.anyMutable
  | .collected items => items.anyMutable

def Bindings.anyMutable : Bindings W → Bool
  | .nil => false
  | .cons first rest => first.isMutable || rest.anyMutable

end

/-- An arm that has a route, with the display of the kind where the route ends. -/
structure Choice (W : Type) where
  route : Route W
  display : Display W

/-- The arms of a placeholder that have routes, and the names of the calls of its
first arm. -/
structure BoundPlaceholder (W : Type) where
  raw : String
  choices : List (Choice W)

inductive BoundElement (W : Type) where
  | text (text : String)
  | placeholder (placeholder : BoundPlaceholder W)

structure BoundTemplate (W : Type) where
  elements : List (BoundElement W)

def BoundElement.isMutable : BoundElement W → Bool
  | text _ => false
  | placeholder p => p.choices.any fun choice => choice.route.isMutable

/-- Whether the text of the template can change over time. -/
def BoundTemplate.isMutable (template : BoundTemplate W) : Bool :=
  template.elements.any BoundElement.isMutable

end TypedTemplate
