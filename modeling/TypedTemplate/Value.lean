import TypedTemplate.Number.Decimal
import TypedTemplate.Text.Quoted

/-!
Kinds and values. A kind is a label that says what a value means; a value carries
only its representation, and which kind it has follows from the mapping that made it.
-/
namespace TypedTemplate

/-- A semantic type label without structure. -/
structure Kind where
  label : String
  deriving DecidableEq, Repr, Inhabited

namespace Kind

instance : Coe String Kind := ⟨Kind.mk⟩

/-- The kind as a dump shows it, its label as it is. -/
def inspect (kind : Kind) : String := "Kind(" ++ kind.label ++ ")"

end Kind

/-- The representation of a host object. -/
structure HostType where
  label : String
  deriving DecidableEq, Repr, Inhabited

inductive Value where
  | bool (value : Bool)
  | number (value : Float)
  | text (value : String)
  | list (items : List Value)
  /-- A host object, known by its identity. -/
  | object (identity : String) (type : HostType)
  /-- The values that a host passed by name. -/
  | context (entries : List (String × Value))
  deriving Inhabited

/-- The representation of a value, by which a host may declare its kind. -/
inductive Marker where
  | bool
  | number
  | text
  | list
  | object (type : HostType)
  | context
  deriving DecidableEq, Repr

namespace Value

def asBool? : Value → Option Bool
  | bool value => some value
  | _ => none

def asNumber? : Value → Option Float
  | number value => some value
  | _ => none

def asText? : Value → Option String
  | text value => some value
  | _ => none

def asList? : Value → Option (List Value)
  | list items => some items
  | _ => none

/-- The value that a context holds under a name. -/
def entry? (name : String) : Value → Option Value
  | context entries => entries.lookup name
  | _ => none

def marker : Value → Marker
  | bool _ => .bool
  | number _ => .number
  | text _ => .text
  | list _ => .list
  | object _ type => .object type
  | context _ => .context

mutual

/-- Equality of representations: numbers as numbers, so NaN differs from itself, and
objects by identity. -/
def beq : Value → Value → Bool
  | bool a, bool b => a == b
  | number a, number b => a == b
  | text a, text b => a == b
  | list as, list bs => beqList as bs
  | object a _, object b _ => a == b
  | context as, context bs => beqEntries as bs
  | _, _ => false

def beqList : List Value → List Value → Bool
  | [], [] => true
  | a :: as, b :: bs => beq a b && beqList as bs
  | _, _ => false

def beqEntries : List (String × Value) → List (String × Value) → Bool
  | [], [] => true
  | (k, a) :: as, (l, b) :: bs => k == l && beq a b && beqEntries as bs
  | _, _ => false

end

instance : BEq Value := ⟨beq⟩

mutual

/-- The value as a dump shows it. -/
def inspect : Value → String
  | bool value => "Bool(" ++ toString value ++ ")"
  | number value => "Number(" ++ formatNumber value ++ ")"
  | text value => "String(" ++ quoted value ++ ")"
  | list items => "List([" ++ ", ".intercalate (inspectAll items) ++ "])"
  | object _ _ | context _ => "Object(..)"

def inspectAll : List Value → List String
  | [] => []
  | item :: items => inspect item :: inspectAll items

end

end Value

/-- The arguments of one call; an argument may have no value. -/
abbrev Arguments := List (Option Value)

end TypedTemplate
