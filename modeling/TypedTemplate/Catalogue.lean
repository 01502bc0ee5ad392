import TypedTemplate.Number.Binary64
import TypedTemplate.Registry
import TypedTemplate.Text.Case

/-!
The standard catalogue: texts, numbers and conditions. A mapping may have several names;
all but the first are aliases and say so in their metadata.
-/
namespace TypedTemplate.Catalogue

variable {W : Type}

def namespaceToken : String := "infoapi"

def textKind : Kind := "infoapi/string"
def numberKind : Kind := "infoapi/number"
def conditionKind : Kind := "infoapi/bool"

/-- The name in the namespace of the catalogue. -/
def qualified (short : String) : Name := ⟨[namespaceToken, short]⟩

/-- A mapping between two kinds that has yet to get its name. -/
def unnamed (source target : Kind) (help : String) (parameters : List Parameter)
    (map : Value → Arguments → Option Value) : Mapping W where
  name := ⟨[namespaceToken]⟩
  source := source
  target := target
  parameters := parameters
  map := fun _ => map
  help := help
  hosted := false

/-- A mapping under all its names, the aliases in front. -/
def named (mapping : Mapping W) : List String → List (Mapping W)
  | [] => []
  | first :: aliases =>
    let synonym (short : String) : Mapping W :=
      { mapping with
        name := qualified short
        metadata := [("alias_of", .text (qualified first).toString)] }
    aliases.map synonym ++ [{ mapping with name := qualified first }]

/-- An argument, if it is there and has a value. -/
def argument (args : Arguments) (index : Nat) : Option Value := args[index]?.join

/-- A display of the values that have a text. -/
def display (kind : Kind) (text? : Value → Option String) : Display W where
  kind := kind
  render := fun _ value _ => (text? value).getD invalidText
  hosted := false

/-! ## Texts -/

def onText (help : String) (f : String → String) : Mapping W :=
  unnamed textKind textKind help [] fun receiver _ =>
    receiver.asText?.map fun text => .text (f text)

def texts : List (Mapping W) :=
  named (onText "Converts the entire string to uppercase." upperCase) ["upper", "uppercase"]
    ++ named (onText "Converts the entire string to lowercase." lowerCase) ["lower", "lowercase"]

/-! ## Numbers -/

/-- A number that is neither infinite nor NaN. -/
def finite? (x : Float) : Option Value := if x.isFinite then some (.number x) else none

def onNumber (help : String) (f : Float → Float) : Mapping W :=
  unnamed numberKind numberKind help [] fun receiver _ =>
    receiver.asNumber?.bind fun x => finite? (f x)

def onNumbers (parameter help : String) (f : Float → Float → Float) : Mapping W :=
  unnamed numberKind numberKind help [{ name := parameter, kind := numberKind }]
    fun receiver args => do
      let x ← receiver.asNumber?
      let y ← (← argument args 0).asNumber?
      finite? (f x y)

def numbers : List (Mapping W) :=
  named (onNumber "Take the absolute value." Float.abs) ["abs", "absolute"]
    ++ named (onNumber "Flip the positive/negative sign." Float.neg) ["neg", "negate"]
    ++ named (onNumber "Round down the number." Float.floor) ["floor"]
    ++ named (onNumber "Round up the number." Float.ceil) ["ceil", "ceiling"]
    ++ named (onNumber "Round the number to the nearest integer." Float.round) ["round"]
    ++ named
      (onNumber "Take the reciprocal of a number, i.e. 1 divided by the number." fun x => 1.0 / x)
      ["rec", "reciprocal", "inv", "inverse"]
    ++ named (onNumbers "other" "Add two numbers." Float.add) ["add", "plus", "sum"]
    ++ named (onNumbers "other" "Subtract two numbers." Float.sub) ["sub", "subtract", "minus"]
    ++ named (onNumbers "other" "Multiply two numbers." Float.mul)
      ["mul", "mult", "multiply", "times", "prod", "product"]
    ++ named (onNumbers "other" "Divide two numbers." Float.div) ["div", "divide"]
    ++ named
      (onNumbers "other" "Divide two numbers and take the integer quotient."
        fun x y => Binary64.truncate (x / y))
      ["quotient"]
    ++ named (onNumbers "other" "Divide two numbers and take the remainder." Binary64.remainder)
      ["remainder", "rem", "modulus", "mod"]
    ++ named (onNumbers "other" "Take the greater of two numbers." Binary64.greater)
      ["greater", "max", "maximum"]
    ++ named (onNumbers "other" "Take the less of two numbers." Binary64.lesser)
      ["less", "min", "minimum"]
    ++ named (onNumbers "exp" "Raise the number to the power \"exp\"." Float.pow) ["pow", "power"]

/-! ## Conditions -/

def onConditions (help : String) (f : Bool → Bool → Bool) : Mapping W :=
  unnamed conditionKind conditionKind help [{ name := "other", kind := conditionKind }]
    fun receiver args => do
      let x ← receiver.asBool?
      let y ← (← argument args 0).asBool?
      return .bool (f x y)

def choose : Mapping W :=
  unnamed conditionKind textKind
    ("Resolve to the first argument (\"then\") if the condition is true, "
      ++ "otherwise to the second argument (\"else\").")
    [{ name := "then", kind := textKind }, { name := "else", kind := textKind }]
    fun receiver args => do
      let condition ← receiver.asBool?
      argument args (if condition then 0 else 1)

def opposite : Mapping W :=
  unnamed conditionKind conditionKind "Negate the condition" [] fun receiver _ =>
    receiver.asBool?.map fun condition => .bool !condition

def conditions : List (Mapping W) :=
  named choose ["if"]
    ++ named (onConditions "Check if both conditions are true" and) ["and"]
    ++ named (onConditions "Check if either condition is true" or) ["or"]
    ++ named (onConditions "Check if exactly one of the conditions is true" xor) ["xor"]
    ++ named opposite ["not"]

/-! ## The layer -/

/-- Adds a kind with its help, its display, the representation that has the kind, and
the mappings that start from it. -/
def registerKind (layer : Layer W) (help : KindHelp) (text? : Value → Option String)
    (marker : Marker) (mappings : List (Mapping W)) : Except RegistryError (Layer W) :=
  (((layer.registerHelp help).registerDisplay (display help.kind text?)).registerHint
    ⟨marker, help.kind⟩).registerMappings mappings

/-- The layer with the whole catalogue. -/
def layer : Except RegistryError (Layer W) := do
  let withTexts ← registerKind .empty
    ⟨textKind, some "Text", some "A string of characters"⟩ Value.asText? .text texts
  let withNumbers ← registerKind withTexts
    ⟨numberKind, some "Number", some "A real number"⟩
    (fun value => value.asNumber?.map formatNumber) .number numbers
  registerKind withNumbers
    ⟨conditionKind, some "Boolean", some "A condition that is either true or false"⟩
    (fun value => value.asBool?.map fun b => toString b) .bool conditions

end TypedTemplate.Catalogue
