import TypedTemplate.Render.Program

/-!
Rendering once. The steps of a program are taken one after another up to the end of
the first arm that renders a text; nothing is subscribed to.
-/
namespace TypedTemplate

variable {W : Type}

/-- The text of a slot, empty if it has none. -/
def Slot.textOrEmpty (slot : Slot) : String := slot.text?.getD ""

/-- Whether a program may stop behind an instruction that left this slot. -/
def Instruction.stopsAt (instruction : Instruction W) (slot : Slot) : Bool :=
  instruction.endsArm && slot.text?.isSome

def runOnce (host : Host W) (slot : Slot) : List (Instruction W) → String × Host W
  | [] => (slot.textOrEmpty, host)
  | instruction :: rest =>
    let ran := instruction.step.run false host slot
    if instruction.stopsAt ran.slot then (ran.slot.textOrEmpty, ran.host)
    else runOnce ran.host ran.slot rest

namespace BoundElement

def renderOnce (context : Value) (viewer : Option Value) (config : Config) (host : Host W) :
    BoundElement W → String × Host W
  | .text raw => (raw, host)
  | .placeholder p => runOnce host .initial (p.program context viewer config)

end BoundElement

namespace BoundTemplate

def renderElements (context : Value) (viewer : Option Value) (config : Config) (host : Host W) :
    List (BoundElement W) → String × Host W
  | [] => ("", host)
  | element :: rest =>
    let (text, host) := element.renderOnce context viewer config host
    let (others, host) := renderElements context viewer config host rest
    (text ++ others, host)

/-- The text of the template for a context, now. -/
def renderOnce (template : BoundTemplate W) (context : Value) (viewer : Option Value)
    (config : Config) (host : Host W) : String × Host W :=
  renderElements context viewer config host template.elements

end BoundTemplate

end TypedTemplate
