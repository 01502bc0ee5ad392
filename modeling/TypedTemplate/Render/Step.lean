import TypedTemplate.Host

/-!
The steps of an evaluation. A step maps one slot to the next: either a stack of frames,
one for each mapping whose receiver or arguments are being computed, or rendered text.
A frame without a receiver stands for a computation that has no value; its steps are
still taken, but call nothing.
-/
namespace TypedTemplate

/-- A mapping in progress. -/
structure Frame where
  /-- Nothing once a mapping on the way has given no value. -/
  receiver : Option Value
  /-- What has been collected for the next mapping. -/
  args : Arguments
  deriving Inhabited

inductive Slot where
  /-- The frames, the innermost first. -/
  | frames (stack : List Frame)
  | rendered (text : Option String)
  deriving Inhabited

namespace Slot

def initial : Slot := rendered none

def text? : Slot → Option String
  | rendered text => text
  | frames _ => none

/-- The frames, none in a slot of text. -/
def stack : Slot → List Frame
  | frames stack => stack
  | rendered _ => []

/-- Gives the innermost frame one more argument. -/
def pushArg (slot : Slot) (value : Option Value) : Slot :=
  match slot.stack with
  | [] => frames []
  | top :: rest => frames ({ top with args := top.args ++ [value] } :: rest)

end Slot

inductive Step (W : Type) where
  /-- Starts an arm from the context. -/
  | begin (context : Value)
  /-- Starts a route of an argument. An alternative is tried only where the routes
  before it have led to no value. -/
  | push (context : Value) (alternative : Bool)
  | const (value : Value)
  | unset
  /-- Makes a list of the last arguments. -/
  | collect (count : Nat)
  | map (mapping : Mapping W)
  /-- Ends a route of an argument. -/
  | pop (alternative : Bool)
  | display (display : Display W) (viewer : Option Value) (invalidMarker : String)
  | fallback (text : String)

/-- What a step leaves behind: the slot, the change stream it started, the host. -/
structure Ran (W : Type) where
  slot : Slot
  feed : Option FeedId
  host : Host W

namespace Step

variable {W : Type}

/-- Whether a nested route need not be evaluated: the mapping that its value is for
will not be applied, or an earlier route has given the value. -/
def skips (alternative : Bool) : List Frame → Bool
  | [] => false
  | parent :: _ =>
    parent.receiver.isNone || (alternative && parent.args.getLast?.join.isSome)

/-- The last `count` arguments as a list of those that have a value. -/
def collectArgs (count : Nat) (args : Arguments) : Arguments :=
  let kept := args.length - count
  args.take kept ++ [some (.list ((args.drop kept).filterMap id))]

/-- Fills in the last argument if it has no value yet. -/
def fillLast (value : Option Value) (args : Arguments) : Arguments :=
  match args.getLast? with
  | some none => args.dropLast ++ [value]
  | _ => args

/-- Passes the value of a nested route to the frame below it. -/
def passOn (alternative : Bool) (value : Option Value) (parent : Frame) : Frame :=
  if alternative then { parent with args := fillLast value parent.args }
  else { parent with args := parent.args ++ [value] }

/-- Applies a mapping to the frame. With `watch` it first subscribes to the result. -/
def applyTop (watch : Bool) (host : Host W) (mapping : Mapping W) (top : Frame) :
    Frame × Option FeedId × Host W :=
  match top.receiver with
  | none => (⟨none, []⟩, none, host)
  | some receiver =>
    let (feed, host) := if watch then host.subscribe mapping receiver top.args else (none, host)
    let (value, host) := host.apply mapping receiver top.args
    (⟨value, []⟩, feed, host)

/-- The display's text, or the marker in place of the text for invalid values. -/
def markInvalid (marker text : String) : String := if text = invalidText then marker else text

def run (watch : Bool) (host : Host W) (slot : Slot) : Step W → Ran W
  | begin context => ⟨.frames [⟨some context, []⟩], none, host⟩
  | push context alternative =>
    let receiver := if skips alternative slot.stack then none else some context
    ⟨.frames (⟨receiver, []⟩ :: slot.stack), none, host⟩
  | const value => ⟨slot.pushArg (some value), none, host⟩
  | unset => ⟨slot.pushArg none, none, host⟩
  | collect count =>
    match slot.stack with
    | [] => ⟨.frames [], none, host⟩
    | top :: rest => ⟨.frames ({ top with args := collectArgs count top.args } :: rest), none, host⟩
  | map mapping =>
    match slot.stack with
    | [] => ⟨.frames [], none, host⟩
    | top :: rest =>
      let (top, feed, host) := applyTop watch host mapping top
      ⟨.frames (top :: rest), feed, host⟩
  | pop alternative =>
    match slot.stack with
    | [] => ⟨.frames [], none, host⟩
    | [_] => ⟨.frames [], none, host⟩
    | top :: parent :: rest =>
      ⟨.frames (passOn alternative top.receiver parent :: rest), none, host⟩
  | display shown viewer marker =>
    match slot.stack.getLast?.bind Frame.receiver with
    | none => ⟨.rendered none, none, host⟩
    | some value =>
      let (text, host) := host.render shown value viewer
      ⟨.rendered (some (markInvalid marker text)), none, host⟩
  | fallback text => ⟨.rendered (some text), none, host⟩

end Step

end TypedTemplate
