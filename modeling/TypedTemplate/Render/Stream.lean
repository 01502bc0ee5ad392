import TypedTemplate.Render.WatchChain

/-!
Continuous rendering. A stream gives the text of a template, and again whenever a
placeholder has changed, even if the text is the same as before. It ends only when it
is closed or cancelled.
-/
namespace TypedTemplate

variable {W : Type}

/-- An element of a template that is being rendered, with the text it gave last. -/
inductive LiveElement (W : Type) where
  | text (text : String)
  | chain (chain : WatchChain W) (last : String)

structure RenderStream (W : Type) where
  elements : List (LiveElement W)
  started : Bool := false
  closed : Bool := false
  /-- Whether somebody has asked the stream to end. -/
  cancelled : Bool := false

/-- What a stream gives when it is asked once. -/
inductive Next where
  | pending
  | ended
  | text (text : String)
  deriving DecidableEq, Repr

namespace LiveElement

def ofBound (context : Value) (viewer : Option Value) (config : Config) :
    BoundElement W → LiveElement W
  | .text raw => text raw
  | .placeholder p => chain (.ofProgram (p.program context viewer config)) ""

def current : LiveElement W → String
  | text raw => raw
  | chain _ last => last

def pull (host : Host W) : LiveElement W → LiveElement W × Host W
  | text raw => (text raw, host)
  | chain steps _ =>
    let (last, steps, host) := steps.pull host
    (chain steps last, host)

/-- Asks the element once for a change; if there is one, even one that a failing hook
has disturbed, its text is pulled. -/
def refresh (host : Host W) : LiveElement W → Bool × LiveElement W × Host W
  | text raw => (false, text raw, host)
  | chain steps last =>
    match steps.changed host with
    | (.pending, steps, host) => (false, chain steps last, host)
    | (_, steps, host) =>
      let (element, host) := pull host (chain steps last)
      (true, element, host)

def close (host : Host W) : LiveElement W → Option CancelError × LiveElement W × Host W
  | text raw => (none, text raw, host)
  | chain steps last =>
    match steps.close host with
    | (.ok (), steps, host) => (none, chain steps last, host)
    | (.error failure, steps, host) => (some failure, chain steps last, host)

def drop (host : Host W) : LiveElement W → Host W
  | text _ => host
  | chain steps _ => steps.drop host

end LiveElement

namespace RenderStream

/-- The stream of a bound template; nothing is computed yet. -/
def ofBound (template : BoundTemplate W) (context : Value) (viewer : Option Value)
    (config : Config) : RenderStream W :=
  { elements := template.elements.map (LiveElement.ofBound context viewer config) }

/-- The texts that the elements gave last. -/
def current (elements : List (LiveElement W)) : String :=
  String.join (elements.map LiveElement.current)

def pullElements (host : Host W) : List (LiveElement W) → List (LiveElement W) × Host W
  | [] => ([], host)
  | element :: rest =>
    let (element, host) := element.pull host
    let (rest, host) := pullElements host rest
    (element :: rest, host)

/-- Asks the elements in order until one has changed. -/
def refreshElements (host : Host W) : List (LiveElement W) → Bool × List (LiveElement W) × Host W
  | [] => (false, [], host)
  | element :: rest =>
    match element.refresh host with
    | (true, element, host) => (true, element :: rest, host)
    | (false, element, host) =>
      let (found, rest, host) := refreshElements host rest
      (found, element :: rest, host)

def closeElements (host : Host W) :
    List (LiveElement W) → Option CancelError × List (LiveElement W) × Host W
  | [] => (none, [], host)
  | element :: rest =>
    let (failure, element, host) := element.close host
    let (later, rest, host) := closeElements host rest
    (failure.or later, element :: rest, host)

/-- Cancels every change stream of every element. Of several failures the first is
reported; closing again does nothing. -/
def close (stream : RenderStream W) (host : Host W) :
    Except CancelError Unit × RenderStream W × Host W :=
  if stream.closed then (.ok (), stream, host)
  else
    let (failure, elements, host) := closeElements host stream.elements
    (WatchChain.toExcept failure,
      { stream with elements, closed := true, cancelled := true }, host)

/-- Asks for the next text once. The first text comes at once, a later one when an
element has changed. -/
def next (stream : RenderStream W) (host : Host W) : Next × RenderStream W × Host W :=
  if stream.closed then (.ended, stream, host)
  else if stream.cancelled then
    let (_, stream, host) := stream.close host
    (.ended, stream, host)
  else if stream.started then
    match refreshElements host stream.elements with
    | (true, elements, host) => (.text (current elements), { stream with elements }, host)
    | (false, elements, host) => (.pending, { stream with elements }, host)
  else
    let (elements, host) := pullElements host stream.elements
    (.text (current elements), { stream with elements, started := true }, host)

/-- Asks the stream to end. -/
def cancel (stream : RenderStream W) : RenderStream W := { stream with cancelled := true }

/-- Gives up every change stream, whether or not hooks fail. -/
def drop (stream : RenderStream W) (host : Host W) : Host W :=
  stream.elements.foldl (fun host element => element.drop host) host

end RenderStream

end TypedTemplate
