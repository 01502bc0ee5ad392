import TypedTemplate.Descriptor

/-!
The host while templates are rendered. Its outside state may change between two calls
of its functions, so whoever depends on a result that can change subscribes and gets a
change stream. Every call of a host function is kept in order.
-/
namespace TypedTemplate

/-- The number of a change stream. -/
abbrev FeedId := Nat

/-- A change stream: the signals that wait, and whether its consumer has cancelled it. -/
structure Feed extends Subscription where
  cancelled : Bool := false
  deriving DecidableEq, Repr

/-- A call of a host function. -/
inductive HostCall (W : Type) where
  | map (mapping : Mapping W) (receiver : Value) (args : Arguments)
  | subscribe (mapping : Mapping W) (receiver : Value) (args : Arguments) (feed : FeedId)
  | display (display : Display W) (value : Value) (viewer : Option Value)
  /-- The hook that runs when a change stream is cancelled. -/
  | cancel (feed : FeedId) (hook : CancelHook)

structure Host (W : Type) where
  state : W
  feeds : List Feed := []
  calls : List (HostCall W) := []

/-- What a change stream has to say when it is asked once. -/
inductive Poll where
  | pending
  | signal
  | ended
  deriving DecidableEq, Repr

namespace Host

variable {W : Type}

/-! ## Functions of the host -/

def note (host : Host W) (call : HostCall W) : Host W :=
  { host with calls := host.calls ++ [call] }

def apply (host : Host W) (mapping : Mapping W) (receiver : Value) (args : Arguments) :
    Option Value × Host W :=
  (mapping.map host.state receiver args, host.note (.map mapping receiver args))

def render (host : Host W) (display : Display W) (value : Value) (viewer : Option Value) :
    String × Host W :=
  (display.render host.state value viewer, host.note (.display display value viewer))

/-- Starts a change stream. -/
def listen (host : Host W) (subscription : Subscription) : FeedId × Host W :=
  (host.feeds.length, { host with feeds := host.feeds ++ [{ toSubscription := subscription }] })

/-- Starts a change stream for the result of a mapping, if the result can change. -/
def subscribe (host : Host W) (mapping : Mapping W) (receiver : Value) (args : Arguments) :
    Option FeedId × Host W :=
  match mapping.watch with
  | none => (none, host)
  | some watch =>
    let (feed, host) := host.listen (watch host.state receiver args)
    (some feed, host.note (.subscribe mapping receiver args feed))

/-! ## The consumer's side of change streams -/

def feed? (host : Host W) (id : FeedId) : Option Feed := host.feeds[id]?

def setFeed (host : Host W) (id : FeedId) (feed : Feed) : Host W :=
  { host with feeds := host.feeds.set id feed }

def isCancelled (host : Host W) (id : FeedId) : Bool :=
  match host.feed? id with
  | none => true
  | some feed => feed.cancelled

/-- Takes a waiting signal, if there is one. A cancelled stream has ended. -/
def poll (host : Host W) (id : FeedId) : Poll × Host W :=
  match host.feed? id with
  | none => (.ended, host)
  | some feed =>
    if feed.cancelled then (.ended, host)
    else
      match feed.queued with
      | queued + 1 => (.signal, host.setFeed id { feed with queued })
      | 0 => (if feed.ended then .ended else .pending, host)

/-- Cancels a change stream. The first time its hook runs, which may fail. -/
def cancel (host : Host W) (id : FeedId) : Except String Unit × Host W :=
  match host.feed? id with
  | none => (.ok (), host)
  | some feed =>
    if feed.cancelled then (.ok (), host)
    else
      let host := host.setFeed id { feed with cancelled := true }
      match feed.hook with
      | none => (.ok (), host)
      | some hook =>
        let result := match hook.failure with
          | none => .ok ()
          | some message => .error message
        (result, host.note (.cancel id hook))

/-- Gives a change stream up, whether or not its hook fails. -/
def drop (host : Host W) (id : FeedId) : Host W := (host.cancel id).2

/-! ## The outside's side of change streams -/

/-- Sends a signal; false if the stream has been cancelled. -/
def signal (host : Host W) (id : FeedId) : Bool × Host W :=
  match host.feed? id with
  | none => (false, host)
  | some feed =>
    if feed.cancelled then (false, host)
    else (true, host.setFeed id { feed with queued := feed.queued + 1 })

/-- Lets a change stream end after the signals that wait. -/
def finish (host : Host W) (id : FeedId) : Host W :=
  match host.feed? id with
  | none => host
  | some feed => host.setFeed id { feed with ended := true }

/-- Starts a new record of calls. -/
def forget (host : Host W) : Host W := { host with calls := [] }

end Host

end TypedTemplate
