import TypedTemplate.Proofs.Render.Compilation
import TypedTemplate.Proofs.Render.Tracking
import TypedTemplate.Render.Stream

/-!
The first pull of a chain does what rendering once does. It gives the same text and makes
the same calls of mappings and displays; all that it adds is a subscription before each
call of a mutable mapping, for the same receiver and arguments (`withSubscriptions`).
Rendering once adds none. So the first text of a stream is the text of rendering once.
-/
namespace TypedTemplate

variable {W : Type}

/-! ## Calls with subscriptions -/

namespace HostCall

/-- Whether the call asks for a value or a text. -/
def isEvaluation : HostCall W → Bool
  | map _ _ _ | display _ _ _ => true
  | subscribe _ _ _ _ | cancel _ _ => false

/-- The feed that watching starts before the call. -/
def started? (world : W) : HostCall W → Option Feed
  | map mapping receiver args =>
    mapping.watch.map fun watch => { toSubscription := watch world receiver args }
  | _ => none

end HostCall

/-- The calls, with a subscription right before each call of a mutable mapping. The feeds
are numbered from `next` on. -/
def withSubscriptions (next : FeedId) : List (HostCall W) → List (HostCall W)
  | [] => []
  | .map mapping receiver args :: rest =>
    if mapping.isMutable then
      .subscribe mapping receiver args next :: .map mapping receiver args ::
        withSubscriptions (next + 1) rest
    else .map mapping receiver args :: withSubscriptions next rest
  | call :: rest => call :: withSubscriptions next rest

theorem withSubscriptions_append (world : W) (first later : List (HostCall W)) (next : FeedId) :
    withSubscriptions next (first ++ later) =
      withSubscriptions next first ++
        withSubscriptions (next + (first.filterMap (HostCall.started? world)).length) later := by
  induction first generalizing next with
  | nil => rfl
  | cons call rest ih =>
    cases call with
    | map mapping receiver args =>
      cases watching : mapping.watch with
      | none => simp [withSubscriptions, HostCall.started?, Mapping.isMutable, watching, ih]
      | some watch =>
        simp [withSubscriptions, HostCall.started?, Mapping.isMutable, watching, ih,
          Nat.add_assoc, Nat.add_comm 1]
    | _ => simp [withSubscriptions, List.filterMap_cons, HostCall.started?, ih]

/-- The host after some more calls, each with the subscription that belongs to it. -/
def Host.noteWatched (host : Host W) (calls : List (HostCall W)) : Host W :=
  { host with
    calls := host.calls ++ withSubscriptions host.feeds.length calls
    feeds := host.feeds ++ calls.filterMap (HostCall.started? host.state) }

namespace Host

@[simp] theorem noteWatched_nil (host : Host W) : host.noteWatched [] = host := by
  simp [noteWatched, withSubscriptions]

@[simp] theorem noteWatched_noteWatched (host : Host W) (first next : List (HostCall W)) :
    (host.noteWatched first).noteWatched next = host.noteWatched (first ++ next) := by
  simp [noteWatched, withSubscriptions_append host.state]

/-- Watching the result of a mapping is one call with its subscription. -/
theorem subscribe_note_map (host : Host W) (mapping : Mapping W) (receiver : Value)
    (args : Arguments) :
    (host.subscribe mapping receiver args).2.note (.map mapping receiver args) =
      host.noteWatched [.map mapping receiver args] := by
  cases watching : mapping.watch with
  | none =>
    simp [subscribe, watching, note, noteWatched, withSubscriptions, Mapping.isMutable,
      HostCall.started?]
  | some watch =>
    simp [subscribe, watching, listen, note, noteWatched, withSubscriptions, Mapping.isMutable,
      HostCall.started?]

end Host

/-! ## Steps and programs -/

/-- What came of rendering once and of watching, each from its own host: the same text,
and the same calls but for subscriptions. -/
structure SameRendering (onceBefore watchBefore : Host W) (once watched : String × Host W) :
    Prop where
  text : watched.1 = once.1
  calls : ∃ calls : List (HostCall W), (∀ call ∈ calls, call.isEvaluation = true) ∧
    once.2 = onceBefore.noteAll calls ∧ watched.2 = watchBefore.noteWatched calls

theorem Step.run_calls (step : Step W) (input : Slot) (now host : Host W) :
    ∃ calls : List (HostCall W), (∀ call ∈ calls, call.isEvaluation = true) ∧
      (step.run false now input).host = now.noteAll calls ∧
      (step.run true host input).host = host.noteWatched calls := by
  have quiet : ∃ calls : List (HostCall W), (∀ call ∈ calls, call.isEvaluation = true) ∧
      now = now.noteAll calls ∧ host = host.noteWatched calls := ⟨[], by simp⟩
  cases step with
  | map mapping =>
    unfold run
    cases input.stack with
    | nil => exact quiet
    | cons top rest =>
      obtain ⟨receiver, args⟩ := top
      cases receiver with
      | none => exact quiet
      | some receiver =>
        refine ⟨[.map mapping receiver args], by simp [HostCall.isEvaluation], rfl, ?_⟩
        exact host.subscribe_note_map mapping receiver args
  | collect count =>
    unfold run
    cases input.stack <;> exact quiet
  | pop alternative =>
    unfold run
    rcases input.stack with _ | ⟨top, _ | ⟨parent, rest⟩⟩ <;> exact quiet
  | display shown viewer marker =>
    unfold run
    cases input.stack.getLast?.bind Frame.receiver with
    | none => exact quiet
    | some value =>
      refine ⟨[.display shown value viewer], by simp [HostCall.isEvaluation], rfl, ?_⟩
      simp [Host.render, Host.note, Host.noteWatched, withSubscriptions, HostCall.started?]
  | _ => exact quiet

/-- Pulling a program of which no step has been taken is rendering it once, with results
watched. Both stop behind the same step, because they come by the same slots. -/
theorem pullCells_ofInstruction (program : List (Instruction W)) (input : Slot)
    {now host : Host W} (same : host.state = now.state) :
    SameRendering now host (runOnce now input program)
      (let pulled := WatchChain.pullCells host input (program.map Cell.ofInstruction)
       (pulled.1, pulled.2.2)) := by
  induction program generalizing input now host with
  | nil => exact ⟨rfl, [], by simp [runOnce, WatchChain.pullCells]⟩
  | cons instruction rest ih =>
    obtain ⟨taken, evaluations, once, watched⟩ := instruction.step.run_calls input now host
    have slots : (instruction.step.run true host input).slot =
        (instruction.step.run false now input).slot := by
      rw [Step.run_slot, Step.run_slot, same]
    have blank : (Cell.ofInstruction instruction).IsBlank := ⟨rfl, rfl⟩
    rw [List.map_cons, WatchChain.pullCells, blank.compute_eq, runOnce]
    dsimp only [Cell.ofInstruction]
    rw [slots]
    split
    · exact ⟨rfl, taken, evaluations, once, watched⟩
    · have states : (instruction.step.run true host input).host.state =
          (instruction.step.run false now input).host.state := by
        rw [once, watched]
        exact same
      obtain ⟨text, later, others, onceLater, watchedLater⟩ :=
        ih (instruction.step.run false now input).slot states
      refine ⟨text, taken ++ later, ?_, ?_, ?_⟩
      · intro call member
        rcases List.mem_append.mp member with ahead | behind
        · exact evaluations call ahead
        · exact others call behind
      · rw [onceLater, once, Host.noteAll_noteAll]
      · rw [watchedLater, watched, Host.noteWatched_noteWatched]

/-! ## Templates -/

/-- Pulling an element for the first time is rendering it once. -/
theorem LiveElement.pull_ofBound_same (context : Value) (viewer : Option Value) (config : Config)
    (bound : BoundElement W) {now host : Host W} (same : host.state = now.state) :
    SameRendering now host (bound.renderOnce context viewer config now)
      (let pulled := (ofBound context viewer config bound).pull host
       (pulled.1.current, pulled.2)) := by
  cases bound with
  | text raw => exact ⟨rfl, [], by simp [BoundElement.renderOnce, ofBound, pull]⟩
  | placeholder placeholder =>
    exact pullCells_ofInstruction (placeholder.program context viewer config) .initial same

theorem pullElements_ofBound_same (context : Value) (viewer : Option Value) (config : Config)
    (bounds : List (BoundElement W)) {now host : Host W} (same : host.state = now.state) :
    SameRendering now host (BoundTemplate.renderElements context viewer config now bounds)
      (let pulled := RenderStream.pullElements host
        (bounds.map (LiveElement.ofBound context viewer config))
       (RenderStream.current pulled.1, pulled.2)) := by
  induction bounds generalizing now host with
  | nil => exact ⟨rfl, [], by simp [BoundTemplate.renderElements, RenderStream.pullElements]⟩
  | cons bound rest ih =>
    obtain ⟨text, first, evaluations, once, watched⟩ :=
      LiveElement.pull_ofBound_same context viewer config bound same
    dsimp only at text watched
    have states : ((LiveElement.ofBound context viewer config bound).pull host).2.state =
        (bound.renderOnce context viewer config now).2.state := by
      rw [once, watched]
      exact same
    obtain ⟨texts, later, others, onceLater, watchedLater⟩ := ih states
    refine ⟨?_, first ++ later, ?_, ?_, ?_⟩
    · simp only [RenderStream.current] at texts
      simp only [RenderStream.current, List.map_cons, String.join_cons, RenderStream.pullElements,
        BoundTemplate.renderElements]
      rw [text, texts]
    · intro call member
      rcases List.mem_append.mp member with ahead | behind
      · exact evaluations call ahead
      · exact others call behind
    · simp only [BoundTemplate.renderElements]
      rw [onceLater, once, Host.noteAll_noteAll]
    · simp only [List.map_cons, RenderStream.pullElements]
      rw [watchedLater, watched, Host.noteWatched_noteWatched]

/-- The first pull of the chain of a program gives the text of taking the program once. Both
make the same calls of mappings and displays, in the same order and with the same receivers
and arguments. The pull in addition subscribes to each mutable mapping right before it is
called, for the same inputs; taking the program once starts no feed. The same holds of the
first text of a stream and of rendering its template once. -/
theorem firstPull_eq_renderOnce (context : Value) (viewer : Option Value) (config : Config)
    (host : Host W) :
    (∀ program : List (Instruction W),
      let once := runOnce host .initial program
      let pulled := (WatchChain.ofProgram program).pull host
      pulled.1 = once.1 ∧ ∃ calls : List (HostCall W),
        (∀ call ∈ calls, call.isEvaluation = true) ∧
        once.2 = { host with calls := host.calls ++ calls } ∧
        pulled.2.2 = { host with
          calls := host.calls ++ withSubscriptions host.feeds.length calls
          feeds := host.feeds ++ calls.filterMap (HostCall.started? host.state) }) ∧
    ∀ template : BoundTemplate W,
      let once := template.renderOnce context viewer config host
      let first := (RenderStream.ofBound template context viewer config).next host
      first.1 = .text once.1 ∧ ∃ calls : List (HostCall W),
        (∀ call ∈ calls, call.isEvaluation = true) ∧
        once.2 = { host with calls := host.calls ++ calls } ∧
        first.2.2 = { host with
          calls := host.calls ++ withSubscriptions host.feeds.length calls
          feeds := host.feeds ++ calls.filterMap (HostCall.started? host.state) } := by
  refine ⟨fun program => ?_, fun template => ?_⟩
  · have same := pullCells_ofInstruction program .initial (rfl : host.state = host.state)
    exact ⟨same.text, same.calls⟩
  · have same := pullElements_ofBound_same context viewer config template.elements
      (rfl : host.state = host.state)
    exact ⟨congrArg Next.text same.text, same.calls⟩

end TypedTemplate
