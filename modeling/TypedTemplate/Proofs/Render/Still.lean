import TypedTemplate.Proofs.Render.Shutdown

/-!
Templates that cannot change. If a plan reports that no mapping in it is mutable, at any depth,
then none of its steps can start a feed (`BoundTemplate.isUnwatched_program`), so its stream
never has anything to wait for: it gives one text, and after that nothing until it is stopped
(`RenderStream.Polled.isStill`).
-/
namespace TypedTemplate

variable {W : Type}

/-! ## Steps that start no feed -/

/-- Whether the step applies no mutable mapping. -/
def Step.IsUnwatched : Step W → Prop
  | map mapping => mapping.isMutable = false
  | _ => True

theorem BoundTemplate.isUnwatched_program {template : BoundTemplate W}
    (still : template.isMutable = false) {placeholder : BoundPlaceholder W}
    (inside : .placeholder placeholder ∈ template.elements) (context : Value)
    (viewer : Option Value) (config : Config) :
    ∀ instruction ∈ placeholder.program context viewer config, instruction.step.IsUnwatched := by
  intro instruction member
  have calls := template.callsOnly_program inside context viewer config instruction member
  rw [template.isMutable_eq, List.any_eq_false] at still
  cases called : instruction.step with
  | map mapping =>
    rw [called] at calls
    exact Bool.eq_false_iff.mpr (still mapping calls)
  | _ => trivial

namespace Host

variable {before middle after : Host W}

/-- Whether nothing but mappings and displays has been called, and no feed has been touched. -/
def OnlyEvaluates (before after : Host W) : Prop :=
  ∃ calls : List (HostCall W), (∀ call ∈ calls, call.isEvaluation = true) ∧
    after = before.noteAll calls

theorem OnlyEvaluates.refl (host : Host W) : host.OnlyEvaluates host :=
  ⟨[], nofun, host.noteAll_nil.symm⟩

theorem OnlyEvaluates.trans (left : before.OnlyEvaluates middle)
    (right : middle.OnlyEvaluates after) : before.OnlyEvaluates after := by
  obtain ⟨first, evaluations, rfl⟩ := left
  obtain ⟨next, others, rfl⟩ := right
  exact ⟨first ++ next, List.forall_mem_append.mpr ⟨evaluations, others⟩,
    before.noteAll_noteAll first next⟩

end Host

theorem Step.run_of_isUnwatched {step : Step W} (unwatched : step.IsUnwatched) (host : Host W)
    (input : Slot) :
    (step.run true host input).feed = none ∧
      host.OnlyEvaluates (step.run true host input).host := by
  rcases step.run_watching host input with
    ⟨calls, evaluations, none, after⟩ | ⟨mapping, receiver, args, watch, ⟨rfl, -⟩, watched, -⟩
  · exact ⟨none, calls, evaluations, after⟩
  · -- A mapping with a watch is mutable.
    have mutable : mapping.isMutable = true := by rw [Mapping.isMutable, watched]; rfl
    rw [Step.IsUnwatched, mutable] at unwatched
    cases unwatched

/-! ## The only pull -/

/-- What a pull leaves behind that starts no feed. -/
structure SilentOutcome (host : Host W) (outcome : String × List (Cell W) × Host W) : Prop where
  feeds : cellFeeds outcome.2.1 = []
  evaluates : host.OnlyEvaluates outcome.2.2

/-- Blank cells take their steps without starting a feed. -/
theorem pullCells_of_isUnwatched {cells : List (Cell W)} (blank : ∀ cell ∈ cells, cell.IsBlank)
    (unwatched : ∀ cell ∈ cells, cell.step.IsUnwatched) (host : Host W) (input : Slot) :
    SilentOutcome host (WatchChain.pullCells host input cells) := by
  induction cells generalizing host input with
  | nil => exact ⟨rfl, .refl host⟩
  | cons cell rest ih =>
    obtain ⟨empty, blankRest⟩ := List.forall_mem_cons.mp blank
    obtain ⟨first, others⟩ := List.forall_mem_cons.mp unwatched
    obtain ⟨none, evaluates⟩ := Step.run_of_isUnwatched first host input
    rw [WatchChain.pullCells_blank host input rest empty]
    dsimp only
    split
    · refine ⟨?_, evaluates⟩
      rw [cellFeeds_cons, none]
      exact cellFeeds_of_blank blankRest
    · have later := ih blankRest others (cell.step.run true host input).host
        (cell.step.run true host input).slot
      refine ⟨?_, evaluates.trans later.evaluates⟩
      rw [cellFeeds_cons, none]
      exact later.feeds

section Elements

variable (context : Value) (viewer : Option Value) (config : Config)

theorem pullElements_of_isUnwatched {bounds : List (BoundElement W)}
    (unwatched : ∀ placeholder, .placeholder placeholder ∈ bounds →
      ∀ instruction ∈ placeholder.program context viewer config, instruction.step.IsUnwatched)
    (host : Host W) :
    let pulled := RenderStream.pullElements host
      (bounds.map (LiveElement.ofBound context viewer config))
    elementFeeds pulled.1 = [] ∧ host.OnlyEvaluates pulled.2 := by
  induction bounds generalizing host with
  | nil => exact ⟨rfl, .refl host⟩
  | cons bound rest ih =>
    have alone : ((LiveElement.ofBound context viewer config bound).pull host).1.feeds = [] ∧
        host.OnlyEvaluates ((LiveElement.ofBound context viewer config bound).pull host).2 := by
      cases bound with
      | text raw => exact ⟨rfl, .refl host⟩
      | placeholder placeholder =>
        have silent := unwatched placeholder List.mem_cons_self
        have pulled := pullCells_of_isUnwatched (isBlank_ofInstruction _)
          (List.forall_mem_map.mpr silent) host .initial
        exact ⟨pulled.feeds, pulled.evaluates⟩
    obtain ⟨later, onward⟩ := ih (fun placeholder member =>
      unwatched placeholder (List.mem_cons_of_mem _ member))
        ((LiveElement.ofBound context viewer config bound).pull host).2
    rw [List.map_cons, RenderStream.pullElements]
    dsimp only
    rw [elementFeeds_cons, alone.1]
    exact ⟨later, alone.2.trans onward⟩

end Elements

/-! ## Streams in use -/

namespace RenderStream

section Runs

variable (template : BoundTemplate W) (context : Value) (viewer : Option Value) (config : Config)

/-- A stream of a template in use, with the answers to its polls, the first one in front. Between
any two operations the host may become any other. -/
inductive Polled : RenderStream W → List Next → Prop
  | opened : Polled (ofBound template context viewer config) []
  | polled {stream : RenderStream W} {answers : List Next} (run : Polled stream answers)
      (host : Host W) : Polled (stream.next host).2.1 (answers ++ [(stream.next host).1])
  | cancelled {stream : RenderStream W} {answers : List Next} (run : Polled stream answers) :
      Polled stream.cancel answers
  | closed {stream : RenderStream W} {answers : List Next} (run : Polled stream answers)
      (host : Host W) : Polled (stream.close host).2.1 answers

/-- Answers of which the first one is a text and all others are none, those at the end because
the stream has been stopped. One that was stopped before its first poll gives no text. -/
inductive AreOnce (stopped : Bool) : List Next → Prop
  | never (ended : Nat) (ends : 0 < ended → stopped = true) :
      AreOnce stopped (List.replicate ended .ended)
  | once (text : String) (pending ended : Nat) (ends : 0 < ended → stopped = true) :
      AreOnce stopped (.text text :: List.replicate pending .pending ++
        List.replicate ended .ended)

/-- What holds in every state of a stream that never changes, after these answers. -/
structure IsStill (stream : RenderStream W) (answers : List Next) : Prop where
  /-- It holds no feed. -/
  feeds : elementFeeds stream.elements = []
  once : AreOnce stream.cancelled answers
  /-- Whatever the host has become, a poll subscribes to nothing and cancels nothing. -/
  silent : ∀ host : Host W, host.OnlyEvaluates (stream.next host).2.2
  /-- A stream that has been stopped gives nothing any more, another one gives its text if it has
  not been polled yet, and else stays pending. -/
  next : ∀ host : Host W, (stream.next host).1 =
    if stream.cancelled then .ended
    else if answers = [] then .text (template.renderOnce context viewer config host).1
    else .pending
  close : ∀ host : Host W, (stream.close host).2.2 = host

/-- The phases of such a stream. -/
inductive InPhase : RenderStream W → List Next → Prop
  | waiting {stream : RenderStream W} (isOpen : stream.closed = false)
      (unstarted : stream.started = false)
      (elements : stream.elements =
        template.elements.map (LiveElement.ofBound context viewer config)) :
      InPhase stream []
  | resting {stream : RenderStream W} (isOpen : stream.closed = false)
      (started : stream.started = true) (feeds : elementFeeds stream.elements = [])
      (text : String) (pending : Nat) :
      InPhase stream (.text text :: List.replicate pending .pending)
  | finished {stream : RenderStream W} {answers : List Next} (closed : stream.closed = true)
      (stopped : stream.cancelled = true) (feeds : elementFeeds stream.elements = [])
      (once : AreOnce true answers) : InPhase stream answers

end Runs

variable {template : BoundTemplate W} {context : Value} {viewer : Option Value} {config : Config}
  {stream : RenderStream W} {answers : List Next}

theorem AreOnce.stop {stopped : Bool} (once : AreOnce stopped answers) :
    AreOnce true answers := by
  cases once with
  | never ended _ => exact .never ended fun _ => rfl
  | once text pending ended _ => exact .once text pending ended fun _ => rfl

theorem AreOnce.concat_ended (once : AreOnce true answers) :
    AreOnce true (answers ++ [.ended]) := by
  cases once with
  | never ended ends =>
    rw [← List.replicate_succ']
    exact .never (ended + 1) fun _ => rfl
  | once text pending ended ends =>
    rw [List.append_assoc, ← List.replicate_succ']
    exact .once text pending (ended + 1) fun _ => rfl

/-- Without feeds there is nothing to wait for. -/
theorem refreshElements_of_no_feeds {elements : List (LiveElement W)}
    (feeds : elementFeeds elements = []) (host : Host W) :
    refreshElements host elements = (false, elements.map (LiveElement.forgetEnded host), host) := by
  have holds : host.Holds (elementFeeds elements) := feeds ▸ host.holds_nil
  have asked := refreshElements_of_quiet holds (by rw [feeds]; nofun)
  rw [feeds] at asked
  exact asked

namespace InPhase

variable (phase : InPhase template context viewer config stream answers)

include phase

theorem feeds : elementFeeds stream.elements = [] := by
  cases phase with
  | waiting isOpen unstarted elements =>
    rw [elements]
    exact elementFeeds_ofBound template context viewer config
  | resting _ _ feeds => exact feeds
  | finished _ _ feeds => exact feeds

theorem once : AreOnce stream.cancelled answers := by
  cases phase with
  | waiting => exact .never 0 nofun
  | resting isOpen started feeds text pending =>
    have once := @AreOnce.once stream.cancelled text pending 0 nofun
    rw [List.replicate_zero, List.append_nil] at once
    exact once
  | finished closed stopped feeds once =>
    rw [stopped]
    exact once

theorem cancelled_of_closed (closed : stream.closed = true) : stream.cancelled = true := by
  cases phase with
  | finished _ stopped _ _ => exact stopped
  | waiting isOpen | resting isOpen =>
    rw [isOpen] at closed
    cases closed

theorem close_host (host : Host W) : (stream.close host).2.2 = host := by
  unfold RenderStream.close
  split
  · rfl
  · dsimp only
    rw [closeElements_host, phase.feeds]
    rfl

theorem close (host : Host W) :
    InPhase template context viewer config (stream.close host).2.1 answers := by
  cases closed : stream.closed with
  | true =>
    rw [close_of_closed closed]
    exact phase
  | false =>
    have stopped := phase.once.stop
    unfold RenderStream.close
    rw [if_neg (by simp [closed])]
    exact .finished rfl rfl (closeElements_feeds host stream.elements) stopped

theorem cancel : InPhase template context viewer config stream.cancel answers := by
  cases phase with
  | waiting isOpen unstarted elements => exact .waiting isOpen unstarted elements
  | resting isOpen started feeds text pending =>
    exact @InPhase.resting _ _ _ _ _ stream.cancel isOpen started feeds text pending
  | finished closed _ feeds once => exact .finished closed rfl feeds once

end InPhase

/-- What a poll does in each phase. -/
structure PollOutcome (template : BoundTemplate W) (context : Value) (viewer : Option Value)
    (config : Config) (stream : RenderStream W) (answers : List Next) (host : Host W) : Prop where
  phase : InPhase template context viewer config (stream.next host).2.1
    (answers ++ [(stream.next host).1])
  silent : host.OnlyEvaluates (stream.next host).2.2
  next : (stream.next host).1 =
    if stream.cancelled then .ended
    else if answers = [] then .text (template.renderOnce context viewer config host).1
    else .pending

theorem InPhase.poll (phase : InPhase template context viewer config stream answers)
    (still : template.isMutable = false) (host : Host W) :
    PollOutcome template context viewer config stream answers host := by
  cases stopped : stream.cancelled with
  | true =>
    have ended := phase.close host
    have closed := close_closed stream host
    have polled := next_of_stopped stopped host
    refine ⟨?_, ?_, ?_⟩
    · rw [polled]
      exact .finished closed (ended.cancelled_of_closed closed) ended.feeds
        phase.once.stop.concat_ended
    · rw [polled, phase.close_host]
      exact .refl host
    · rw [polled, stopped]
      rfl
  | false =>
    cases phase with
    | waiting isOpen unstarted elements =>
      have unwatched := pullElements_of_isUnwatched context viewer config
        (fun _ inside => template.isUnwatched_program still inside context viewer config) host
      have same := pullElements_ofBound_same context viewer config template.elements
        (rfl : host.state = host.state)
      rw [← elements] at unwatched same
      have polled : stream.next host = (.text (template.renderOnce context viewer config host).1,
          { stream with elements := (pullElements host stream.elements).1, started := true },
          (pullElements host stream.elements).2) := by
        rw [BoundTemplate.renderOnce, ← same.text]
        simp only [next, isOpen, stopped, unstarted, Bool.false_eq_true, if_false]
      refine ⟨?_, ?_, ?_⟩
      · rw [polled]
        exact @InPhase.resting _ _ _ _ _
          { stream with elements := (pullElements host stream.elements).1, started := true }
          isOpen rfl unwatched.1 _ 0
      · rw [polled]
        exact unwatched.2
      · rw [polled, stopped]
        rfl
    | resting isOpen started feeds text pending =>
      have asked := refreshElements_of_no_feeds feeds host
      have polled : stream.next host = (.pending,
          { stream with elements := stream.elements.map (LiveElement.forgetEnded host) },
          host) := by
        simp only [next, isOpen, stopped, started, asked, Bool.false_eq_true, if_false, if_true]
      refine ⟨?_, ?_, ?_⟩
      · have kept : elementFeeds (stream.elements.map (LiveElement.forgetEnded host)) = [] := by
          rw [elementFeeds_forgetEnded, feeds]
          rfl
        rw [polled, List.cons_append, ← List.replicate_succ']
        exact @InPhase.resting _ _ _ _ _
          { stream with elements := stream.elements.map (LiveElement.forgetEnded host) }
          isOpen started kept text (pending + 1)
      · rw [polled]
        exact .refl host
      · rw [polled, stopped]
        rfl
    | finished closed cancelled feeds once =>
      rw [stopped] at cancelled
      cases cancelled

/-- A template that reports that it cannot change never subscribes. However its stream is polled,
cancelled and closed, and whatever the host does in between and its mappings give, the stream
holds no feed and calls nothing but mappings and displays; the first poll gives the text of
rendering the template once, and later ones stay pending until the stream is cancelled or
closed. -/
theorem Polled.isStill (still : template.isMutable = false)
    (run : Polled template context viewer config stream answers) :
    IsStill template context viewer config stream answers := by
  have phase : InPhase template context viewer config stream answers := by
    induction run with
    | opened => exact .waiting rfl rfl rfl
    | polled _ host ih => exact (ih.poll still host).phase
    | cancelled _ ih => exact ih.cancel
    | closed _ host ih => exact ih.close host
  exact ⟨phase.feeds, phase.once, fun host => (phase.poll still host).silent,
    fun host => (phase.poll still host).next, phase.close_host⟩

end RenderStream

/-! A greeting names whoever is present. That depends on the outside state, but nobody can ask to
be told of it. -/

def presentName : Mapping String where
  name := ⟨["present"]⟩
  source := "context"
  target := "text"
  map state _ _ := some (.text state)

def greetAll : Mapping String where
  name := ⟨["greet"]⟩
  source := "context"
  target := "text"
  parameters := [{ name := "names", kind := "text", variadic := true }]
  map _ _ args :=
    match args with
    | [some (.list names)] => some (.text (String.join (names.filterMap Value.asText?)))
    | _ => none

def greeting : BoundTemplate String :=
  let present : Route String := .cons presentName .nil .nil
  let names : Bindings String := .cons (.firstOf present (.cons present .nil))
    (.cons (.constant (.text "!")) .nil)
  ⟨[.text "hello ",
    .placeholder ⟨"greet", [⟨.cons greetAll (.cons (.collected names) .nil) .nil,
      RenderStream.clockText⟩]⟩]⟩

/-- Ann has left when the greeting is polled again, which changes nothing. -/
theorem RenderStream.isStill_greeting :
    let opened := RenderStream.ofBound greeting (.context []) none {}
    let first := opened.next { state := "ann" }
    let second := first.2.1.next { state := "bob" }
    let last := second.2.1.cancel.next { state := "bob" }
    let answers := [.text "hello ann!", .pending, .ended]
    greeting.isMutable = false ∧
      RenderStream.Polled greeting (.context []) none {} last.2.1 answers ∧
      RenderStream.IsStill greeting (.context []) none {} last.2.1 answers := by
  intro opened first second last answers
  have run : RenderStream.Polled greeting (.context []) none {} last.2.1 answers :=
    .polled (.cancelled (.polled (.polled .opened { state := "ann" }) { state := "bob" }))
      { state := "bob" }
  exact ⟨rfl, run, RenderStream.Polled.isStill rfl run⟩

end TypedTemplate
