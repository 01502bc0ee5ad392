import Mathlib.Data.List.Forall2
import TypedTemplate.Proofs.Plan
import TypedTemplate.Proofs.Render.Recompute
import TypedTemplate.Render.Stream

/-!
Continuous rendering loses no update. In every run of a stream, in which the world moves
between polls as it likes, each element shows the text of slots that are tracked
(`LiveElement.Shows`). So as soon as no signal is waiting, the text that was given last
is the one that rendering once would give now.
-/
namespace TypedTemplate

variable {W : Type}

/-! ## Rendering once -/

theorem runOnce_state (program : List (Instruction W)) (host : Host W) (slot : Slot) :
    (runOnce host slot program).2.state = host.state := by
  induction program generalizing host slot with
  | nil => rfl
  | cons instruction rest ih =>
    have kept := (instruction.step.run_host false host slot).state
    rw [runOnce]
    split
    · exact kept
    · rw [ih, kept]

/-- The text of a program depends on the host only as far as its outside state goes. -/
theorem runOnce_congr {host now : Host W} (same : now.state = host.state) (slot : Slot)
    (program : List (Instruction W)) :
    (runOnce now slot program).1 = (runOnce host slot program).1 := by
  induction program generalizing host now slot with
  | nil => rfl
  | cons instruction rest ih =>
    have slots : (instruction.step.run false now slot).slot =
        (instruction.step.run false host slot).slot := by
      rw [Step.run_slot, Step.run_slot, same]
    have states : (instruction.step.run false now slot).host.state =
        (instruction.step.run false host slot).host.state := by
      rw [(Step.run_host _ _ _ _).state, (Step.run_host _ _ _ _).state, same]
    rw [runOnce, runOnce, slots]
    split
    · rfl
    · exact ih states _

theorem BoundElement.renderOnce_state (bound : BoundElement W) (context : Value)
    (viewer : Option Value) (config : Config) (host : Host W) :
    (bound.renderOnce context viewer config host).2.state = host.state := by
  cases bound with
  | text raw => rfl
  | placeholder placeholder => exact runOnce_state _ host .initial

theorem BoundElement.renderOnce_congr {host now : Host W} (same : now.state = host.state)
    (bound : BoundElement W) (context : Value) (viewer : Option Value) (config : Config) :
    (bound.renderOnce context viewer config now).1 =
      (bound.renderOnce context viewer config host).1 := by
  cases bound with
  | text raw => rfl
  | placeholder placeholder => exact runOnce_congr same .initial _

theorem BoundTemplate.renderElements_congr {context : Value} {viewer : Option Value}
    {config : Config} {host now : Host W} (same : now.state = host.state)
    (bounds : List (BoundElement W)) :
    (renderElements context viewer config now bounds).1 =
      (renderElements context viewer config host bounds).1 := by
  induction bounds generalizing host now with
  | nil => rfl
  | cons bound rest ih =>
    have states : (bound.renderOnce context viewer config now).2.state =
        (bound.renderOnce context viewer config host).2.state := by
      rw [bound.renderOnce_state, bound.renderOnce_state, same]
    simp only [renderElements]
    rw [bound.renderOnce_congr same, ih states]

/-! ## Elements -/

namespace LiveElement

/-- The feeds that an element holds. -/
def feeds : LiveElement W → List FeedId
  | .text _ => []
  | .chain steps _ => cellFeeds steps.cells

@[simp] theorem feeds_chain (steps : WatchChain W) (last : String) :
    (chain steps last).feeds = cellFeeds steps.cells := rfl

theorem refresh_chain (host : Host W) (steps : WatchChain W) (last : String) :
    (chain steps last).refresh host =
      (let asked := WatchChain.changedCells host 0 steps.cells
       if asked.1 = .pending then (false, chain ⟨asked.2.1⟩ last, asked.2.2)
       else
         let pulled := WatchChain.pullCells asked.2.2 .initial asked.2.1
         (true, chain ⟨pulled.2.1⟩ pulled.1, pulled.2.2)) := by
  rw [refresh, WatchChain.changed]
  rcases WatchChain.changedCells host 0 steps.cells with ⟨_ | _ | _, cells, after⟩ <;> rfl

theorem refresh_current {host : Host W} {element : LiveElement W}
    (pending : (element.refresh host).1 = false) :
    (element.refresh host).2.1.current = element.current := by
  cases element with
  | text raw => rfl
  | chain steps last =>
    rw [refresh_chain] at pending ⊢
    dsimp only at pending ⊢
    split at pending
    · rename_i asked
      rw [if_pos asked]
      rfl
    · cases pending

end LiveElement

/-- Whether no signal is waiting in a feed, unless it has been cancelled. -/
def Host.IsQuiet (host : Host W) (id : FeedId) : Prop :=
  ∀ feed, host.feed? id = some feed → feed.cancelled = false → feed.queued = 0

/-- The feeds that some elements hold. -/
def elementFeeds (elements : List (LiveElement W)) : List FeedId :=
  elements.flatMap LiveElement.feeds

theorem elementFeeds_cons (element : LiveElement W) (rest : List (LiveElement W)) :
    elementFeeds (element :: rest) = element.feeds ++ elementFeeds rest := by
  simp [elementFeeds]

section Elements

variable (context : Value) (viewer : Option Value) (config : Config)

/-- A live element of a template that has been pulled. -/
inductive LiveElement.Shows (host : Host W) : BoundElement W → LiveElement W → Prop
  | text (raw : String) : Shows host (.text raw) (.text raw)
  | chain {placeholder : BoundPlaceholder W} {steps : WatchChain W} {last : String}
      (pulled : Pulled host .initial steps.cells last)
      (program : cellProgram steps.cells = placeholder.program context viewer config) :
      Shows host (.placeholder placeholder) (.chain steps last)

/-- What pulling or asking an element leaves behind. -/
structure ElementOutcome (host : Host W) (bound : BoundElement W) (old : List FeedId)
    (outcome : LiveElement W × Host W) : Prop where
  shows : outcome.1.Shows context viewer config outcome.2 bound
  leaves : Host.Leaves old host outcome.2
  renews : host.Renews outcome.2 old outcome.1.feeds

/-- What pulling or asking the elements leaves behind. -/
structure ElementsOutcome (host : Host W) (bounds : List (BoundElement W)) (old : List FeedId)
    (outcome : List (LiveElement W) × Host W) : Prop where
  shows : List.Forall₂ (LiveElement.Shows context viewer config outcome.2) bounds outcome.1
  leaves : Host.Leaves old host outcome.2
  renews : host.Renews outcome.2 old (elementFeeds outcome.1)

variable {context viewer config}

theorem LiveElement.Shows.leaves {host after : Host W} {bound : BoundElement W}
    {element : LiveElement W} (shows : element.Shows context viewer config host bound)
    {touched : List FeedId} (kept : Host.Leaves touched host after)
    (apart : ∀ id ∈ element.feeds, id ∉ touched) :
    element.Shows context viewer config after bound := by
  cases shows with
  | text raw => exact .text raw
  | chain pulled program =>
    rw [feeds_chain] at apart
    exact .chain (pulled.leaves kept apart) program

theorem shows_leaves {host after : Host W} {bounds : List (BoundElement W)}
    {elements : List (LiveElement W)}
    (shows : List.Forall₂ (LiveElement.Shows context viewer config host) bounds elements)
    {touched : List FeedId} (kept : Host.Leaves touched host after)
    (apart : ∀ id ∈ elementFeeds elements, id ∉ touched) :
    List.Forall₂ (LiveElement.Shows context viewer config after) bounds elements := by
  induction shows with
  | nil => exact .nil
  | cons head _ ih =>
    rw [elementFeeds_cons] at apart
    exact .cons (head.leaves kept fun id member => apart id (List.mem_append_left _ member))
      (ih fun id member => apart id (List.mem_append_right _ member))

/-! ## Pulling and asking one element -/

/-- The first pull of an element. -/
theorem LiveElement.pull_ofBound (context : Value) (viewer : Option Value) (config : Config)
    (host : Host W) (bound : BoundElement W) :
    ElementOutcome context viewer config host bound []
      ((ofBound context viewer config bound).pull host) := by
  cases bound with
  | text raw => exact ⟨.text raw, .refl _ _, Host.Owns.renews (Host.owns_nil _)⟩
  | placeholder placeholder =>
    have blank := isBlank_ofInstruction (placeholder.program context viewer config)
    have outcome := pullCells_of_blank host .initial blank
    have renews := outcome.renews
    rw [cellFeeds_of_blank blank] at renews
    have program := outcome.program
    rw [cellProgram_ofInstruction] at program
    exact ⟨.chain outcome.pulled program, outcome.leaves, renews⟩

/-- Asking an element for a change leaves it with a text of tracked slots, whether or not
a signal was waiting and whatever hooks report. -/
theorem LiveElement.Shows.refresh {host : Host W} {bound : BoundElement W}
    {element : LiveElement W} (shows : element.Shows context viewer config host bound)
    (owns : host.Owns element.feeds) :
    ElementOutcome context viewer config host bound element.feeds (element.refresh host).2 := by
  cases shows with
  | text raw => exact ⟨.text raw, .refl _ _, Host.Owns.renews (Host.owns_nil _)⟩
  | @chain placeholder steps last pulled program =>
    rw [feeds_chain] at owns ⊢
    have asked := pulled.changedCells owns 0
    have kept := (owns.sublist asked.feeds).grow asked.leaves.size
    have left : host.Renews _ _ _ := ⟨kept, fun id member => .inl (asked.feeds.subset member)⟩
    rw [refresh_chain]
    rcases asked.slots with ⟨pending, stands⟩ | ⟨changed, resumable⟩
    · simp only [pending, if_true]
      exact ⟨.chain stands (asked.program.trans program), asked.leaves, left⟩
    · have again := resumable.pullCells kept
      simp only [changed, if_false]
      exact ⟨.chain again.pulled (again.program.trans (asked.program.trans program)),
        asked.leaves.trans (again.leaves.mono (List.nil_subset _)),
        left.trans again.renews asked.leaves.size⟩

/-! ## All elements -/

theorem pullElements_ofBound (context : Value) (viewer : Option Value) (config : Config)
    (host : Host W) (bounds : List (BoundElement W)) :
    ElementsOutcome context viewer config host bounds []
      (RenderStream.pullElements host
        (bounds.map (LiveElement.ofBound context viewer config))) := by
  induction bounds generalizing host with
  | nil => exact ⟨.nil, .refl _ _, Host.Owns.renews (Host.owns_nil _)⟩
  | cons bound rest ih =>
    have head := LiveElement.pull_ofBound context viewer config host bound
    have tail := ih ((LiveElement.ofBound context viewer config bound).pull host).2
    rw [List.map_cons, RenderStream.pullElements]
    refine ⟨.cons (head.shows.leaves tail.leaves (by simp)) tail.shows,
      head.leaves.trans tail.leaves, ?_⟩
    rw [elementFeeds_cons]
    exact head.renews.append tail.renews host.owns_nil head.leaves.size tail.leaves.size

/-- Asking the elements in order renews those that have been asked and leaves the others
as they are. -/
theorem refreshElements_shows {host : Host W} {bounds : List (BoundElement W)}
    {elements : List (LiveElement W)}
    (shows : List.Forall₂ (LiveElement.Shows context viewer config host) bounds elements)
    (owns : host.Owns (elementFeeds elements)) :
    ElementsOutcome context viewer config host bounds (elementFeeds elements)
      (RenderStream.refreshElements host elements).2 := by
  induction elements generalizing host bounds with
  | nil =>
    cases shows
    exact ⟨.nil, .refl _ _, owns.renews⟩
  | cons element rest ih =>
    cases shows with
    | @cons bound _ others _ headShows restShows =>
      rw [elementFeeds_cons] at owns ⊢
      have head := headShows.refresh owns.left
      have apart := owns.apart
      have restKept := shows_leaves restShows head.leaves apart
      have ownsRest := owns.right.grow head.leaves.size
      have size := head.leaves.size
      have left := head.leaves.mono (List.subset_append_left element.feeds (elementFeeds rest))
      rw [RenderStream.refreshElements]
      rcases asked : element.refresh host with ⟨_ | _, later, after⟩
      · rw [asked] at head restKept ownsRest size left
        have tail := ih restKept ownsRest
        have headApart : ∀ id ∈ later.feeds, id ∉ elementFeeds rest := by
          intro id held member
          rcases head.renews.origin id held with old | new
          · exact apart id member old
          · exact Nat.not_le_of_lt (owns.right.known id member) new
        refine ⟨.cons (head.shows.leaves tail.leaves headApart) tail.shows,
          left.trans (tail.leaves.mono (List.subset_append_right _ _)), ?_⟩
        rw [elementFeeds_cons]
        exact head.renews.append tail.renews owns size tail.leaves.size
      · rw [asked] at head restKept ownsRest size left
        refine ⟨.cons head.shows restKept, left, ?_⟩
        rw [elementFeeds_cons]
        exact head.renews.append ownsRest.renews owns size (Nat.le_refl _)

theorem refreshElements_current {host : Host W} {elements : List (LiveElement W)}
    (pending : (RenderStream.refreshElements host elements).1 = false) :
    RenderStream.current (RenderStream.refreshElements host elements).2.1 =
      RenderStream.current elements := by
  induction elements generalizing host with
  | nil => rfl
  | cons element rest ih =>
    have same := @LiveElement.refresh_current _ host element
    rw [RenderStream.refreshElements] at pending ⊢
    rcases asked : element.refresh host with ⟨_ | _, later, after⟩
    · rw [asked] at pending same
      have others := ih pending
      simp only [RenderStream.current, List.map_cons, String.join_cons] at others ⊢
      rw [same rfl, others]
    · rw [asked] at pending
      cases pending

theorem shows_evolves {host after : Host W} {bounds : List (BoundElement W)}
    {elements : List (LiveElement W)}
    (shows : List.Forall₂ (LiveElement.Shows context viewer config host) bounds elements)
    (moved : host.Evolves after)
    (steady : ∀ placeholder, .placeholder placeholder ∈ bounds →
      ∀ instruction ∈ placeholder.program context viewer config, instruction.step.IsSteady) :
    List.Forall₂ (LiveElement.Shows context viewer config after) bounds elements := by
  induction shows with
  | nil => exact .nil
  | cons head _ ih =>
    refine .cons ?_
      (ih fun placeholder member => steady placeholder (List.mem_cons_of_mem _ member))
    cases head with
    | text raw => exact .text raw
    | @chain placeholder steps last pulled program =>
      refine .chain (pulled.evolves moved ?_) program
      rw [program]
      exact steady placeholder (by simp)

/-- While no signal is waiting, the texts of the elements are those of rendering once. -/
theorem shows_current_eq {host now : Host W} {bounds : List (BoundElement W)}
    {elements : List (LiveElement W)}
    (shows : List.Forall₂ (LiveElement.Shows context viewer config host) bounds elements)
    (quiet : ∀ id ∈ elementFeeds elements, host.IsQuiet id) (same : now.state = host.state) :
    RenderStream.current elements =
      (BoundTemplate.renderElements context viewer config now bounds).1 := by
  induction shows generalizing now with
  | nil => rfl
  | @cons bound element bounds others head _ ih =>
    rw [elementFeeds_cons] at quiet
    have headQuiet : ∀ id ∈ element.feeds, host.IsQuiet id :=
      fun id member => quiet id (List.mem_append_left _ member)
    have restQuiet : ∀ id ∈ elementFeeds others, host.IsQuiet id :=
      fun id member => quiet id (List.mem_append_right _ member)
    have text : element.current = (bound.renderOnce context viewer config now).1 := by
      cases head with
      | text raw => rfl
      | @chain placeholder steps last pulled program =>
        have still : ∀ cell ∈ steps.cells, ¬ cell.Signalled host := by
          rintro cell inside ⟨id, feed, held, found, live, waiting⟩
          have none := headQuiet id (mem_cellFeeds.mpr ⟨cell, inside, held⟩) feed found live
          omega
        have shown := pulled.text_eq still same
        rw [program] at shown
        exact shown
    have later := ih restQuiet ((bound.renderOnce_state context viewer config now).trans same)
    simp only [RenderStream.current] at later
    simp only [RenderStream.current, List.map_cons, String.join_cons, BoundTemplate.renderElements]
    rw [text, later]

end Elements

/-! ## Runs -/

/-- The text that a stream has given, if it has given one. -/
def Next.text? : Next → Option String
  | .text shown => some shown
  | _ => none

namespace RenderStream

variable (template : BoundTemplate W) (context : Value) (viewer : Option Value) (config : Config)

/-- The states that a stream of a template can come to, with the host and the text given
last, if any: between the polls the world may move and anybody may cancel or close. -/
inductive Run (start : Host W) : RenderStream W → Host W → Option String → Prop
  | opened : Run start (ofBound template context viewer config) start none
  | moved {stream : RenderStream W} {host after : Host W} {last : Option String}
      (run : Run start stream host last) (evolves : host.Evolves after) :
      Run start stream after last
  | polled {stream : RenderStream W} {host : Host W} {last : Option String}
      (run : Run start stream host last) :
      Run start (stream.next host).2.1 (stream.next host).2.2 ((stream.next host).1.text?.or last)
  | cancelled {stream : RenderStream W} {host : Host W} {last : Option String}
      (run : Run start stream host last) : Run start stream.cancel host last
  | closed {stream : RenderStream W} {host : Host W} {last : Option String}
      (run : Run start stream host last) :
      Run start (stream.close host).2.1 (stream.close host).2.2 last

/-- What every run keeps: before the first text nothing is computed; from then on each
element shows the text of tracked slots, and these texts are the ones given last. -/
inductive Consistent : RenderStream W → Host W → Option String → Prop
  | ended {stream : RenderStream W} {host : Host W} {last : Option String}
      (closed : stream.closed = true) : Consistent stream host last
  | waiting {stream : RenderStream W} {host : Host W} (started : stream.started = false)
      (elements : stream.elements =
        template.elements.map (LiveElement.ofBound context viewer config)) :
      Consistent stream host none
  | running {stream : RenderStream W} {host : Host W} (started : stream.started = true)
      (shows : List.Forall₂ (LiveElement.Shows context viewer config host) template.elements
        stream.elements)
      (owns : host.Owns (elementFeeds stream.elements)) :
      Consistent stream host (some (current stream.elements))

variable {template context viewer config}

theorem close_closed (stream : RenderStream W) (host : Host W) :
    (stream.close host).2.1.closed = true := by
  unfold close
  split
  · assumption
  · rfl

theorem running_of_elements {stream : RenderStream W} {elements : List (LiveElement W)}
    {host : Host W}
    (shows : List.Forall₂ (LiveElement.Shows context viewer config host) template.elements elements)
    (owns : host.Owns (elementFeeds elements)) :
    Consistent template context viewer config
      { stream with elements := elements, started := true } host (some (current elements)) :=
  @Consistent.running _ _ _ _ _ { stream with elements := elements, started := true } host rfl
    shows owns

theorem Consistent.moved {stream : RenderStream W} {host after : Host W} {last : Option String}
    (consistent : Consistent template context viewer config stream host last)
    (steady : template.IsSteady) (evolves : host.Evolves after) :
    Consistent template context viewer config stream after last := by
  cases consistent with
  | ended closed => exact .ended closed
  | waiting started elements => exact .waiting started elements
  | running started shows owns =>
    have still := shows_evolves shows evolves fun placeholder inside =>
      steady.program inside context viewer config
    exact .running started still (owns.grow evolves.size)

theorem Consistent.polled {stream : RenderStream W} {host : Host W} {last : Option String}
    (consistent : Consistent template context viewer config stream host last) :
    Consistent template context viewer config (stream.next host).2.1 (stream.next host).2.2
      ((stream.next host).1.text?.or last) := by
  unfold next
  split
  · rename_i closed
    exact .ended closed
  · split
    · exact .ended (close_closed stream host)
    · cases consistent with
      | ended closed => contradiction
      | waiting started elements =>
        have outcome := pullElements_ofBound context viewer config host template.elements
        simp only [started, elements, Bool.false_eq_true, if_false]
        exact running_of_elements outcome.shows outcome.renews.owns
      | running started shows owns =>
        have outcome := refreshElements_shows shows owns
        have same := @refreshElements_current _ host stream.elements
        simp only [started, if_true]
        rcases asked : refreshElements host stream.elements with ⟨_ | _, elements, after⟩
        · rw [asked] at outcome same
          rw [← same rfl]
          exact running_of_elements outcome.shows outcome.renews.owns
        · rw [asked] at outcome
          exact running_of_elements outcome.shows outcome.renews.owns

theorem Run.consistent {start : Host W} {stream : RenderStream W} {host : Host W}
    {last : Option String} (steady : template.IsSteady)
    (run : Run template context viewer config start stream host last) :
    Consistent template context viewer config stream host last := by
  induction run with
  | opened => exact .waiting rfl rfl
  | moved _ evolves ih => exact ih.moved steady evolves
  | polled _ ih => exact ih.polled
  | cancelled _ ih =>
    cases ih with
    | ended closed => exact .ended closed
    | waiting started elements => exact .waiting started elements
    | running started shows owns => exact .running started shows owns
  | closed _ _ => exact .ended (close_closed _ _)

/-- Whether no signal is waiting in a live feed that the stream holds. -/
def IsQuiet (stream : RenderStream W) (host : Host W) : Prop :=
  ∀ id ∈ elementFeeds stream.elements, host.IsQuiet id

/-- No update is lost. In every run of a stream that is not closed, once a text has been
given and no signal is waiting, the text given last is that of rendering the template once
in the present state of the world. -/
theorem last_eq_renderOnce {start : Host W} {stream : RenderStream W} {host : Host W}
    {last : String} (steady : template.IsSteady)
    (run : Run template context viewer config start stream host (some last))
    (isOpen : stream.closed = false) (quiet : stream.IsQuiet host) :
    last = (template.renderOnce context viewer config host).1 := by
  cases run.consistent steady with
  | ended closed =>
    rw [isOpen] at closed
    cases closed
  | running _ shows _ => exact shows_current_eq shows quiet rfl

/-! The time that a clock shows is the outside state. -/

def clockTime : Mapping String where
  name := ⟨["clock"]⟩
  source := "context"
  target := "text"
  map state _ _ := some (.text state)
  watch := some fun _ _ _ => ⟨none, 0, false, none⟩

def clockText : Display String where
  kind := "text"
  render _ value _ := value.asText?.getD ""

def clock : BoundTemplate String where
  elements := [.text "now ", .placeholder ⟨"clock", [⟨.cons clockTime .nil .nil, clockText⟩]⟩]

theorem clock_isSteady : clock.IsSteady where
  mappings := by
    intro mapping member same
    obtain rfl : mapping = clockTime := by
      simpa [BoundTemplate.mappings, BoundTemplate.choices, BoundElement.choices, clock,
        Route.mappings, Bindings.mappings] using member
    cases same
  displays := by
    intro display member
    obtain rfl : display = clockText := by
      simpa [BoundTemplate.displays, BoundTemplate.choices, BoundElement.choices, clock]
        using member
    intro before after value viewer
    rfl

/-- The stream has shown one, the clock has moved on, and the stream has shown two. -/
theorem last_eq_renderOnce_clock :
    let opened := ofBound clock (.context []) none {}
    let shown := (opened.next { state := "1" }).2
    let struck := shown.2.announce "2"
    let again := (shown.1.next struck).2
    "now 2" = (clock.renderOnce (.context []) none {} again.2).1 := by
  intro opened shown struck again
  have first : Run clock (.context []) none {} { state := "1" } shown.1 shown.2 (some "now 1") :=
    .polled .opened
  have moves : shown.2.Evolves struck := by
    refine Host.evolves_announce ?_ "2"
    rw [show shown.2.feeds = [⟨⟨none, 0, false, none⟩, false⟩] from rfl]
    simp
  have second : Run clock (.context []) none {} { state := "1" } again.1 again.2 (some "now 2") :=
    .polled (.moved first moves)
  refine last_eq_renderOnce clock_isSteady second rfl fun id member feed found _ => ?_
  obtain rfl : id = 1 := by
    rw [show elementFeeds again.1.elements = [1] from rfl] at member
    simpa using member
  have held : again.2.feed? 1 = some ⟨⟨none, 0, false, none⟩, false⟩ := rfl
  rw [held] at found
  cases found
  rfl

end RenderStream

end TypedTemplate
