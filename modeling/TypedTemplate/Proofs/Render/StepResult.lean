import TypedTemplate.Proofs.Host
import TypedTemplate.Render.Once

/-!
What a step leaves behind depends on its input slot and on the outside state alone, not
on earlier calls and not on whether results are watched (`Step.run_slot`). Of the steps
only mutable mappings may give another slot in another outside state, provided that
displays and the other mappings do not look at it (`Step.result_cases`).
-/
namespace TypedTemplate

variable {W : Type}

/-- Whether the result stays the same in every outside state. -/
def Mapping.IsSteady (mapping : Mapping W) : Prop :=
  ∀ world later receiver args, mapping.map later receiver args = mapping.map world receiver args

/-- Whether the text stays the same in every outside state. -/
def Display.IsSteady (display : Display W) : Prop :=
  ∀ world later value viewer, display.render later value viewer = display.render world value viewer

namespace Step

/-- The slot that a step leaves, in a certain outside state. -/
def result (world : W) (input : Slot) (step : Step W) : Slot :=
  (step.run false ⟨world, [], []⟩ input).slot

/-- Whether the step calls only functions that are steady or can be watched. -/
def IsSteady : Step W → Prop
  | map mapping => mapping.isMutable = false → mapping.IsSteady
  | display shown _ _ => shown.IsSteady
  | _ => True

/-- Whether the step applies this mapping to this receiver. -/
def Applies (mapping : Mapping W) (receiver : Value) (args : Arguments) (input : Slot)
    (step : Step W) : Prop :=
  step = .map mapping ∧ ∃ rest, input.stack = ⟨some receiver, args⟩ :: rest

/-! ## Slots -/

theorem applyTop_frame (watch : Bool) (host : Host W) (mapping : Mapping W) (top : Frame) :
    (applyTop watch host mapping top).1 =
      ⟨top.receiver.bind fun receiver => mapping.map host.state receiver top.args, []⟩ := by
  unfold applyTop
  cases top.receiver with
  | none => rfl
  | some receiver =>
    cases watch with
    | false => rfl
    | true =>
      have kept := host.leaves_subscribe mapping receiver top.args
      simp [Host.apply, kept.state]

theorem run_slot (watch : Bool) (host : Host W) (input : Slot) (step : Step W) :
    (step.run watch host input).slot = step.result host.state input := by
  cases step with
  | map mapping =>
    unfold result run
    cases input.stack with
    | nil => rfl
    | cons top rest => simp only [applyTop_frame]
  | collect count =>
    unfold result run
    cases input.stack <;> rfl
  | pop alternative =>
    unfold result run
    rcases input.stack with _ | ⟨top, _ | ⟨parent, rest⟩⟩ <;> rfl
  | display shown viewer marker =>
    unfold result run
    cases input.stack.getLast?.bind Frame.receiver <;> rfl
  | _ => rfl

/-- A steady step leaves the same slot in another outside state, unless it applies a
mutable mapping to a receiver for which the result has changed. -/
theorem result_cases {step : Step W} (steady : step.IsSteady) (input : Slot) (world later : W) :
    step.result later input = step.result world input ∨
      ∃ mapping receiver args, step.Applies mapping receiver args input ∧
        mapping.isMutable = true ∧
        mapping.map later receiver args ≠ mapping.map world receiver args := by
  cases step with
  | map mapping =>
    cases stack : input.stack with
    | nil => exact .inl (by simp [result, run, stack])
    | cons top rest =>
      obtain ⟨receiver, args⟩ := top
      cases receiver with
      | none => exact .inl (by simp [result, run, stack, applyTop_frame])
      | some receiver =>
        by_cases same : mapping.map later receiver args = mapping.map world receiver args
        · exact .inl (by simp [result, run, stack, applyTop_frame, same])
        · refine .inr ⟨mapping, receiver, args, ⟨rfl, rest, stack⟩, ?_, same⟩
          cases mutable : mapping.isMutable with
          | true => rfl
          | false => exact absurd (steady mutable world later receiver args) same
  | display shown viewer marker =>
    have text : ∀ value, shown.render later value viewer = shown.render world value viewer :=
      fun value => steady world later value viewer
    left
    unfold result run
    cases input.stack.getLast?.bind Frame.receiver with
    | none => rfl
    | some value => simp only [Host.render, text]
  | collect count =>
    left
    unfold result run
    cases input.stack <;> rfl
  | pop alternative =>
    left
    unfold result run
    rcases input.stack with _ | ⟨top, _ | ⟨parent, rest⟩⟩ <;> rfl
  | _ => exact .inl rfl

/-! ## Hosts and feeds -/

/-- Applying a mapping touches no feed that exists, and starts one only if it watches a
mutable mapping that has a receiver. -/
theorem applyTop_host (watch : Bool) (host : Host W) (mapping : Mapping W) (top : Frame) :
    Host.Leaves [] host (applyTop watch host mapping top).2.2 := by
  unfold applyTop
  cases top.receiver with
  | none => exact Host.Leaves.refl _ _
  | some receiver =>
    cases watch with
    | false => exact host.leaves_apply mapping receiver top.args
    | true =>
      exact (host.leaves_subscribe mapping receiver top.args).trans (Host.leaves_apply _ _ _ _)

theorem run_host (watch : Bool) (host : Host W) (input : Slot) (step : Step W) :
    Host.Leaves [] host (step.run watch host input).host := by
  cases step with
  | map mapping =>
    unfold run
    cases input.stack with
    | nil => exact Host.Leaves.refl _ _
    | cons top rest => exact applyTop_host watch host mapping top
  | collect count =>
    unfold run
    cases input.stack <;> exact Host.Leaves.refl _ _
  | pop alternative =>
    unfold run
    rcases input.stack with _ | ⟨top, _ | ⟨parent, rest⟩⟩ <;> exact Host.Leaves.refl _ _
  | display shown viewer marker =>
    unfold run
    cases input.stack.getLast?.bind Frame.receiver with
    | none => exact Host.Leaves.refl _ _
    | some value => exact host.leaves_render shown value viewer
  | _ => exact Host.Leaves.refl _ _

/-- A feed that a step has started is new. -/
theorem run_feed {host : Host W} {input : Slot} {step : Step W} {id : FeedId}
    (started : (step.run true host input).feed = some id) :
    id = host.feeds.length ∧ id < (step.run true host input).host.feeds.length := by
  cases step with
  | map mapping =>
    unfold run at started ⊢
    cases stack : input.stack with
    | nil => simp [stack] at started
    | cons top rest =>
      simp only [stack] at started ⊢
      unfold applyTop at started ⊢
      cases receiver : top.receiver with
      | none => simp [receiver] at started
      | some value =>
        cases watching : mapping.watch with
        | none => simp [receiver, Host.subscribe, watching] at started
        | some watch =>
          simp only [receiver, Host.subscribe, watching, Host.listen, Host.apply, Host.note,
            if_true, Option.some.injEq] at started ⊢
          subst started
          exact ⟨rfl, by simp⟩
  | collect count =>
    unfold run at started
    cases stack : input.stack <;> simp [stack] at started
  | pop alternative =>
    unfold run at started
    rcases stack : input.stack with _ | ⟨top, _ | ⟨parent, rest⟩⟩ <;> simp [stack] at started
  | display shown viewer marker =>
    unfold run at started
    cases value : input.stack.getLast?.bind Frame.receiver <;> simp [value] at started
  | _ => simp [run] at started

/-- A step that applies a mutable mapping subscribes to it with the same inputs. -/
theorem run_subscribes {host : Host W} {input : Slot} {step : Step W} {mapping : Mapping W}
    {receiver : Value} {args : Arguments} (applied : step.Applies mapping receiver args input)
    (mutable : mapping.isMutable = true) :
    ∃ id feed, (step.run true host input).feed = some id ∧
      .subscribe mapping receiver args id ∈ (step.run true host input).host.calls ∧
      (step.run true host input).host.feed? id = some feed ∧ feed.cancelled = false := by
  obtain ⟨rfl, rest, stack⟩ := applied
  obtain ⟨watch, watching⟩ := Option.isSome_iff_exists.mp mutable
  refine ⟨host.feeds.length, { toSubscription := watch host.state receiver args }, ?_⟩
  simp [run, stack, applyTop, Host.subscribe, watching, Host.listen, Host.apply, Host.note,
    Host.feed?]

end Step

end TypedTemplate
