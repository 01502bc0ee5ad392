import TypedTemplate.Proofs.Render.Evaluation

/-!
Programs keep the meaning of plans. The steps of a route, taken on a frame with a
receiver, leave the value of the route in its place; the steps of an argument add
its value to the arguments of the frame. Where nothing is to be evaluated, because
the receiver is missing or an earlier route has given the value, the steps are still
taken but call nothing and leave the frame balanced.
-/
namespace TypedTemplate

variable {W : Type}

namespace Host

/-- The host after some more calls. -/
def noteAll (host : Host W) (calls : List (HostCall W)) : Host W :=
  { host with calls := host.calls ++ calls }

@[simp] theorem noteAll_nil (host : Host W) : host.noteAll [] = host := by
  simp [noteAll]

@[simp] theorem noteAll_state (host : Host W) (calls : List (HostCall W)) :
    (host.noteAll calls).state = host.state := rfl

@[simp] theorem noteAll_noteAll (host : Host W) (first next : List (HostCall W)) :
    (host.noteAll first).noteAll next = host.noteAll (first ++ next) := by
  simp [noteAll]

theorem note_eq_noteAll (host : Host W) (call : HostCall W) :
    host.note call = host.noteAll [call] := rfl

end Host

namespace Answer

variable {α : Type}

theorem orElse_of_some {first next : Answer W (Option α)} {value : α}
    (h : first.value = some value) : first.orElse next = first := by
  rw [orElse, h]

theorem orElse_of_none {first next : Answer W (Option α)} (h : first.value = none) :
    first.orElse next = ⟨next.value, first.calls ++ next.calls⟩ := by
  rw [orElse, h]

end Answer

/-! ## Taking steps one after another -/

/-- What is left after some steps: the slot and the host. -/
def takeSteps (host : Host W) (slot : Slot) : List (Step W) → Slot × Host W
  | [] => (slot, host)
  | step :: rest =>
    let ran := step.run false host slot
    takeSteps ran.host ran.slot rest

@[simp] theorem takeSteps_nil (host : Host W) (slot : Slot) :
    takeSteps host slot [] = (slot, host) := rfl

theorem takeSteps_cons (host : Host W) (slot : Slot) (step : Step W) (rest : List (Step W)) :
    takeSteps host slot (step :: rest) =
      takeSteps (step.run false host slot).host (step.run false host slot).slot rest := rfl

theorem takeSteps_append (first next : List (Step W)) (host : Host W) (slot : Slot) :
    takeSteps host slot (first ++ next) =
      takeSteps (takeSteps host slot first).2 (takeSteps host slot first).1 next := by
  induction first generalizing host slot with
  | nil => rfl
  | cons step rest ih =>
    rw [List.cons_append, takeSteps_cons, takeSteps_cons]
    exact ih _ _

/-- Inside an arm a program takes its steps without stopping. -/
theorem runOnce_plain (steps : List (Step W)) (rest : List (Instruction W)) (host : Host W)
    (slot : Slot) :
    runOnce host slot (steps.map Instruction.plain ++ rest) =
      runOnce (takeSteps host slot steps).2 (takeSteps host slot steps).1 rest := by
  induction steps generalizing host slot with
  | nil => rfl
  | cons step others ih =>
    rw [List.map_cons, List.cons_append, takeSteps_cons, ← ih]
    simp [runOnce, Instruction.plain, Instruction.stopsAt]

/-! ## What the steps do to the innermost frame -/

section Frames

variable (host : Host W) (receiver : Option Value) (args : Arguments) (stack : List Frame)

theorem take_const (value : Value) (rest : List (Step W)) :
    takeSteps host (.frames (⟨receiver, args⟩ :: stack)) (.const value :: rest) =
      takeSteps host (.frames (⟨receiver, args ++ [some value]⟩ :: stack)) rest := rfl

theorem take_unset (rest : List (Step W)) :
    takeSteps host (.frames (⟨receiver, args⟩ :: stack)) (.unset :: rest) =
      takeSteps host (.frames (⟨receiver, args ++ [none]⟩ :: stack)) rest := rfl

theorem take_collect (values : Arguments) (rest : List (Step W)) :
    takeSteps host (.frames (⟨receiver, args ++ values⟩ :: stack))
        (.collect values.length :: rest) =
      takeSteps host
        (.frames (⟨receiver, args ++ [some (.list (values.filterMap id))]⟩ :: stack)) rest := by
  simp [takeSteps_cons, Step.run, Slot.stack, Step.collectArgs]

theorem take_map_none (mapping : Mapping W) (rest : List (Step W)) :
    takeSteps host (.frames (⟨none, args⟩ :: stack)) (.map mapping :: rest) =
      takeSteps host (.frames (⟨none, []⟩ :: stack)) rest := rfl

theorem take_map_some (mapping : Mapping W) (value : Value) (rest : List (Step W)) :
    takeSteps host (.frames (⟨some value, args⟩ :: stack)) (.map mapping :: rest) =
      takeSteps (host.noteAll [.map mapping value args])
        (.frames (⟨mapping.map host.state value args, []⟩ :: stack)) rest := rfl

theorem take_push (context : Value) (alternative : Bool) (rest : List (Step W)) :
    takeSteps host (.frames stack) (.push context alternative :: rest) =
      takeSteps host
        (.frames (⟨if Step.skips alternative stack then none else some context, []⟩ :: stack))
        rest := rfl

theorem take_pop (alternative : Bool) (value : Option Value) (parent : Frame)
    (rest : List (Step W)) :
    takeSteps host (.frames (⟨value, args⟩ :: parent :: stack)) (.pop alternative :: rest) =
      takeSteps host (.frames (Step.passOn alternative value parent :: stack)) rest := rfl

end Frames

theorem fillLast_append_none (value : Option Value) (args : Arguments) :
    Step.fillLast value (args ++ [none]) = args ++ [value] := by
  simp [Step.fillLast]

theorem fillLast_append_some (value : Option Value) (args : Arguments) (given : Value) :
    Step.fillLast value (args ++ [some given]) = args ++ [some given] := by
  simp [Step.fillLast]

/-- An alternative whose route was skipped leaves the arguments as they are. -/
theorem fillLast_none (args : Arguments) (last : Option Value) :
    Step.fillLast none (args ++ [last]) = args ++ [last] := by
  cases last with
  | none => exact fillLast_append_none none args
  | some given => exact fillLast_append_some none args given

/-! ## Skipped steps -/

mutual

/-- Without a receiver the steps of a route leave everything as it is. -/
theorem Route.takeSteps_skipped (context : Value) (host : Host W) (stack : List Frame) :
    ∀ route : Route W,
      takeSteps host (.frames (⟨none, []⟩ :: stack)) (route.steps context) =
        (.frames (⟨none, []⟩ :: stack), host)
  | .nil => rfl
  | .cons mapping args rest => by
    obtain ⟨values, -, skipped⟩ := args.takeSteps_skipped context host [] stack
    rw [Route.steps, takeSteps_append, skipped, List.nil_append, take_map_none]
    exact rest.takeSteps_skipped context host stack

/-- Without a receiver the steps of the arguments add one entry each and call nothing. -/
theorem Bindings.takeSteps_skipped (context : Value) (host : Host W) (args : Arguments)
    (stack : List Frame) :
    ∀ bindings : Bindings W, ∃ values : Arguments, values.length = bindings.length ∧
      takeSteps host (.frames (⟨none, args⟩ :: stack)) (bindings.steps context) =
        (.frames (⟨none, args ++ values⟩ :: stack), host)
  | .nil => ⟨[], rfl, by simp [Bindings.steps]⟩
  | .cons first rest => by
    obtain ⟨value, taken⟩ := first.takeSteps_skipped context host args stack
    obtain ⟨values, size, others⟩ := rest.takeSteps_skipped context host (args ++ [value]) stack
    refine ⟨value :: values, by simp [size, Bindings.length], ?_⟩
    rw [Bindings.steps, takeSteps_append, taken, others, List.append_assoc, List.singleton_append]

theorem Binding.takeSteps_skipped (context : Value) (host : Host W) (args : Arguments)
    (stack : List Frame) :
    ∀ binding : Binding W, ∃ value : Option Value,
      takeSteps host (.frames (⟨none, args⟩ :: stack)) (binding.steps context) =
        (.frames (⟨none, args ++ [value]⟩ :: stack), host)
  | .unset => ⟨none, rfl⟩
  | .constant value => ⟨some value, rfl⟩
  | .firstOf route others => by
    refine ⟨none, ?_⟩
    have first := route.takeSteps_skipped context host (⟨none, args⟩ :: stack)
    rw [Binding.steps, List.cons_append, take_push, Step.skips, Option.isNone_none, Bool.true_or,
      if_pos rfl, takeSteps_append, first, take_pop]
    exact others.takeSteps_skipped context host none args none stack (.inl rfl)
  | .collected items => by
    obtain ⟨values, size, taken⟩ := items.takeSteps_skipped context host args stack
    refine ⟨some (.list (values.filterMap id)), ?_⟩
    rw [Binding.steps, takeSteps_append, taken, ← size, take_collect, takeSteps_nil]

/-- Alternatives are skipped without a receiver and behind a route that gave a value. -/
theorem Routes.takeSteps_skipped (context : Value) (host : Host W) (receiver : Option Value)
    (args : Arguments) (last : Option Value) (stack : List Frame)
    (skip : receiver = none ∨ ∃ value, last = some value) :
    ∀ routes : Routes W,
      takeSteps host (.frames (⟨receiver, args ++ [last]⟩ :: stack)) (routes.steps context) =
        (.frames (⟨receiver, args ++ [last]⟩ :: stack), host)
  | .nil => rfl
  | .cons first rest => by
    have skips : Step.skips true (⟨receiver, args ++ [last]⟩ :: stack) = true := by
      rcases skip with rfl | ⟨value, rfl⟩
      · rfl
      · simp [Step.skips]
    have inner := first.takeSteps_skipped context host (⟨receiver, args ++ [last]⟩ :: stack)
    rw [Routes.steps, List.cons_append, take_push, skips, if_pos rfl, takeSteps_append, inner,
      take_pop, Step.passOn, if_pos rfl, fillLast_none]
    exact rest.takeSteps_skipped context host receiver args last stack skip

end

/-! ## Steps that are not skipped -/

theorem Bindings.length_evaluate (world : W) (context : Value) :
    ∀ bindings : Bindings W, (bindings.evaluate world context).value.length = bindings.length
  | .nil => rfl
  | .cons _ rest => congrArg (· + 1) (rest.length_evaluate world context)

mutual

/-- The steps of a route put its value in the place of the receiver. -/
theorem Route.takeSteps_eq (context : Value) (stack : List Frame) :
    ∀ (route : Route W) (host : Host W) (receiver : Option Value),
      takeSteps host (.frames (⟨receiver, []⟩ :: stack)) (route.steps context) =
        (.frames (⟨(route.evaluate host.state context receiver).value, []⟩ :: stack),
          host.noteAll (route.evaluate host.state context receiver).calls)
  | route, host, none => by
    rw [route.takeSteps_skipped context host stack]
    simp [Route.evaluate, Answer.quiet]
  | .nil, host, some value => by
    simp [Route.steps, Route.evaluate, Answer.quiet]
  | .cons mapping args rest, host, some value => by
    have given := args.takeSteps_eq context value stack host []
    rw [Route.steps, takeSteps_append, given, List.nil_append, take_map_some,
      rest.takeSteps_eq context stack]
    simp [Route.evaluate]

/-- The steps of the arguments add their values to the frame of the mapping. -/
theorem Bindings.takeSteps_eq (context receiver : Value) (stack : List Frame) :
    ∀ (bindings : Bindings W) (host : Host W) (args : Arguments),
      takeSteps host (.frames (⟨some receiver, args⟩ :: stack)) (bindings.steps context) =
        (.frames (⟨some receiver, args ++ (bindings.evaluate host.state context).value⟩ :: stack),
          host.noteAll (bindings.evaluate host.state context).calls)
  | .nil, host, args => by
    simp [Bindings.steps, Bindings.evaluate, Answer.quiet]
  | .cons first rest, host, args => by
    rw [Bindings.steps, takeSteps_append, first.takeSteps_eq context receiver stack,
      rest.takeSteps_eq context receiver stack]
    simp [Bindings.evaluate]

/-- The steps of an argument add exactly its value to the frame of the mapping. -/
theorem Binding.takeSteps_eq (context receiver : Value) (stack : List Frame) :
    ∀ (binding : Binding W) (host : Host W) (args : Arguments),
      takeSteps host (.frames (⟨some receiver, args⟩ :: stack)) (binding.steps context) =
        (.frames (⟨some receiver, args ++ [(binding.evaluate host.state context).value]⟩ :: stack),
          host.noteAll (binding.evaluate host.state context).calls)
  | .unset, host, args => by
    simp [Binding.steps, take_unset, Binding.evaluate, Answer.quiet]
  | .constant value, host, args => by
    simp [Binding.steps, take_const, Binding.evaluate, Answer.quiet]
  | .firstOf route others, host, args => by
    have first := route.takeSteps_eq context (⟨some receiver, args⟩ :: stack) host (some context)
    rw [Binding.steps, List.cons_append, take_push, if_neg (by simp [Step.skips]),
      takeSteps_append, first, take_pop, Step.passOn, if_neg (by simp), Binding.evaluate]
    cases reached : (route.evaluate host.state context (some context)).value with
    | some value =>
      -- The route has given the value, so the others are skipped.
      rw [others.takeSteps_skipped context _ _ _ _ stack (.inr ⟨value, rfl⟩),
        Answer.orElse_of_some reached, reached]
    | none =>
      rw [others.takeSteps_eq context receiver stack, Answer.orElse_of_none reached]
      simp
  | .collected items, host, args => by
    have size := items.length_evaluate host.state context
    rw [Binding.steps, takeSteps_append, items.takeSteps_eq context receiver stack, ← size,
      take_collect, takeSteps_nil, Binding.evaluate]

/-- The steps of alternatives fill in the first value that one of them leads to. -/
theorem Routes.takeSteps_eq (context receiver : Value) (stack : List Frame) :
    ∀ (routes : Routes W) (host : Host W) (args : Arguments),
      takeSteps host (.frames (⟨some receiver, args ++ [none]⟩ :: stack)) (routes.steps context) =
        (.frames
          (⟨some receiver, args ++ [(routes.evaluateFirst host.state context).value]⟩ :: stack),
          host.noteAll (routes.evaluateFirst host.state context).calls)
  | .nil, host, args => by
    simp [Routes.steps, Routes.evaluateFirst, Answer.quiet]
  | .cons first rest, host, args => by
    have tried := first.takeSteps_eq context (⟨some receiver, args ++ [none]⟩ :: stack) host
      (some context)
    rw [Routes.steps, List.cons_append, take_push, if_neg (by simp [Step.skips]),
      takeSteps_append, tried, take_pop, Step.passOn, if_pos rfl, fillLast_append_none,
      Routes.evaluateFirst]
    cases reached : (first.evaluate host.state context (some context)).value with
    | some value =>
      rw [rest.takeSteps_skipped context _ _ _ _ stack (.inr ⟨value, rfl⟩),
        Answer.orElse_of_some reached, reached]
    | none =>
      rw [rest.takeSteps_eq context receiver stack, Answer.orElse_of_none reached]
      simp

end

/-! ## Arms and placeholders -/

section Arms

variable (context : Value) (viewer : Option Value) (config : Config)

/-- An arm ends the program with its text, or leaves it to what follows. -/
theorem Choice.runOnce_program (choice : Choice W) (rest : List (Instruction W)) (host : Host W)
    (slot : Slot) :
    runOnce host slot (choice.program context viewer config ++ rest) =
      (let answer := choice.evaluate host.state context viewer config
       match answer.value with
       | some text => (text, host.noteAll answer.calls)
       | none => runOnce (host.noteAll answer.calls) (.rendered none) rest) := by
  have route := choice.route.takeSteps_eq context [] host (some context)
  rw [Choice.program, List.append_assoc, runOnce_plain, takeSteps_cons]
  rw [show (Step.run false host slot (.begin context)).slot = .frames [⟨some context, []⟩] from rfl,
    show (Step.run false host slot (.begin context)).host = host from rfl, route]
  cases reached : (choice.route.evaluate host.state context (some context)).value with
  | none =>
    simp [runOnce, Instruction.last, Instruction.stopsAt, Step.run, Slot.stack, Slot.text?,
      Choice.evaluate, reached]
  | some value =>
    simp [runOnce, Instruction.last, Instruction.stopsAt, Step.run, Slot.stack, Slot.text?,
      Slot.textOrEmpty, Choice.evaluate, reached, Host.render, Host.note_eq_noteAll,
      Step.markInvalid]

theorem runOnce_choices (choices : List (Choice W)) (marker : String) (host : Host W)
    (slot : Slot) :
    runOnce host slot
        (choices.flatMap (fun choice => choice.program context viewer config)
          ++ [.plain (.fallback marker)]) =
      (let answer := evaluateChoices host.state context viewer config choices
       (answer.value.getD marker, host.noteAll answer.calls)) := by
  induction choices generalizing host slot with
  | nil => simp [runOnce, Instruction.plain, Instruction.stopsAt, Step.run, Slot.textOrEmpty,
      Slot.text?, evaluateChoices, Answer.quiet]
  | cons choice others ih =>
    rw [List.flatMap_cons, List.append_assoc, choice.runOnce_program, evaluateChoices]
    cases arm : (choice.evaluate host.state context viewer config).value with
    | some text =>
      rw [Answer.orElse_of_some arm]
      simp only [arm, Option.getD_some]
    | none =>
      rw [Answer.orElse_of_none arm]
      simp only [arm, ih, Host.noteAll_state, Host.noteAll_noteAll]

end Arms

/-- Rendering a placeholder once by its program gives the text of the plan, and makes
exactly the calls that the plan asks for, in the same order and with the same receivers
and arguments. Nothing else about the host changes, so nothing is subscribed to. -/
theorem BoundPlaceholder.runOnce_program_eq_evaluate (placeholder : BoundPlaceholder W)
    (context : Value) (viewer : Option Value) (config : Config) (host : Host W) :
    runOnce host .initial (placeholder.program context viewer config) =
      (let answer := placeholder.evaluate host.state context viewer config
       (answer.value, { host with calls := host.calls ++ answer.calls })) := by
  rw [BoundPlaceholder.program, runOnce_choices]
  cases choices : placeholder.choices with
  | nil => simp [BoundPlaceholder.evaluate, BoundPlaceholder.marker, choices, Host.noteAll]
  | cons choice others =>
    simp [BoundPlaceholder.evaluate, BoundPlaceholder.marker, choices, Host.noteAll]

end TypedTemplate
