import TypedTemplate.Proofs.Template.Places

/-!
Where the machine stands between the parts of an expression: where a call or a value can
begin, and what can follow a call or an argument. What has been read may be around it.
-/
namespace TypedTemplate

namespace Grammar

/-- Whether a word that starts here begins a call, around which this much has been read. -/
def State.Enters (start : Nat) (level : Level) (opened : List Open) (s : State) : Prop :=
  ∀ word span raw, span.start = start → ∃ mayLabel,
    s.advance ⟨.ident word, span, raw⟩ = some ⟨.named [word] span mayLabel, level, opened⟩

/-- Whether the machine stands behind a call that is finished unless a colon, an argument
list or an equals sign follows. -/
inductive State.IsBehind (level : Level) (opened : List Open) : State → Prop
  | called : IsBehind level opened ⟨.called, level, opened⟩
  | named {before : Level} {tokens : List String} {span : Span} (mayLabel : Bool)
      (pushed : before.push (.bare ⟨tokens⟩ span) = level) :
      IsBehind level opened ⟨.named tokens span mayLabel, before, opened⟩

namespace State.IsBehind

variable {level : Level} {opened : List Open} {s : State}

theorem enters (stands : s.IsBehind level opened) (start : Nat) : s.Enters start level opened := by
  intro word span raw _
  cases stands with
  | called => exact ⟨false, rfl⟩
  | named mayLabel pushed =>
    subst pushed
    exact ⟨false, rfl⟩

theorem pipe (stands : s.IsBehind level opened) {chain : Chain} (read : level.chain = some chain)
    (span : Span) (raw : String) :
    s.advance ⟨.pipe, span, raw⟩ = some ⟨.armStart, ⟨chain :: level.arms, none⟩, opened⟩ := by
  have taken : afterCall level opened ⟨.pipe, span, raw⟩ =
      some ⟨.armStart, ⟨chain :: level.arms, none⟩, opened⟩ := by
    simp [afterCall, read]
  cases stands with
  | called => exact taken
  | named mayLabel pushed =>
    subst pushed
    exact taken

theorem finish (stands : s.IsBehind level []) : s.finish = level.toExpr? := by
  cases stands with
  | called => rfl
  | named mayLabel pushed =>
    subst pushed
    rfl

end State.IsBehind

/-- Whether an argument that completes this list can end here. -/
structure State.IsPastArg (o : Open) (opened : List Open) (s : State) : Prop where
  comma : ∀ span raw, s.advance ⟨.comma, span, raw⟩ = some ⟨.argStart, .empty, o :: opened⟩
  close : ∀ span raw,
    s.advance ⟨.parenClose, span, raw⟩ = some ⟨.called, o.close span.stop, opened⟩

theorem State.IsBehind.isPastArg {level : Level} {o : Open} {opened : List Open} {s : State}
    (stands : s.IsBehind level (o :: opened)) {expr : Expr} (read : level.toExpr? = some expr)
    {last : Chain} (chain : level.chain = some last) :
    s.IsPastArg (o.finish (.expr expr) last.last.span.stop) opened := by
  cases stands with
  | called => exact ⟨afterCall_comma read chain o opened, afterCall_parenClose read chain o opened⟩
  | named mayLabel pushed =>
    subst pushed
    exact ⟨afterCall_comma read chain o opened, afterCall_parenClose read chain o opened⟩

/-- Whether the value of an argument can begin here. -/
structure State.TakesValue (start : Nat) (o : Open) (opened : List Open) (s : State) : Prop where
  enters : s.Enters start .empty (o :: opened)
  literal : ∀ {piece : Piece} {literal : Literal}, literal? piece = some literal →
    piece.span.start = start →
    s.advance piece = some ⟨.valued literal piece.span, .empty, o :: opened⟩

theorem takesValue_argStart (start : Nat) (o : Open) (opened : List Open) :
    State.TakesValue start { o with argStart := start } opened
      ⟨.argStart, .empty, o :: opened⟩ := by
  refine ⟨?_, ?_⟩
  · rintro word span raw rfl
    exact ⟨true, rfl⟩
  · rintro ⟨token, span, raw⟩ literal read rfl
    cases token <;> cases read <;> rfl

theorem takesValue_valueStart (start : Nat) (o : Open) (opened : List Open) :
    State.TakesValue start o opened ⟨.valueStart, .empty, o :: opened⟩ := by
  refine ⟨fun word span raw _ => ⟨false, rfl⟩, ?_⟩
  rintro ⟨token, span, raw⟩ literal read _
  cases token <;> cases read <;> rfl

theorem isPastArg_valued (literal : Literal) (span : Span) (level : Level) (o : Open)
    (opened : List Open) :
    State.IsPastArg (o.finish (.literal literal) span.stop) opened
      ⟨.valued literal span, level, o :: opened⟩ :=
  ⟨fun _ _ => rfl, fun _ _ => rfl⟩

/-- The arms of an expression behind others that have been read, last first. -/
def withArms (arms : List Chain) (expr : Expr) : Expr :=
  arms.foldl (fun others main => .orElse main others) expr

theorem ofList_toList (args : Args) : Args.ofList args.toList = args := by
  induction args using Args.toList.induct with
  | case1 => rfl
  | case2 arg rest ih => rw [Args.toList, Args.ofList, ih]

end Grammar

end TypedTemplate
