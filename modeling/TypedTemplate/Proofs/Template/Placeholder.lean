import TypedTemplate.Proofs.Template.Elements
import TypedTemplate.Proofs.Template.Machine

/-!
Reading a printed placeholder gives its expression back. The lemmas on its parts have one
shape: if the machine reads what follows a part from the states behind it, then it reads
the part and what follows from the states before it (`Grammar.Reads`).
-/
namespace TypedTemplate

namespace Grammar

variable {expr : Expr} {behind : List Char}

/-- Whether the characters, read from a state on, spell the rest of an expression, its
closing brace and what is behind it. -/
def Reads (expr : Expr) (behind : List Char) (s : State) (cs : List Char) : Prop :=
  ∀ offset, ∃ items brace body,
    lexUntil Reader.isBrace offset cs = (items, some (brace, behind)) ∧
      brace.lexeme.token = some .braceClose ∧ Reader.pieces items = .ok body ∧
      read s (body.map Piece.erase) = some expr

/-! ## Single tokens -/

theorem Reads.close {s : State} (finished : s.finish = some expr) :
    Reads expr behind s ('}' :: behind) := by
  intro offset
  refine ⟨[], ⟨⟨some .braceClose, ['}']⟩, offset, offset + 1⟩, [], ?_, rfl, rfl, finished⟩
  rw [lexUntil]
  rfl

theorem Reads.blank {s : State} {cs : List Char} (onward : Reads expr behind s cs) :
    Reads expr behind s (' ' :: cs) := by
  intro offset
  obtain ⟨items, brace, body, scanned, rest⟩ := onward (offset + 1)
  exact ⟨items, brace, body, by rw [lexUntil]; exact scanned, rest⟩

/-- One more token in front. -/
theorem Reads.cons {s next : State} {text cs : List Char} {lexeme : Lexeme} {token : Token}
    (valid : lexeme.token = some token)
    (front : ∀ offset, ∃ span later, lexUntil Reader.isBrace offset text =
      (⟨lexeme, span⟩ :: (lexUntil Reader.isBrace later cs).1,
        (lexUntil Reader.isBrace later cs).2))
    (taken : s.advance ⟨token, .none, String.ofList lexeme.source⟩ = some next)
    (onward : Reads expr behind next cs) : Reads expr behind s text := by
  intro offset
  obtain ⟨span, later, scanned⟩ := front offset
  obtain ⟨items, brace, body, others, closed, pieces, spelled⟩ := onward later
  rw [others] at scanned
  refine ⟨⟨lexeme, span⟩ :: items, brace, ⟨token, span, String.ofList lexeme.source⟩ :: body,
    scanned, closed, ?_, ?_⟩
  · rw [Reader.pieces]
    simp only [valid, pieces]
    rfl
  · rw [List.map_cons, read_cons, Piece.erase, taken]
    exact spelled

theorem Reads.punctuation {s next : State} {c : Char} {cs : List Char} {token : Token}
    (mark : Lexer.punctuation? c = some token) (solid : isBlank c = false)
    (inner : Reader.isBrace token = false)
    (taken : s.advance ⟨token, .none, String.ofList [c]⟩ = some next)
    (onward : Reads expr behind next cs) : Reads expr behind s (c :: cs) := by
  refine Reads.cons (show (Lexeme.mk (some token) [c]).token = some token from rfl)
    (fun offset => ?_) taken onward
  rw [lexUntil, if_neg (by simp [solid])]
  simp only [Lexer.munch_of_punctuation mark, Option.any_some, inner, Bool.false_eq_true, if_false]
  exact ⟨_, _, rfl⟩

theorem Reads.single {s next : State} {text cs : List Char} {lexeme : Lexeme} {token : Token}
    (single : IsToken text lexeme) (valid : lexeme.token = some token)
    (inner : Reader.isBrace token = false) (ends : EndsWord cs)
    (taken : s.advance ⟨token, .none, String.ofList lexeme.source⟩ = some next)
    (onward : Reads expr behind next cs) : Reads expr behind s (text ++ cs) :=
  Reads.cons valid (lexUntil_single single valid ends inner) taken onward

theorem Reads.word {s next : State} {word : String} {cs : List Char} (printable : IsWord word)
    (ends : EndsWord cs)
    (taken : s.advance ⟨.ident word, .none, String.ofList word.toList⟩ = some next)
    (onward : Reads expr behind next cs) : Reads expr behind s (word.toList ++ cs) :=
  Reads.single (isToken_of_isIdent printable.1 printable.2) rfl rfl ends taken onward

/-! ## Names -/

theorem name_print {name : Name} {first : String} {more : List String}
    (tokens : name.tokens = first :: more) :
    name.toString.toList = first.toList ++ more.flatMap fun token => ':' :: token.toList := by
  rw [Name.toString, tokens, String.toList_intercalate]
  clear tokens
  induction more generalizing first with
  | nil => simp
  | cons next rest ih =>
    have others := @ih next
    rw [List.map_cons] at others
    rw [List.map_cons, List.map_cons, List.intercalate_cons_cons, others]
    simp

theorem endsWord_segments {cs : List Char} (ends : EndsWord cs) (more : List String) :
    EndsWord ((more.flatMap fun token => ':' :: token.toList) ++ cs) := by
  cases more with
  | nil => exact ends
  | cons token rest => exact .cons (by decide) _

theorem Reads.segments {level : Level} {opened : List Open} {cs : List Char} {more : List String}
    (words : ∀ token ∈ more, IsWord token) (ends : EndsWord cs) {tokens : List String}
    (onward : ∀ mayLabel,
      Reads expr behind ⟨.named (tokens ++ more) .none mayLabel, level, opened⟩ cs)
    (mayLabel : Bool) :
    Reads expr behind ⟨.named tokens .none mayLabel, level, opened⟩
      ((more.flatMap fun token => ':' :: token.toList) ++ cs) := by
  induction more generalizing tokens mayLabel with
  | nil =>
    rw [List.append_nil] at onward
    exact onward mayLabel
  | cons token more ih =>
    rw [List.flatMap_cons, List.append_assoc, List.cons_append]
    refine Reads.punctuation rfl rfl rfl (by rfl) ?_
    refine Reads.word (words token List.mem_cons_self) (endsWord_segments ends more) (by rfl) ?_
    refine ih (fun other member => words other (List.mem_cons_of_mem _ member)) ?_ false
    intro mayLabel
    rw [List.append_assoc]
    exact onward mayLabel

theorem Reads.name {name : Name} (printable : name.IsPrintable) {s : State} {level : Level}
    {opened : List Open} {cs : List Char} (enters : s.Enters 0 level opened) (ends : EndsWord cs)
    (onward : ∀ mayLabel, Reads expr behind ⟨.named name.tokens .none mayLabel, level, opened⟩ cs) :
    Reads expr behind s (name.toString.toList ++ cs) := by
  obtain ⟨nonempty, words⟩ := printable
  cases tokens : name.tokens with
  | nil => contradiction
  | cons first more =>
    rw [tokens] at words onward
    rw [name_print tokens, List.append_assoc]
    obtain ⟨mayLabel, taken⟩ := enters first .none (String.ofList first.toList) rfl
    refine Reads.word (words first List.mem_cons_self) (endsWord_segments ends more) taken ?_
    exact Reads.segments (fun token member => words token (List.mem_cons_of_mem _ member)) ends
      onward mayLabel

/-! ## Behind calls and arguments -/

/-- Whether what follows a finished call is read from wherever the call leaves the machine. -/
def Continues (expr : Expr) (behind : List Char) (level : Level) (opened : List Open)
    (cs : List Char) : Prop :=
  ∀ s : State, s.IsBehind level opened → Reads expr behind s cs

theorem isToken_of_isPrintable {literal : Literal} (printable : literal.IsPrintable) :
    ∃ lexeme : Lexeme, IsToken literal.raw.toList lexeme ∧
      lexeme.token = some literal.value.token ∧
      literal? ⟨literal.value.token, .none, String.ofList lexeme.source⟩ = some literal.strip := by
  obtain ⟨item, alone, token⟩ := printable
  have single : IsToken literal.raw.toList item.lexeme :=
    isToken_of_lexUntil alone (by rw [token]; rfl)
  refine ⟨item.lexeme, single, token, ?_⟩
  rw [Literal.strip, single.stripBlanks_eq]
  rcases literal with ⟨⟨_ | _⟩ | _ | _, raw⟩ <;> rfl

/-! ## Parts of a placeholder -/

theorem endsWord_printNext (args : Args) (cs : List Char) :
    EndsWord (args.printNext ++ ([')'] ++ cs)) := by
  cases args with
  | nil => exact .cons (by decide) _
  | cons arg rest => exact .cons (by decide) _

mutual

/-- A call is read where a word may begin one. Its name may still go on behind it, so what
follows must end a word. -/
theorem reads_call : ∀ call : Call, call.IsPrintable →
    ∀ {s : State} {level : Level} {opened : List Open} {cs : List Char},
      s.Enters 0 level opened → EndsWord cs →
      Continues expr behind (level.push call.strip.erase) opened cs →
      Reads expr behind s (call.print ++ cs)
  | .bare name _, printable, _, _, _, _, enters, ends, onward => by
    rw [Call.print]
    exact Reads.name printable enters ends fun mayLabel => onward _ (.named mayLabel rfl)
  | .applied name args _, printable, s, level, opened, cs, enters, ends, onward => by
    rw [Call.print, List.append_assoc, List.cons_append, List.append_assoc]
    refine Reads.name printable.1 enters (.cons (by decide) _) fun mayLabel => ?_
    refine Reads.punctuation rfl rfl rfl (by rfl) ?_
    refine reads_args args printable.2 level name [] ?_
    rw [List.reverse_nil, List.nil_append, ofList_toList]
    exact onward

/-- Arguments are added behind those that have been read, up to the closing parenthesis. -/
theorem reads_args : ∀ args : Args, args.IsPrintable →
    ∀ (outer : Level) (name : Name) (done : List Arg) {opened : List Open} {cs : List Char},
      Continues expr behind (outer.push (.applied name
        (.ofList (done.reverse ++ args.strip.erase.toList)) .none)) opened cs →
      Reads expr behind ⟨.argStart, .empty, ⟨outer, name, 0, done, none, 0⟩ :: opened⟩
        (args.print ++ ([')'] ++ cs))
  | .nil, _, outer, name, done, opened, cs, onward => by
    have complete : Continues expr behind (outer.push (.applied name
        (.ofList (done.reverse ++ [])) .none)) opened cs := onward
    rw [List.append_nil] at complete
    exact Reads.punctuation rfl rfl rfl (by rfl) (complete _ .called)
  | .cons arg rest, printable, outer, name, done, opened, cs, onward => by
    rw [Args.print, List.append_assoc]
    refine reads_arg arg printable.1 outer name done (endsWord_printNext rest cs) fun s past => ?_
    refine reads_next rest printable.2 past ?_
    rw [List.reverse_cons, List.append_assoc]
    exact onward

/-- Further arguments stand behind one that has been read. -/
theorem reads_next : ∀ args : Args, args.IsPrintable →
    ∀ {outer : Level} {name : Name} {done : List Arg} {opened : List Open} {cs : List Char}
      {s : State}, s.IsPastArg ⟨outer, name, 0, done, none, 0⟩ opened →
      Continues expr behind (outer.push (.applied name
        (.ofList (done.reverse ++ args.strip.erase.toList)) .none)) opened cs →
      Reads expr behind s (args.printNext ++ ([')'] ++ cs))
  | .nil, _, outer, name, done, opened, cs, s, past, onward => by
    have complete : Continues expr behind (outer.push (.applied name
        (.ofList (done.reverse ++ [])) .none)) opened cs := onward
    rw [List.append_nil] at complete
    exact Reads.punctuation rfl rfl rfl (past.close _ _) (complete _ .called)
  | .cons arg rest, printable, outer, name, done, opened, cs, s, past, onward => by
    rw [Args.printNext, List.cons_append, List.cons_append, List.append_assoc]
    refine Reads.punctuation rfl rfl rfl (past.comma _ _) (Reads.blank ?_)
    refine reads_arg arg printable.1 outer name done (endsWord_printNext rest cs) fun s past => ?_
    refine reads_next rest printable.2 past ?_
    rw [List.reverse_cons, List.append_assoc]
    exact onward

theorem reads_arg : ∀ arg : Arg, arg.IsPrintable →
    ∀ (outer : Level) (name : Name) (done : List Arg) {opened : List Open} {cs : List Char},
      EndsWord cs →
      (∀ s : State, s.IsPastArg ⟨outer, name, 0, arg.strip.erase :: done, none, 0⟩ opened →
        Reads expr behind s cs) →
      Reads expr behind ⟨.argStart, .empty, ⟨outer, name, 0, done, none, 0⟩ :: opened⟩
        (arg.print ++ cs)
  | .mk none value _, printable, outer, name, done, opened, cs, ends, onward =>
    reads_value value printable (takesValue_argStart 0 ⟨outer, name, 0, done, none, 0⟩ opened) ends
      onward
  | .mk (some label) value _, printable, outer, name, done, opened, cs, ends, onward => by
    rw [Arg.print, List.append_assoc]
    refine Reads.word printable.1 (.cons (by decide) _) (by rfl) (Reads.blank ?_)
    refine Reads.punctuation rfl rfl rfl (by rfl) (Reads.blank ?_)
    exact reads_value value printable.2
      (takesValue_valueStart 0 ⟨outer, name, 0, done, some label, 0⟩ opened) ends onward

theorem reads_value : ∀ value : ArgValue, value.IsPrintable →
    ∀ {o : Open} {opened : List Open} {s : State} {cs : List Char},
      s.TakesValue 0 o opened → EndsWord cs →
      (∀ t : State, t.IsPastArg (o.finish value.strip.erase 0) opened → Reads expr behind t cs) →
      Reads expr behind s (value.print ++ cs)
  | .literal literal, printable, o, opened, s, cs, takes, ends, onward => by
    obtain ⟨lexeme, single, token, read⟩ := isToken_of_isPrintable printable
    have inner : Reader.isBrace literal.value.token = false := by
      rcases literal with ⟨⟨_ | _⟩ | _ | _, raw⟩ <;> rfl
    exact Reads.single single token inner ends (takes.literal read rfl)
      (onward _ (isPastArg_valued literal.strip .none .empty o opened))
  | .expr value, printable, o, opened, s, cs, takes, ends, onward =>
    reads_expr value printable [] takes.enters ends fun _ read last chain t stands => by
      have past := stands.isPastArg read chain
      rw [last_erase, call_span_erase] at past
      exact onward t past

/-- The calls of an arm are read up to where a bar or the end of the expression may stand. -/
theorem reads_chain : ∀ chain : Chain, chain.IsPrintable →
    ∀ {s : State} {arms : List Chain} {opened : List Open} {cs : List Char},
      s.Enters 0 ⟨arms, none⟩ opened → EndsWord cs →
      Continues expr behind ⟨arms, some chain.strip.erase⟩ opened cs →
      Reads expr behind s (chain.print ++ cs)
  | .first call, printable, s, arms, opened, cs, enters, ends, onward =>
    reads_call call printable enters ends onward
  | .next parent call, printable, s, arms, opened, cs, enters, ends, onward => by
    rw [Chain.print, List.append_assoc]
    refine reads_chain parent printable.1 enters (.cons (by decide) _) ?_
    intro t stands
    exact Reads.blank (reads_call call printable.2 (stands.enters 0) ends onward)

/-- The arms of an expression are read behind arms that have been read. -/
theorem reads_expr : ∀ value : Expr, value.IsPrintable →
    ∀ (arms : List Chain) {s : State} {opened : List Open} {cs : List Char},
      s.Enters 0 ⟨arms, none⟩ opened → EndsWord cs →
      (∀ level : Level, level.toExpr? = some (withArms arms value.strip.erase) →
        ∀ last : Chain, level.chain = some last.erase → Continues expr behind level opened cs) →
      Reads expr behind s (value.print ++ cs)
  | .arm main, printable, arms, s, opened, cs, enters, ends, onward =>
    reads_chain main printable enters ends (onward _ rfl main.strip rfl)
  | .orElse main others, printable, arms, s, opened, cs, enters, ends, onward => by
    rw [Expr.print, List.append_assoc]
    refine reads_chain main printable.1 enters (.cons (by decide) _) ?_
    intro t stands
    refine Reads.blank (Reads.punctuation rfl rfl rfl (stands.pipe rfl _ _) (Reads.blank ?_))
    exact reads_expr others printable.2 (main.strip.erase :: arms) (fun _ _ _ _ => ⟨false, rfl⟩)
      ends onward

end

end Grammar

/-- Behind the opening brace, a printed placeholder is read up to its closing brace. -/
theorem Reader.placeholder_print {expr : Expr} (printable : expr.IsPrintable) (start : Nat)
    (behind : List Char) :
    ∃ found stop, placeholder start (expr.print ++ '}' :: behind) = .ok ⟨found, stop, behind⟩ ∧
      found.erase = expr.strip.erase := by
  have reads : Grammar.Reads expr.strip.erase behind .initial (expr.print ++ '}' :: behind) := by
    refine Grammar.reads_expr expr printable [] (fun _ _ _ _ => ⟨false, rfl⟩)
      (.cons (by decide) _) ?_
    intro level read last _ s stands
    exact Grammar.Reads.close (stands.finish.trans read)
  obtain ⟨items, brace, body, scanned, closed, valid, spelled⟩ := reads (start + 1)
  have erased := Grammar.read_erase .initial body
  rw [show Grammar.State.initial.erase = .initial from rfl, spelled] at erased
  obtain ⟨found, read, same⟩ := Option.map_eq_some_iff.mp erased.symm
  refine ⟨found, brace.span.stop, ?_, same⟩
  exact placeholder_of_parse scanned closed valid (Grammar.run_of_read read _ _)

end TypedTemplate
