import TypedTemplate.Proofs.Template.Seam
import TypedTemplate.Proofs.Template.Viability
import TypedTemplate.Proofs.Token.Layout

/-!
Where a text stops to be a template. A text that is rejected is in error at its first element that
cannot be read, whatever stands behind (`Reader.breaks_of_elements`), and the place that the error
reports is in the text, at or behind the start of this element (`Template.isPlaced_of_parse`). In a
placeholder whose tokens are all valid it is the first token with which no body goes on
(`Template.isFault_of_body`).
-/
namespace TypedTemplate

theorem eq_error_of_map {α β ε : Type} {f : α → β} {x : Except ε α} {e : ε}
    (mapped : x.map f = .error e) : x = .error e := by
  cases x with
  | error failed =>
    cases mapped
    rfl
  | ok a => cases mapped

namespace Reader

/-! ## The first element that cannot be read -/

/-- Whether a text cannot be read for its first element. -/
inductive Breaks (offset : Nat) : List Char → SyntaxError → Prop
  | unmatched {rest : List Char} (single : rest.head? ≠ some '}') :
      Breaks offset ('}' :: rest) ⟨.unmatchedClose, ⟨offset, offset + 1⟩⟩
  | placeholder {rest : List Char} {e : SyntaxError} (single : rest.head? ≠ some '{')
      (failed : placeholder offset rest = .error e) : Breaks offset ('{' :: rest) e

/-- No beginning of such a text can be read. -/
theorem Breaks.not_read {offset : Nat} {cs : List Char} {e : SyntaxError}
    (breaks : Breaks offset cs e) {head rest : List Char} (split : cs = head ++ rest)
    (nonempty : head ≠ []) (found : List Element) : elements offset head ≠ .ok found := by
  intro read
  obtain ⟨c, others, rfl⟩ := List.exists_cons_of_ne_nil nonempty
  -- Where the next character is missing, it is no brace either.
  have shorter {d : Char} (single : (others ++ rest).head? ≠ some d) : others.head? ≠ some d := by
    cases others with
    | nil => exact nofun
    | cons x more => exact single
  cases breaks with
  | unmatched single =>
    obtain ⟨rfl, rfl⟩ := List.cons.inj split
    rw [elements_unmatched (shorter single)] at read
    cases read
  | placeholder single failed =>
    obtain ⟨rfl, rfl⟩ := List.cons.inj split
    obtain ⟨p, -, scanned, -⟩ := elements_placeholder_eq_ok (shorter single) read
    have whole := (placeholder_append scanned rest).1.symm.trans failed
    cases whole

/-- What is in front of the first element that cannot be read is a template. -/
theorem breaks_of_elements {offset : Nat} {cs : List Char} {e : SyntaxError}
    (failed : elements offset cs = .error e) :
    ∃ front back found, cs = front ++ back ∧ elements offset front = .ok found ∧
      Breaks (offset + byteLength front) back e := by
  induction offset, cs using text_induction with
  | nil offset =>
    rw [elements_nil] at failed
    cases failed
  | double offset c rest brace ih =>
    rw [elements_double brace] at failed
    obtain ⟨front, back, found, rfl, read, breaks⟩ := ih (eq_error_of_map failed)
    refine ⟨c :: c :: front, back, consText (String.singleton c) ⟨offset, offset + 2⟩ found, rfl,
      ?_, ?_⟩
    · rw [elements_double brace, read]
      rfl
    · have place : offset + byteLength (c :: c :: front) = offset + 2 + byteLength front := by
        rw [byteLength_cons, byteLength_cons, utf8Size_of_isBraceChar brace]
        omega
      rw [place]
      exact breaks
  | unmatched offset rest single =>
    rw [elements_unmatched single] at failed
    cases failed
    exact ⟨[], _, [], rfl, elements_nil offset, .unmatched single⟩
  | placeholder offset rest single ih =>
    cases scanned : placeholder offset rest with
    | error found =>
      rw [elements_placeholder single, scanned] at failed
      cases failed
      exact ⟨[], _, [], rfl, elements_nil offset, .placeholder single scanned⟩
    | ok p =>
      rw [elements_placeholder single, scanned] at failed
      obtain ⟨front, back, found, split, read, breaks⟩ := ih p scanned (eq_error_of_map failed)
      obtain ⟨inner, rfl, stop, onward⟩ := placeholder_cut scanned
      have apart : (inner ++ '}' :: front).head? ≠ some '{' := by
        cases inner with
        | nil => exact nofun
        | cons c others => exact single
      refine ⟨'{' :: (inner ++ '}' :: front), back, .placeholder p.expr ⟨offset, p.stop⟩ :: found,
        by simp [split], ?_, ?_⟩
      · rw [elements_placeholder apart, onward]
        simp only [Except.bind, read]
        rfl
      · have place : offset + byteLength ('{' :: (inner ++ '}' :: front)) =
            p.stop + byteLength front := by
          have opening : Char.utf8Size '{' = 1 := rfl
          have closing : Char.utf8Size '}' = 1 := rfl
          rw [byteLength_cons, byteLength_append, byteLength_cons, opening, closing, stop]
          omega
        rw [place]
        exact breaks
  | plain offset c rest plain ih =>
    rw [elements_plain plain] at failed
    obtain ⟨front, back, found, rfl, read, breaks⟩ := ih (eq_error_of_map failed)
    refine ⟨c :: front, back,
      consText (String.singleton c) ⟨offset, offset + c.utf8Size⟩ found, rfl, ?_, ?_⟩
    · rw [elements_plain plain, read]
      rfl
    · rw [byteLength_cons, ← Nat.add_assoc]
      exact breaks

end Reader

/-! ## The place of an error -/

/-- Whether the place of an error is in the text, at or behind a position. It is not empty unless
the placeholder ends too early: then it begins at the closing brace and ends in front of the blanks
before it. -/
structure SyntaxError.IsPlaced (text : List Char) (start : Nat) (e : SyntaxError) : Prop where
  after : start ≤ e.span.start
  starts : IsBoundary text e.span.start
  stops : IsBoundary text e.span.stop
  order : e.span.start < e.span.stop ∨
    ∃ expected, e.cause = .unexpected none expected ∧ IsGap text e.span.stop e.span.start ∧
      Span.Cuts ⟨e.span.start, e.span.start + 1⟩ text ['}']

variable {text : List Char}

/-- An error at a slice is placed there. -/
theorem SyntaxError.isPlaced_of_cuts {start : Nat} {e : SyntaxError} {slice : List Char}
    (cuts : e.span.Cuts text slice) (nonempty : slice ≠ []) (after : start ≤ e.span.start) :
    e.IsPlaced text start :=
  ⟨after, cuts.isBoundary_start, cuts.isBoundary_stop, .inl (cuts.start_lt nonempty)⟩

namespace Grammar

/-- An error in a body is at one of its pieces, or at its end. -/
theorem isPlaced_of_fails {start close : Nat} {body : List Piece} {e : SyntaxError}
    (laid : Laid text start (body.map Piece.slice) close) (nonempty : body ≠ [])
    (brace : Span.Cuts ⟨close, close + 1⟩ text ['}'])
    (fails : Fails close close .initial body e) : e.IsPlaced text start := by
  cases fails with
  | @piece front rest piece reached split taken refused =>
    have member : piece.slice ∈ body.map Piece.slice :=
      List.mem_map.mpr ⟨piece, by simp [split], rfl⟩
    obtain ⟨cuts, some, after, -⟩ := laid.cuts_of_mem member
    exact SyntaxError.isPlaced_of_cuts cuts some after
  | @finish reached taken refused =>
    have gap := laid.gap_end
    rw [List.foldl_map] at gap
    obtain ⟨piece, rest, rfl⟩ := List.exists_cons_of_ne_nil nonempty
    have stops : IsBoundary text
        ((piece :: rest).foldl (fun _ piece => piece.span.stop) close) := by
      obtain ⟨blanks, cuts, -⟩ := gap
      exact cuts.isBoundary_start
    exact ⟨laid.le, brace.isBoundary_start, stops, .inr ⟨_, rfl, gap, brace⟩⟩

end Grammar

namespace Reader

/-- The closing brace of a body is one of the text. -/
theorem cuts_closing {offset : Nat} {cs rest : List Char} {items : List Located} {brace : Located}
    {body : List Piece} (tail : IsTail text offset cs)
    (scanned : lexUntil isBrace offset cs = (items, some (brace, rest)))
    (closes : brace.lexeme.token = some .braceClose) (valid : pieces items = .ok body) :
    Span.Cuts ⟨brace.span.start, brace.span.start + 1⟩ text ['}'] := by
  obtain ⟨inner, rfl, place, -⟩ := lexUntil_cut scanned closes (valid_of_pieces valid)
  rw [place]
  exact ⟨rest, tail.drop, rfl⟩

/-- The ways in which a placeholder whose opening brace stands at `start` cannot be read. -/
inductive Spoils (start : Nat) (cs : List Char) : SyntaxError → Prop
  | unclosed {items : List Located} (scanned : lexUntil isBrace (start + 1) cs = (items, none)) :
      Spoils start cs ⟨.unclosedOpen, ⟨start, start + 1 + byteLength cs⟩⟩
  | invalid {items : List Located} {last : Located × List Char} {item : Located}
      (scanned : lexUntil isBrace (start + 1) cs = (items, some last)) (member : item ∈ items) :
      Spoils start cs ⟨.invalidCharacter, item.span⟩
  | inside {items : List Located} {brace : Located} {rest : List Char}
      (scanned : lexUntil isBrace (start + 1) cs = (items, some (brace, rest))) :
      Spoils start cs ⟨.openInside, brace.span⟩
  | empty {items : List Located} {brace : Located} {rest : List Char}
      (scanned : lexUntil isBrace (start + 1) cs = (items, some (brace, rest))) :
      Spoils start cs ⟨.emptyPlaceholder, ⟨start, brace.span.stop⟩⟩
  | body {items : List Located} {brace : Located} {rest : List Char} {body : List Piece}
      {e : SyntaxError} (scanned : lexUntil isBrace (start + 1) cs = (items, some (brace, rest)))
      (closes : brace.lexeme.token = some .braceClose) (valid : pieces items = .ok body)
      (nonempty : body ≠ []) (failed : Grammar.parse brace.span.start body = .error e) :
      Spoils start cs e

theorem spoils_of_placeholder {start : Nat} {cs : List Char} {e : SyntaxError}
    (failed : placeholder start cs = .error e) : Spoils start cs e := by
  unfold placeholder at failed
  split at failed
  · rename_i items scanned
    cases failed
    exact .unclosed scanned
  · rename_i items brace rest scanned
    split at failed
    · rename_i span invalid
      cases failed
      obtain ⟨item, member, rfl⟩ := exists_of_pieces_eq_error invalid
      exact .invalid scanned member
    · rename_i body valid
      split at failed
      · rename_i closes
        split at failed
        · cases failed
          exact .empty scanned
        · rename_i some
          exact .body scanned closes valid (by simpa using some) (eq_error_of_map failed)
      · cases failed
        exact .inside scanned

theorem Spoils.isPlaced {start : Nat} {cs : List Char} {e : SyntaxError}
    (spoils : Spoils start cs e) (tail : IsTail text start ('{' :: cs)) :
    e.IsPlaced text start := by
  have within : IsTail text (start + 1) cs := tail.drop_char
  cases spoils with
  | unclosed scanned =>
    have place : start + 1 + byteLength cs = start + byteLength ('{' :: cs) := by
      rw [byteLength_cons, ← Nat.add_assoc]
      rfl
    have cuts : Span.Cuts ⟨start, start + byteLength ('{' :: cs)⟩ text ('{' :: cs) :=
      ⟨[], by simpa using tail, rfl⟩
    rw [place]
    exact SyntaxError.isPlaced_of_cuts cuts (List.cons_ne_nil _ _) le_rfl
  | invalid scanned member =>
    obtain ⟨close, laid, -⟩ := laid_of_lexUntil within scanned
    obtain ⟨cuts, some, after, -⟩ := laid.cuts_of_mem (List.mem_map_of_mem member)
    exact SyntaxError.isPlaced_of_cuts cuts some (Nat.le_of_succ_le after)
  | @inside items brace rest scanned =>
    obtain ⟨close, laid, -, ends⟩ := laid_of_lexUntil within scanned
    obtain ⟨rfl, cuts, some, -⟩ := ends brace rest rfl
    exact SyntaxError.isPlaced_of_cuts cuts some (Nat.le_of_succ_le laid.le)
  | @empty items brace rest scanned =>
    obtain ⟨close, laid, -, ends⟩ := laid_of_lexUntil within scanned
    obtain ⟨rfl, cuts, some, -⟩ := ends brace rest rfl
    have longer : start < brace.span.stop := (Nat.lt_of_succ_le laid.le).trans (cuts.start_lt some)
    exact ⟨le_rfl, tail.isBoundary, cuts.isBoundary_stop, .inl longer⟩
  | @body items brace rest body e scanned closes valid nonempty failed =>
    obtain ⟨close, laid, -, ends⟩ := laid_of_lexUntil within scanned
    obtain ⟨rfl, -⟩ := ends brace rest rfl
    rw [← slices_of_pieces valid] at laid
    have placed := Grammar.isPlaced_of_fails laid nonempty
      (cuts_closing within scanned closes valid) (Grammar.fails_of_run failed)
    exact { placed with after := Nat.le_of_succ_le placed.after }

theorem Breaks.isPlaced {start : Nat} {cs : List Char} {e : SyntaxError}
    (breaks : Breaks start cs e) (tail : IsTail text start cs) : e.IsPlaced text start := by
  cases breaks with
  | @unmatched rest single =>
    have cuts : Span.Cuts ⟨start, start + 1⟩ text ['}'] := ⟨rest, tail, rfl⟩
    exact SyntaxError.isPlaced_of_cuts cuts (List.cons_ne_nil _ _) le_rfl
  | placeholder single failed => exact (spoils_of_placeholder failed).isPlaced tail

end Reader

namespace Template

/-- The error of a text that is rejected is placed at or behind the first element that cannot be
read. The text before this element is a template, and none that goes on into it is. -/
theorem isPlaced_of_parse {text : String} {e : SyntaxError} (failed : parse text = .error e) :
    ∃ before after : String, text = before ++ after ∧ (∃ template, parse before = .ok template) ∧
      (∀ head rest template, after = head ++ rest → head ≠ "" →
        parse (before ++ head) ≠ .ok template) ∧
      e.IsPlaced text.toList before.utf8ByteSize ∧
      e.span.start ≤ text.utf8ByteSize ∧ e.span.stop ≤ text.utf8ByteSize := by
  obtain ⟨front, back, found, split, read, breaks⟩ :=
    Reader.breaks_of_elements (eq_error_of_map failed)
  rw [Nat.zero_add] at breaks
  have size : byteLength front = (String.ofList front).utf8ByteSize := by
    rw [← byteLength_toList, String.toList_ofList]
  have placed := breaks.isPlaced ⟨front, split, rfl⟩
  have starts := placed.starts.le
  have stops := placed.stops.le
  rw [byteLength_toList] at starts stops
  rw [size] at placed
  refine ⟨String.ofList front, String.ofList back, ?_, ⟨⟨found⟩, ?_⟩, ?_, placed, starts, stops⟩
  · rw [← String.ofList_append, ← split, String.ofList_toList]
  · rw [parse, String.toList_ofList, read]
    rfl
  · intro head rest template same nonempty whole
    have onward := elements_of_parse whole
    rw [String.toList_append, String.toList_ofList, Reader.elements_append read,
      Nat.zero_add] at onward
    obtain ⟨others, onward, -⟩ := exists_of_map_eq_ok onward
    have parted : back = head.toList ++ rest.toList := by
      rw [← String.toList_append, ← same, String.toList_ofList]
    exact breaks.not_read parted (by simpa using nonempty) others onward

/-- The place is counted in bytes, here at the end of a body that ends too early. -/
theorem isPlaced_of_parse_behind :
    let text := "é\x7ba | \x7d"
    let e : SyntaxError := ⟨.unexpected none [], ⟨7, 6⟩⟩
    parse text = .error e ∧ ∃ before after : String, text = before ++ after ∧
      (∃ template, parse before = .ok template) ∧
      (∀ head rest template, after = head ++ rest → head ≠ "" →
        parse (before ++ head) ≠ .ok template) ∧
      e.IsPlaced text.toList before.utf8ByteSize ∧
      e.span.start ≤ text.utf8ByteSize ∧ e.span.stop ≤ text.utf8ByteSize := by
  intro text e
  have chars : text.toList = ['é', '{', 'a', ' ', '|', ' ', '}'] := by decide +kernel
  have failed : parse text = .error e := by
    rw [parse, chars]
    with_unfolding_all rfl
  exact ⟨failed, isPlaced_of_parse failed⟩

/-- With a blank before the closing brace, the place of an early end stops before it starts. -/
theorem exists_stop_lt_start :
    ∃ e, parse "\x7ba | \x7d" = .error e ∧ ¬ e.span.start ≤ e.span.stop :=
  ⟨⟨.unexpected none [], ⟨5, 4⟩⟩, by with_unfolding_all rfl, by decide⟩

end Template

/-! ## The first impossible token -/

/-- Whether the placeholder whose opening brace stands at `start` goes on with the valid tokens of
this body up to its closing brace at `close`. -/
def Reader.HasBody (start : Nat) (cs : List Char) (body : List Piece) (close : Nat) : Prop :=
  ∃ items brace rest, lexUntil isBrace (start + 1) cs = (items, some (brace, rest)) ∧
    brace.lexeme.token = some .braceClose ∧ pieces items = .ok body ∧ brace.span.start = close

namespace Reader.HasBody

variable {start close : Nat} {cs : List Char} {body : List Piece}

theorem placeholder_eq_error (found : HasBody start cs body close) (nonempty : body ≠ [])
    {e : SyntaxError} (failed : Grammar.parse close body = .error e) :
    placeholder start cs = .error e := by
  obtain ⟨items, brace, rest, scanned, closes, valid, rfl⟩ := found
  have some : body.isEmpty = false := by simpa using nonempty
  simp only [placeholder, scanned, valid, closes, some, Bool.false_eq_true, if_false, failed]
  rfl

/-- A doubled brace opens no placeholder. -/
theorem head_ne_open (found : HasBody start cs body close) : cs.head? ≠ some '{' := by
  intro double
  obtain ⟨others, rfl⟩ := List.head?_eq_some_iff.mp double
  obtain ⟨items, brace, rest, scanned, closes, -⟩ := found
  have stops : lexUntil isBrace (start + 1) ('{' :: others) =
      ([], some (⟨⟨some .braceOpen, ['{']⟩, ⟨start + 1, start + 2⟩⟩, others)) := by
    rw [lexUntil]
    rfl
  rw [stops] at scanned
  cases scanned
  cases closes

theorem cuts_close (found : HasBody start cs body close) (tail : IsTail text (start + 1) cs) :
    Span.Cuts ⟨close, close + 1⟩ text ['}'] := by
  obtain ⟨items, brace, rest, scanned, closes, valid, rfl⟩ := found
  exact cuts_closing tail scanned closes valid

end Reader.HasBody

/-- Behind a text that is a template, a placeholder with a body that the grammar does not derive is
in error where the body stops to be the beginning of one, and all that could stand there is
expected. -/
theorem Template.isFault_of_hasBody {before after : String} {first : Template} {body : List Piece}
    {close : Nat} (parsed : parse before = .ok first)
    (found : Reader.HasBody before.utf8ByteSize after.toList body close) (nonempty : body ≠ [])
    (underivable : ¬ ∃ tree : Grammar.ExprTree, tree.pieces = body) :
    Span.Cuts ⟨close, close + 1⟩ (before ++ "\x7b" ++ after).toList ['}'] ∧
      ∃ front e, parse (before ++ "\x7b" ++ after) = .error e ∧
        Grammar.IsFault close body front e := by
  have chars : (before ++ "\x7b" ++ after).toList = before.toList ++ '{' :: after.toList := by
    simp
  cases read : Grammar.parse close body with
  | ok expr => exact absurd (Grammar.derives_of_parse read) underivable
  | error e =>
    obtain ⟨front, fault⟩ := Grammar.isFault_of_parse read
    refine ⟨?_, front, e, ?_, fault⟩
    · rw [chars]
      exact found.cuts_close (IsTail.drop_char ⟨before.toList, rfl, byteLength_toList before⟩)
    · rw [parse, chars, Reader.elements_append (elements_of_parse parsed), byteLength_toList,
        Nat.zero_add, Reader.elements_placeholder found.head_ne_open,
        found.placeholder_eq_error nonempty read]
      rfl

/-- A literal cannot stand behind a call in an argument. -/
theorem Template.isFault_of_hasBody_literal :
    let body : List Piece := [⟨.ident "a", ⟨3, 4⟩, "a"⟩, ⟨.parenOpen, ⟨4, 5⟩, "("⟩,
      ⟨.ident "b", ⟨5, 6⟩, "b"⟩, ⟨.yes, ⟨7, 11⟩, "true"⟩, ⟨.parenClose, ⟨11, 12⟩, ")"⟩]
    (∃ first, parse "é" = .ok first) ∧ Reader.HasBody 2 "a(b true)\x7d".toList body 12 ∧
      body ≠ [] ∧ (¬ ∃ tree : Grammar.ExprTree, tree.pieces = body) ∧
      Span.Cuts ⟨12, 13⟩ ("é" ++ "\x7b" ++ "a(b true)\x7d").toList ['}'] ∧
      ∃ front e, parse ("é" ++ "\x7b" ++ "a(b true)\x7d") = .error e ∧
        Grammar.IsFault 12 body front e := by
  intro body
  have chars : "é".toList = ['é'] := by decide +kernel
  have parsed : parse "é" = .ok ⟨[.text "é" ⟨0, 2⟩]⟩ := by
    rw [parse, chars]
    with_unfolding_all rfl
  have found : Reader.HasBody 2 "a(b true)\x7d".toList body 12 := by
    refine ⟨body.map fun piece => ⟨⟨some piece.token, piece.raw.toList⟩, piece.span⟩,
      ⟨⟨some .braceClose, ['}']⟩, ⟨12, 13⟩⟩, [], ?_, rfl, rfl, rfl⟩
    with_unfolding_all rfl
  have underivable : ¬ ∃ tree : Grammar.ExprTree, tree.pieces = body := by
    rintro ⟨tree, same⟩
    have read : (Grammar.parse 12 body).toOption = none := rfl
    rw [← same, Grammar.parse_pieces] at read
    cases read
  have nonempty : body ≠ [] := List.cons_ne_nil _ _
  exact ⟨⟨_, parsed⟩, found, nonempty, underivable,
    isFault_of_hasBody parsed found nonempty underivable⟩

end TypedTemplate
