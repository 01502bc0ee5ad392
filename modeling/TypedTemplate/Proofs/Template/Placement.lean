import TypedTemplate.Proofs.Template.Printability
import TypedTemplate.Proofs.Template.Seam
import TypedTemplate.Proofs.Token.Layout

/-!
Where the parts of a template stand. A parsed template keeps the place of every element, call and
argument, and these are faithful (`Template.stands_of_parse`): the elements tile the text, what is
in a placeholder stands between its braces in written order, and whatever is nested stands inside
the argument around it. Since the pieces of a body stand in a row (`Laid`), so do the parts of its
derivation, one case for each kind of part.
-/
namespace TypedTemplate

/-! ## Faithful places -/

/-- Whether a place is some characters of a text between two positions. -/
structure Span.Lies (text : List Char) (start stop : Nat) (span : Span) : Prop where
  nonempty : span.start < span.stop
  starts : IsBoundary text span.start
  stops : IsBoundary text span.stop
  after : start ≤ span.start
  before : span.stop ≤ stop

mutual

/-- Whether all parts stand between two positions, one behind another, and what is nested stands
inside what is around it. -/
def Call.Stands (text : List Char) (start stop : Nat) : Call → Prop
  | .bare _ span => span.Lies text start stop
  | .applied _ args span => span.Lies text start stop ∧ args.Stands text span.start span.stop

def Args.Stands (text : List Char) (start stop : Nat) : Args → Prop
  | .nil => True
  | .cons arg rest => arg.Stands text start stop ∧ rest.Stands text arg.span.stop stop

def Arg.Stands (text : List Char) (start stop : Nat) : Arg → Prop
  | .mk _ value span => span.Lies text start stop ∧ value.Stands text span.start span.stop

/-- The raw text of a literal is a slice of the text. -/
def ArgValue.Stands (text : List Char) (start stop : Nat) : ArgValue → Prop
  | .literal literal => ∃ span : Span, span.Lies text start stop ∧ span.Cuts text literal.raw.toList
  | .expr expr => expr.Stands text start stop

def Chain.Stands (text : List Char) (start stop : Nat) : Chain → Prop
  | .first call => call.Stands text start stop
  | .next parent call => parent.Stands text start call.span.start ∧ call.Stands text start stop

def Expr.Stands (text : List Char) (start stop : Nat) : Expr → Prop
  | .arm main => main.Stands text start stop
  | .orElse main others =>
    main.Stands text start stop ∧ others.Stands text main.last.span.stop stop

end

/-- A text with its doubled braces made single, unless a brace is not doubled. -/
def decodeBraces : List Char → Option (List Char)
  | [] => some []
  | c :: rest =>
    if Reader.isBraceChar c then
      match rest with
      | d :: others => if d = c then (decodeBraces others).map (c :: ·) else none
      | [] => none
    else (decodeBraces rest).map (c :: ·)

theorem decodeBraces_double {c : Char} (brace : Reader.isBraceChar c = true) (rest : List Char) :
    decodeBraces (c :: c :: rest) = (decodeBraces rest).map (c :: ·) := by
  rw [decodeBraces, if_pos brace, if_pos rfl]

theorem decodeBraces_plain {c : Char} (plain : Reader.isBraceChar c = false) (rest : List Char) :
    decodeBraces (c :: rest) = (decodeBraces rest).map (c :: ·) := by
  rw [decodeBraces.eq_def]
  simp only [plain, Bool.false_eq_true, if_false]

/-- Whether an element is what its slice of the text says: the text of which it is the decoding, or
a placeholder between braces. -/
def Element.Stands (text : List Char) : Element → Prop
  | .text raw span => ∃ slice, span.Cuts text slice ∧ decodeBraces slice = some raw.toList
  | .placeholder expr span => ∃ body, span.Cuts text ('{' :: (body ++ ['}'])) ∧
    expr.Stands text (span.start + 1) (span.stop - 1)

/-- Whether the places of elements follow each other without a gap and none is empty. -/
def Tiles (start : Nat) : List Element → Nat → Prop
  | [], stop => start = stop
  | element :: rest, stop =>
    element.span.start = start ∧ start < element.span.stop ∧ Tiles element.span.stop rest stop

variable {text : List Char}

/-! ## Derivations -/

namespace Span.Lies

variable {start stop : Nat} {span : Span}

theorem within (lies : span.Lies text start stop) {first last : Nat} (after : first ≤ span.start)
    (before : span.stop ≤ last) : span.Lies text first last :=
  { lies with after := after, before := before }

/-- A place together with what is in front of it. -/
theorem fromStart (lies : span.Lies text start stop) (boundary : IsBoundary text start) :
    Span.Lies text start stop ⟨start, span.stop⟩ :=
  { lies with nonempty := lies.after.trans_lt lies.nonempty, starts := boundary, after := le_rfl }

/-- From one place to another behind it. -/
theorem join {middle later : Nat} {next : Span} (lies : span.Lies text start middle)
    (order : middle ≤ later) (behind : next.Lies text later stop) :
    Span.Lies text start stop ⟨span.start, next.stop⟩ where
  nonempty := lies.nonempty.trans_le
    (lies.before.trans (order.trans (behind.after.trans behind.nonempty.le)))
  starts := lies.starts
  stops := behind.stops
  after := lies.after
  before := behind.before

end Span.Lies

/-- Whether something stands between any two positions around these. -/
def Around (stands : Nat → Nat → Prop) (start stop : Nat) : Prop :=
  ∀ first last, first ≤ start → stop ≤ last → stands first last

namespace Grammar

/-- Whether these are the pieces that a text has between two positions. -/
def Spans (text : List Char) (start : Nat) (pieces : List Piece) (stop : Nat) : Prop :=
  IsBoundary text start ∧ Laid text start (pieces.map Piece.slice) stop

variable {start stop : Nat}

theorem Spans.append {first second : List Piece}
    (spans : Spans text start (first ++ second) stop) :
    ∃ middle, Spans text start first middle ∧ Spans text middle second stop := by
  obtain ⟨boundary, laid⟩ := spans
  rw [List.map_append] at laid
  obtain ⟨middle, between, front, back⟩ := laid.split boundary
  exact ⟨middle, ⟨boundary, front⟩, ⟨between, back⟩⟩

theorem Spans.cons {piece : Piece} {rest : List Piece}
    (spans : Spans text start (piece :: rest) stop) :
    piece.span.Lies text start stop ∧ piece.span.Cuts text piece.raw.toList ∧
      Spans text piece.span.stop rest stop := by
  obtain ⟨-, gap, cuts, nonempty, behind⟩ := spans
  exact ⟨⟨cuts.start_lt nonempty, cuts.isBoundary_start, cuts.isBoundary_stop, gap.le, behind.le⟩,
    cuts, cuts.isBoundary_stop, behind⟩

theorem NameTree.lies_more {more : List (Mark × Word)}
    (spans : Spans text start (morePieces more) stop) :
    let last := more.foldl (fun _ entry => entry.2.span.stop) start
    IsBoundary text last ∧ start ≤ last ∧ last ≤ stop := by
  induction more generalizing start with
  | nil => exact ⟨spans.1, le_rfl, spans.2.le⟩
  | cons entry more ih =>
    have split : Spans text start
        (entry.1.piece .colon :: entry.2.piece :: morePieces more) stop := spans
    obtain ⟨colon, -, behind⟩ := split.cons
    obtain ⟨word, -, others⟩ := behind.cons
    obtain ⟨boundary, after, before⟩ := ih others
    have reached : start ≤ entry.2.span.stop :=
      colon.after.trans (colon.nonempty.le.trans (word.after.trans word.nonempty.le))
    exact ⟨boundary, reached.trans after, before⟩

theorem NameTree.lies_span {name : NameTree} (spans : Spans text start name.pieces stop) :
    name.span.Lies text start stop := by
  obtain ⟨first, -, behind⟩ := spans.cons
  obtain ⟨boundary, after, before⟩ := lies_more behind
  exact ⟨first.nonempty.trans_le after, first.starts, boundary, first.after, before⟩

theorem raw_of_literal? {piece : Piece} {literal : Literal}
    (reads : literal? piece = some literal) : literal.raw = piece.raw := by
  obtain ⟨token, span, raw⟩ := piece
  cases token <;> cases reads <;> rfl

theorem around_extend {before : Option Chain} {call : Call} {middle : Nat}
    (parents : ∀ parent ∈ before, Around (parent.Stands text) start middle)
    (between : middle ≤ call.span.start) (after : start ≤ call.span.start)
    (around : Around (call.Stands text) call.span.start call.span.stop) :
    Around ((Chain.extend before call).Stands text) start call.span.stop := by
  intro first last begins ends
  have stands := around first last (begins.trans after) ends
  cases before with
  | none => exact stands
  | some parent => exact ⟨parents parent rfl first _ begins between, stands⟩

/-- An argument and those behind it. -/
theorem placed_cons {arg : Arg} {rest : Args} {middle last : Nat} (boundary : IsBoundary text start)
    (lies : arg.span.Lies text start middle)
    (around : Around (arg.Stands text) arg.span.start arg.span.stop)
    (liesRest : Span.Lies text middle stop ⟨middle, last⟩)
    (aroundRest : Around (rest.Stands text) middle last) :
    Span.Lies text start stop ⟨start, last⟩ ∧
      Around ((Args.cons arg rest).Stands text) start last := by
  refine ⟨(lies.join le_rfl liesRest).fromStart boundary, fun first final begins ends => ?_⟩
  have inside : arg.span.stop ≤ final :=
    lies.before.trans (liesRest.nonempty.le.trans ends)
  exact ⟨around first final (begins.trans lies.after) inside,
    aroundRest arg.span.stop final lies.before ends⟩

mutual

theorem ExprTree.placed (expr : ExprTree) {start stop : Nat}
    (spans : Spans text start expr.pieces stop) :
    Span.Lies text start stop ⟨expr.first.span.start, expr.stop⟩ ∧
      Around (expr.toExpr.Stands text) expr.first.span.start expr.stop := by
  cases expr with
  | arm main =>
    obtain ⟨lies, around⟩ := main.placed spans
    exact ⟨lies, around none _ nofun le_rfl⟩
  | orElse main bar others =>
    obtain ⟨middle, front, back⟩ := spans.append
    obtain ⟨lies, around⟩ := main.placed front
    obtain ⟨mark, -, behind⟩ := back.cons
    obtain ⟨liesOthers, aroundOthers⟩ := others.placed behind
    have order : middle ≤ bar.span.stop := mark.after.trans mark.nonempty.le
    refine ⟨lies.join order liesOthers, fun first last begins ends => ?_⟩
    have apart : main.stop ≤ others.first.span.start :=
      lies.before.trans (order.trans liesOthers.after)
    refine ⟨around none _ nofun le_rfl first last begins ?_, aroundOthers _ last ?_ ends⟩
    · exact apart.trans (liesOthers.nonempty.le.trans ends)
    · rw [main.last_toChain]
      exact apart

/-- A chain stands behind the calls that it goes on with. -/
theorem ChainTree.placed (chain : ChainTree) {start stop : Nat}
    (spans : Spans text start chain.pieces stop) :
    Span.Lies text start stop ⟨chain.first.span.start, chain.stop⟩ ∧
      ∀ (before : Option Chain) (first : Nat),
        (∀ parent ∈ before, Around (parent.Stands text) first start) →
        first ≤ chain.first.span.start →
        Around ((chain.toChain before).Stands text) first chain.stop := by
  cases chain with
  | last call =>
    obtain ⟨lies, around⟩ := call.placed spans
    rw [call.span_toCall] at lies around
    refine ⟨lies, fun before first parents begins => ?_⟩
    have extended := @around_extend text first before call.toCall start parents
    rw [call.span_toCall] at extended
    exact extended lies.after begins around
  | cons call rest =>
    obtain ⟨middle, front, back⟩ := spans.append
    obtain ⟨lies, around⟩ := call.placed front
    obtain ⟨liesRest, aroundRest⟩ := rest.placed back
    rw [call.span_toCall] at lies around
    refine ⟨lies.join le_rfl liesRest, fun before first parents begins => ?_⟩
    have extended := @around_extend text first before call.toCall start parents
    rw [call.span_toCall] at extended
    refine aroundRest _ first ?_ ?_
    · rintro parent ⟨⟩ from' to' start' stop'
      exact extended lies.after begins around from' to' start' (lies.before.trans stop')
    · exact begins.trans (lies.nonempty.le.trans (lies.before.trans liesRest.after))

theorem CallTree.placed (call : CallTree) {start stop : Nat}
    (spans : Spans text start call.pieces stop) :
    call.toCall.span.Lies text start stop ∧
      Around (call.toCall.Stands text) call.toCall.span.start call.toCall.span.stop := by
  cases call with
  | bare name =>
    have lies := NameTree.lies_span spans
    exact ⟨lies, fun _ _ begins ends => lies.within begins ends⟩
  | applied name mark args =>
    obtain ⟨middle, front, back⟩ := spans.append
    have lies := NameTree.lies_span front
    obtain ⟨opening, -, behind⟩ := back.cons
    obtain ⟨liesArgs, around⟩ := args.placed behind
    have order : middle ≤ mark.span.stop := opening.after.trans opening.nonempty.le
    have whole := lies.join order liesArgs
    refine ⟨whole, fun first last begins ends => ⟨whole.within begins ends, ?_⟩⟩
    exact around _ _ (lies.nonempty.le.trans (lies.before.trans order)) le_rfl

/-- The arguments stand behind the opening parenthesis, up to the closing one. -/
theorem ArgsTree.placed (args : ArgsTree) {start stop : Nat}
    (spans : Spans text start args.pieces stop) :
    Span.Lies text start stop ⟨start, args.stop⟩ ∧
      Around (args.toArgs.Stands text) start args.stop := by
  cases args with
  | empty mark => exact ⟨spans.cons.1.fromStart spans.1, fun _ _ _ _ => trivial⟩
  | cons arg more =>
    obtain ⟨middle, front, back⟩ := spans.append
    obtain ⟨lies, around⟩ := arg.placed front
    obtain ⟨liesMore, aroundMore⟩ := more.placed back
    exact placed_cons spans.1 lies around liesMore aroundMore

theorem MoreArgsTree.placed (more : MoreArgsTree) {start stop : Nat}
    (spans : Spans text start more.pieces stop) :
    Span.Lies text start stop ⟨start, more.stop⟩ ∧
      Around (more.toArgs.Stands text) start more.stop := by
  cases more with
  | done mark => exact ⟨spans.cons.1.fromStart spans.1, fun _ _ _ _ => trivial⟩
  | trailing comma mark =>
    obtain ⟨separator, -, behind⟩ := spans.cons
    have closing := behind.cons.1.within (separator.after.trans
      (separator.nonempty.le.trans behind.cons.1.after)) behind.cons.1.before
    exact ⟨closing.fromStart spans.1, fun _ _ _ _ => trivial⟩
  | cons comma arg more =>
    obtain ⟨separator, -, behind⟩ := spans.cons
    obtain ⟨middle, front, back⟩ := behind.append
    obtain ⟨lies, around⟩ := arg.placed front
    obtain ⟨liesMore, aroundMore⟩ := more.placed back
    have after : start ≤ comma.span.stop := separator.after.trans separator.nonempty.le
    exact placed_cons spans.1 (lies.within (after.trans lies.after) lies.before) around liesMore
      aroundMore

theorem ArgTree.placed (arg : ArgTree) {start stop : Nat}
    (spans : Spans text start arg.pieces stop) :
    arg.toArg.span.Lies text start stop ∧
      Around (arg.toArg.Stands text) arg.toArg.span.start arg.toArg.span.stop := by
  cases arg with
  | unnamed value =>
    obtain ⟨lies, around⟩ := value.placed spans
    exact ⟨lies, fun _ _ begins ends => ⟨lies.within begins ends, around _ _ le_rfl le_rfl⟩⟩
  | named label equals value =>
    obtain ⟨name, -, behind⟩ := spans.cons
    obtain ⟨mark, -, back⟩ := behind.cons
    obtain ⟨lies, around⟩ := value.placed back
    have order : label.span.stop ≤ equals.span.stop := mark.after.trans mark.nonempty.le
    have whole := (name.within name.after le_rfl).join order lies
    refine ⟨whole, fun first last begins ends => ⟨whole.within begins ends, ?_⟩⟩
    exact around _ _ (name.nonempty.le.trans (order.trans lies.after)) le_rfl

theorem ValueTree.placed (value : ValueTree) {start stop : Nat}
    (spans : Spans text start value.pieces stop) :
    Span.Lies text start stop ⟨value.start, value.stop⟩ ∧
      Around (value.toValue.Stands text) value.start value.stop := by
  cases value with
  | literal leaf =>
    obtain ⟨lies, cuts, -⟩ := spans.cons
    rw [← raw_of_literal? leaf.reads] at cuts
    exact ⟨lies, fun _ _ begins ends => ⟨leaf.piece.span, lies.within begins ends, cuts⟩⟩
  | expr inner => exact inner.placed spans

end

end Grammar

/-! ## Elements -/

namespace Reader

theorem stands_placeholder {start : Nat} {cs : List Char} {p : Placeholder}
    (tail : IsTail text start ('{' :: cs)) (read : placeholder start cs = .ok p) :
    (Element.placeholder p.expr ⟨start, p.stop⟩).Stands text ∧ IsTail text p.stop p.rest := by
  obtain ⟨items, brace, body, scanned, closes, valid, parsed, stop⟩ := placeholder_eq_ok read
  obtain ⟨inner, rfl, place, -⟩ := lexUntil_cut scanned closes (valid_of_pieces valid)
  have within : IsTail text (start + 1) (inner ++ '}' :: p.rest) := tail.drop_char
  obtain ⟨close, laid, -, ends⟩ := laid_of_lexUntil within scanned
  obtain ⟨atClose, -, -, behind⟩ := ends brace p.rest rfl
  rw [← slices_of_pieces valid] at laid
  obtain ⟨tree, rfl⟩ := Grammar.derives_of_parse parsed
  rw [Grammar.parse_pieces] at parsed
  have same := Except.ok.inj parsed
  obtain ⟨lies, around⟩ := tree.placed ⟨within.isBoundary, laid⟩
  have ends : p.stop = start + 1 + byteLength inner + 1 := by rw [stop, place]
  have inside : close = p.stop - 1 := by rw [← atClose, place, ends, Nat.add_sub_cancel]
  rw [← same]
  refine ⟨⟨inner, ⟨p.rest, by simpa using tail, ?_⟩, ?_⟩, by rw [stop]; exact behind⟩
  · have opening : Char.utf8Size '{' = 1 := rfl
    have closing : Char.utf8Size '}' = 1 := rfl
    simp only [ends, byteLength_cons, byteLength_append, byteLength_nil, opening, closing]
    omega
  · exact around _ _ lies.after (lies.before.trans inside.le)

/-- Text in front of elements stands where its slice is. -/
theorem stands_consText {offset next stop : Nat} {slice : List Char} {raw : String}
    {found : List Element} (cuts : Span.Cuts ⟨offset, next⟩ text slice) (nonempty : slice ≠ [])
    (decodes : ∀ more, decodeBraces (slice ++ more) = (decodeBraces more).map (raw.toList ++ ·))
    (tiles : Tiles next found stop) (stands : ∀ element ∈ found, element.Stands text) :
    Tiles offset (consText raw ⟨offset, next⟩ found) stop ∧
      ∀ element ∈ consText raw ⟨offset, next⟩ found, element.Stands text := by
  have size : offset < next := cuts.start_lt nonempty
  have alone : decodeBraces slice = some raw.toList := by
    have whole := decodes []
    rwa [List.append_nil, decodeBraces, Option.map_some, List.append_nil] at whole
  match found with
  | [] => exact ⟨⟨rfl, size, tiles⟩, List.forall_mem_singleton.mpr ⟨slice, cuts, alone⟩⟩
  | .placeholder expr span :: rest =>
    exact ⟨⟨rfl, size, tiles⟩, List.forall_mem_cons.mpr ⟨⟨slice, cuts, alone⟩, stands⟩⟩
  | .text more ⟨start, last⟩ :: rest =>
    obtain ⟨rfl, longer, behind⟩ := tiles
    obtain ⟨⟨others, cuts', decoded⟩, later⟩ := List.forall_mem_cons.mp stands
    refine ⟨⟨rfl, size.trans longer, behind⟩, List.forall_mem_cons.mpr ⟨?_, later⟩⟩
    refine ⟨slice ++ others, cuts.append cuts', ?_⟩
    rw [decodes, decoded, Option.map_some, String.toList_append]

theorem stands_elements {offset : Nat} {cs : List Char} {found : List Element}
    (tail : IsTail text offset cs) (read : elements offset cs = .ok found) :
    Tiles offset found (byteLength text) ∧ ∀ element ∈ found, element.Stands text := by
  induction offset, cs using text_induction generalizing found with
  | nil offset =>
    rw [elements_nil] at read
    cases read
    obtain ⟨front, rfl, rfl⟩ := tail
    exact ⟨by rw [Tiles, List.append_nil], nofun⟩
  | double offset c rest brace ih =>
    rw [elements_double brace] at read
    obtain ⟨others, onward, rfl⟩ := exists_of_map_eq_ok read
    have cuts := @IsTail.cuts text offset [c, c] rest tail
    have size : byteLength [c, c] = 2 := by
      rw [byteLength_cons, byteLength_cons, utf8Size_of_isBraceChar brace, byteLength_nil]
    have behind := @IsTail.drop text offset [c, c] rest tail
    rw [size] at cuts behind
    obtain ⟨tiles, stands⟩ := ih behind onward
    refine stands_consText cuts (by simp) (fun more => ?_) tiles stands
    rw [String.toList_singleton]
    exact decodeBraces_double brace more
  | unmatched offset rest single =>
    rw [elements_unmatched single] at read
    cases read
  | placeholder offset rest single ih =>
    obtain ⟨p, others, scanned, onward, rfl⟩ := elements_placeholder_eq_ok single read
    obtain ⟨first, behind⟩ := stands_placeholder tail scanned
    obtain ⟨tiles, stands⟩ := ih p scanned behind onward
    obtain ⟨body, cuts, -⟩ := id first
    exact ⟨⟨rfl, cuts.start_lt (by simp), tiles⟩, List.forall_mem_cons.mpr ⟨first, stands⟩⟩
  | plain offset c rest plain ih =>
    rw [elements_plain plain] at read
    obtain ⟨others, onward, rfl⟩ := exists_of_map_eq_ok read
    have cuts := @IsTail.cuts text offset [c] rest tail
    obtain ⟨tiles, stands⟩ := ih tail.drop_char onward
    refine stands_consText cuts (by simp) (fun more => ?_) tiles stands
    rw [String.toList_singleton]
    exact decodeBraces_plain plain more

end Reader

/-- Every parsed template is well formed and its places are faithful. Its names are words, its
literals read by themselves as their values, and its texts are neither empty nor beside each other;
its elements tile the text, and each with all its parts stands in it. -/
theorem Template.stands_of_parse {text : String} {template : Template}
    (parsed : parse text = .ok template) :
    template.IsPrintable ∧ Tiles 0 template.elements text.utf8ByteSize ∧
      ∀ element ∈ template.elements, element.Stands text.toList := by
  have read := elements_of_parse parsed
  obtain ⟨tiles, stands⟩ := Reader.stands_elements (isTail_zero text.toList) read
  rw [byteLength_toList] at tiles
  exact ⟨isPrintable_of_parse parsed, tiles, stands⟩

/-- Places are counted in bytes. -/
theorem Template.stands_of_parse_bytes :
    let text := "é\x7b\x7b\x7bf(a = \"ä\", g x(true)) | y\x7d\x7d\x7d"
    ∃ template, parse text = .ok template ∧
      template.elements.map Element.span = [⟨0, 4⟩, ⟨4, 32⟩, ⟨32, 34⟩] ∧
      template.IsPrintable ∧ Tiles 0 template.elements 34 ∧
      ∀ element ∈ template.elements, element.Stands text.toList := by
  intro text
  have read : (parse text).toOption.map (·.elements.map Element.span) =
      some [⟨0, 4⟩, ⟨4, 32⟩, ⟨32, 34⟩] := by decide +kernel
  cases parsed : parse text with
  | error e =>
    rw [parsed] at read
    cases read
  | ok template =>
    rw [parsed] at read
    exact ⟨template, rfl, Option.some.inj read, stands_of_parse parsed⟩

end TypedTemplate
