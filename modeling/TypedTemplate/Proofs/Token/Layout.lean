import TypedTemplate.Proofs.Template.Elements
import TypedTemplate.Proofs.Text.Slice
import TypedTemplate.Proofs.Token.Lexer

/-!
Where the lexemes of a text stand. Each is cut out of the text by its span, they stand one behind
another, and there is nothing but blanks between them (`laid_of_lexUntil`).
-/
namespace TypedTemplate

/-! ## Slices in a row -/

/-- Whether there are only blanks between two positions of a text. -/
def IsGap (text : List Char) (start stop : Nat) : Prop :=
  ∃ blanks, Span.Cuts ⟨start, stop⟩ text blanks ∧ ∀ c ∈ blanks, isBlank c = true

/-- Whether these are the places and the characters of all that a text has between two positions,
apart from blanks. -/
def Laid (text : List Char) : Nat → List (Span × List Char) → Nat → Prop
  | start, [], stop => IsGap text start stop
  | start, (span, slice) :: rest, stop =>
    IsGap text start span.start ∧ span.Cuts text slice ∧ slice ≠ [] ∧
      Laid text span.stop rest stop

theorem utf8Size_of_isBlank {c : Char} (blank : isBlank c = true) : c.utf8Size = 1 := by
  simp only [isBlank, Bool.or_eq_true, decide_eq_true_eq] at blank
  rcases blank with ((((rfl | rfl) | rfl) | rfl) | rfl) | rfl <;> rfl

variable {text : List Char}

theorem IsGap.le {start stop : Nat} (gap : IsGap text start stop) : start ≤ stop := by
  obtain ⟨blanks, cuts, -⟩ := gap
  exact cuts.start_le

theorem isGap_self {position : Nat} (boundary : IsBoundary text position) :
    IsGap text position position := by
  obtain ⟨rest, tail⟩ := boundary
  exact ⟨[], ⟨rest, tail, rfl⟩, nofun⟩

theorem IsGap.cons {start stop : Nat} {c : Char} {rest : List Char}
    (tail : IsTail text start (c :: rest)) (blank : isBlank c = true)
    (gap : IsGap text (start + c.utf8Size) stop) : IsGap text start stop := by
  obtain ⟨blanks, ⟨others, onward, place⟩, all⟩ := gap
  obtain rfl := tail.drop_char.unique onward
  refine ⟨c :: blanks, ⟨others, tail, ?_⟩, List.forall_mem_cons.mpr ⟨blank, all⟩⟩
  rw [place, byteLength_cons, Nat.add_assoc]

/-- As blanks have one byte each, at each byte of a gap there is one. -/
theorem IsGap.blank_at {start stop byte : Nat} (gap : IsGap text start stop) (after : start ≤ byte)
    (before : byte < stop) : ∃ c rest, IsTail text byte (c :: rest) ∧ isBlank c = true := by
  obtain ⟨blanks, ⟨rest, tail, place⟩, all⟩ := gap
  dsimp only at tail place
  subst place
  induction blanks generalizing start with
  | nil =>
    rw [byteLength_nil] at before
    omega
  | cons c others ih =>
    obtain ⟨blank, later⟩ := List.forall_mem_cons.mp all
    have single := utf8Size_of_isBlank blank
    rcases Nat.eq_or_lt_of_le after with rfl | past
    · exact ⟨c, others ++ rest, tail, blank⟩
    · refine ih (by omega) later tail.drop_char ?_
      rw [byteLength_cons, ← Nat.add_assoc] at before
      exact before

theorem Laid.blank {start stop : Nat} {c : Char} {rest : List Char}
    {slices : List (Span × List Char)} (tail : IsTail text start (c :: rest))
    (blank : isBlank c = true) (laid : Laid text (start + c.utf8Size) slices stop) :
    Laid text start slices stop := by
  cases slices with
  | nil => exact IsGap.cons tail blank laid
  | cons first others => exact ⟨IsGap.cons tail blank laid.1, laid.2⟩

theorem Laid.le {start stop : Nat} {slices : List (Span × List Char)}
    (laid : Laid text start slices stop) : start ≤ stop := by
  induction slices generalizing start with
  | nil => exact IsGap.le laid
  | cons first others ih =>
    obtain ⟨gap, cuts, -, behind⟩ := laid
    exact gap.le.trans (cuts.start_le.trans (ih behind))

/-- Slices in a row can be parted anywhere. -/
theorem Laid.split {start stop : Nat} {first second : List (Span × List Char)}
    (laid : Laid text start (first ++ second) stop) (boundary : IsBoundary text start) :
    ∃ middle, IsBoundary text middle ∧ Laid text start first middle ∧
      Laid text middle second stop := by
  induction first generalizing start with
  | nil => exact ⟨start, boundary, isGap_self boundary, laid⟩
  | cons slice others ih =>
    obtain ⟨gap, cuts, nonempty, behind⟩ := laid
    obtain ⟨middle, between, front, back⟩ := ih behind cuts.isBoundary_stop
    exact ⟨middle, between, ⟨gap, cuts, nonempty, front⟩, back⟩

/-- Each slice stands between the two positions. -/
theorem Laid.cuts_of_mem {start stop : Nat} {slices : List (Span × List Char)}
    (laid : Laid text start slices stop) {span : Span} {slice : List Char}
    (member : (span, slice) ∈ slices) :
    span.Cuts text slice ∧ slice ≠ [] ∧ start ≤ span.start ∧ span.stop ≤ stop := by
  induction slices generalizing start with
  | nil => cases member
  | cons first others ih =>
    obtain ⟨gap, cuts, nonempty, behind⟩ := laid
    rcases List.mem_cons.mp member with rfl | later
    · exact ⟨cuts, nonempty, gap.le, behind.le⟩
    · obtain ⟨found, some, after, inside⟩ := ih behind later
      exact ⟨found, some, (gap.le.trans cuts.start_le).trans after, inside⟩

/-- Each byte is in a slice or is a blank. -/
theorem Laid.covers {start stop byte : Nat} {slices : List (Span × List Char)}
    (laid : Laid text start slices stop) (after : start ≤ byte) (before : byte < stop) :
    (∃ slice ∈ slices, slice.1.start ≤ byte ∧ byte < slice.1.stop) ∨
      ∃ c rest, IsTail text byte (c :: rest) ∧ isBlank c = true := by
  induction slices generalizing start with
  | nil => exact .inr (IsGap.blank_at laid after before)
  | cons first others ih =>
    obtain ⟨gap, cuts, -, behind⟩ := laid
    rcases Nat.lt_or_ge byte first.1.start with early | late
    · exact .inr (gap.blank_at after early)
    rcases Nat.lt_or_ge byte first.1.stop with inside | past
    · exact .inl ⟨first, List.mem_cons_self, late, inside⟩
    rcases ih behind past with ⟨slice, member, found⟩ | blank
    · exact .inl ⟨slice, List.mem_cons_of_mem _ member, found⟩
    · exact .inr blank

theorem Laid.pairwise {start stop : Nat} {slices : List (Span × List Char)}
    (laid : Laid text start slices stop) : slices.Pairwise fun a b => a.1.stop ≤ b.1.start := by
  induction slices generalizing start with
  | nil => exact .nil
  | cons first others ih =>
    obtain ⟨-, -, -, behind⟩ := laid
    exact .cons (fun other member => (behind.cuts_of_mem member).2.2.1) (ih behind)

/-- Behind the last slice there are only blanks. -/
theorem Laid.gap_end {start stop : Nat} {slices : List (Span × List Char)}
    (laid : Laid text start slices stop) :
    IsGap text (slices.foldl (fun _ slice => slice.1.stop) start) stop := by
  induction slices generalizing start with
  | nil => exact laid
  | cons first others ih => exact ih laid.2.2.2

/-! ## Lexemes -/

namespace Lexer

theorem takeString_prefix (cs : List Char) : (takeString cs).2 <+: cs := by
  fun_induction takeString cs with
  | case1 => exact List.prefix_refl _
  | case2 => exact List.cons_prefix_cons.mpr ⟨rfl, List.nil_prefix⟩
  | case3 => exact List.nil_prefix
  | case4 c others other stop inner scanned ih =>
    rw [scanned] at ih
    simpa using ih
  | case5 => exact List.nil_prefix
  | case6 c others quote _ other stop inner scanned ih =>
    rw [scanned] at ih
    simpa using ih

theorem stringLexeme_source (cs : List Char) :
    (stringLexeme cs).source = '"' :: (takeString cs).2 := by
  unfold stringLexeme
  split
  · rename_i body unclosed
    rw [unclosed]
  · rename_i body closed
    rw [closed]

/-- A lexeme is read off the front, also if it is in error. -/
theorem munch_source_prefix (c : Char) (cs : List Char) :
    ∃ tail, (munch c cs).source = c :: tail ∧ tail <+: cs := by
  unfold munch
  split
  · exact ⟨[], rfl, List.nil_prefix⟩
  · split
    · rename_i quote
      rw [quote]
      exact ⟨_, stringLexeme_source cs, takeString_prefix cs⟩
    · split
      · rename_i name
        obtain ⟨whole, some, -⟩ := wordLexeme_spec cs name
        obtain ⟨first, tail, source⟩ := List.exists_cons_of_ne_nil some
        rw [source] at whole ⊢
        obtain ⟨rfl, front⟩ := List.cons_prefix_cons.mp whole
        exact ⟨tail, rfl, front⟩
      · exact ⟨[], rfl, List.nil_prefix⟩

end Lexer

/-- A lexeme as a slice of its text. -/
def Located.slice (item : Located) : Span × List Char := (item.span, item.lexeme.source)

theorem IsTail.munch {offset : Nat} {c : Char} {rest : List Char}
    (tail : IsTail text offset (c :: rest)) :
    (Lexer.munch c rest).source ≠ [] ∧ IsTail text offset
      ((Lexer.munch c rest).source ++ rest.drop ((Lexer.munch c rest).source.length - 1)) := by
  obtain ⟨taken, source, later, rfl⟩ := Lexer.munch_source_prefix c rest
  have past : (taken ++ later).drop ((c :: taken).length - 1) = later := List.drop_left
  rw [source, past]
  exact ⟨List.cons_ne_nil _ _, tail⟩

theorem laid_of_lexUntil {stop : Token → Bool} {offset : Nat} {cs : List Char}
    {items : List Located} {last : Option (Located × List Char)}
    (tail : IsTail text offset cs) (scanned : lexUntil stop offset cs = (items, last)) :
    ∃ close, Laid text offset (items.map Located.slice) close ∧
      (last = none → close = byteLength text) ∧
      ∀ item rest, last = some (item, rest) → item.span.start = close ∧
        item.span.Cuts text item.lexeme.source ∧ item.lexeme.source ≠ [] ∧
        IsTail text item.span.stop rest := by
  fun_induction lexUntil stop offset cs generalizing items with
  | case1 offset =>
    cases scanned
    obtain ⟨front, rfl, rfl⟩ := tail
    refine ⟨byteLength front, isGap_self ?_, fun _ => ?_, fun item rest same => ?_⟩
    · exact ⟨_, front, rfl, rfl⟩
    · rw [List.append_nil]
    · cases same
  | case2 offset c rest blank ih =>
    obtain ⟨close, laid, others⟩ := ih tail.drop_char scanned
    exact ⟨close, laid.blank tail blank, others⟩
  | case3 offset c rest solid lexeme found behind =>
    cases scanned
    obtain ⟨nonempty, cuts⟩ := tail.munch
    refine ⟨offset, isGap_self tail.isBoundary, fun same => ?_, fun item rest same => ?_⟩
    · cases same
    · cases same
      exact ⟨rfl, cuts.cuts, nonempty, cuts.drop⟩
  | case4 offset c rest solid lexeme found behind goes others last scannedRest =>
    rename_i ih
    simp only [Prod.mk.injEq] at scanned
    obtain ⟨rfl, rfl⟩ := scanned
    obtain ⟨nonempty, cuts⟩ := tail.munch
    obtain ⟨close, laid, ends⟩ := ih cuts.drop scannedRest
    exact ⟨close, ⟨isGap_self tail.isBoundary, cuts.cuts, nonempty, laid⟩, ends⟩

/-- What stops at no token goes on to the end. -/
theorem lexUntil_snd_eq_none (offset : Nat) (cs : List Char) :
    (lexUntil (fun _ => false) offset cs).2 = none := by
  fun_induction lexUntil (fun _ => false) offset cs with
  | case1 => rfl
  | case2 _ _ _ _ ih => exact ih
  | case3 _ _ _ _ _ _ _ stops => simp at stops
  | case4 _ _ _ _ _ _ _ _ _ _ scanned ih =>
    rw [scanned] at ih
    exact ih

theorem laid_lex (text : String) :
    Laid text.toList 0 ((lex text).map Located.slice) text.utf8ByteSize := by
  obtain ⟨close, laid, whole, -⟩ :=
    @laid_of_lexUntil text.toList (fun _ => false) _ _ _ _ (isTail_zero _) rfl
  rw [whole (lexUntil_snd_eq_none 0 text.toList), byteLength_toList] at laid
  exact laid

/-! ## Pieces -/

/-- A piece of a body as a slice of its text. -/
def Piece.slice (piece : Piece) : Span × List Char := (piece.span, piece.raw.toList)

namespace Reader

theorem slices_of_pieces {items : List Located} {body : List Piece}
    (read : pieces items = .ok body) : body.map Piece.slice = items.map Located.slice := by
  have paired := forall₂_pieces read
  clear read
  induction paired with
  | nil => rfl
  | @cons item piece _ _ first _ ih =>
    rw [List.map_cons, List.map_cons, ih, first.2, Piece.slice, String.toList_ofList]
    rfl

theorem exists_of_pieces_eq_error {items : List Located} {span : Span}
    (failed : pieces items = .error span) : ∃ item ∈ items, item.span = span := by
  induction items with
  | nil => cases failed
  | cons item rest ih =>
    rw [pieces] at failed
    cases valid : item.lexeme.token with
    | none =>
      rw [valid] at failed
      cases failed
      exact ⟨item, List.mem_cons_self, rfl⟩
    | some token =>
      rw [valid] at failed
      cases others : pieces rest with
      | error e =>
        rw [others] at failed
        cases failed
        obtain ⟨item, member, same⟩ := ih others
        exact ⟨item, List.mem_cons_of_mem _ member, same⟩
      | ok body =>
        rw [others] at failed
        cases failed

end Reader

end TypedTemplate
