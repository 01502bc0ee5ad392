import Mathlib.Data.List.Forall2
import TypedTemplate.Template.Reader

/-!
How the elements of a text are read. A placeholder is a body of the grammar up to its closing
brace (`Reader.placeholder_eq_ok`). Outside placeholders a text is read one character at a time: a
doubled brace and any other character join the text behind them (`Reader.elements_double`,
`Reader.elements_plain`). Proofs about all texts go by these cases (`Reader.text_induction`).
-/
namespace TypedTemplate

theorem exists_of_map_eq_ok {α β ε : Type} {f : α → β} {x : Except ε α} {result : β}
    (mapped : x.map f = .ok result) : ∃ a, x = .ok a ∧ f a = result := by
  cases x with
  | error e => cases mapped
  | ok a =>
    cases mapped
    exact ⟨a, rfl, rfl⟩

theorem Template.elements_of_parse {text : String} {template : Template}
    (parsed : parse text = .ok template) :
    Reader.elements 0 text.toList = .ok template.elements := by
  obtain ⟨found, read, rfl⟩ := exists_of_map_eq_ok parsed
  exact read

namespace Reader

/-! ## Placeholders -/

/-- Lexemes that have been read as a body are valid, and the body has a piece for each. -/
theorem forall₂_pieces {items : List Located} {body : List Piece}
    (read : pieces items = .ok body) :
    List.Forall₂ (fun item piece => item.lexeme.token = some piece.token ∧
      piece = ⟨piece.token, item.span, String.ofList item.lexeme.source⟩) items body := by
  induction items generalizing body with
  | nil =>
    cases read
    exact .nil
  | cons item rest ih =>
    rw [pieces] at read
    cases valid : item.lexeme.token with
    | none =>
      rw [valid] at read
      cases read
    | some token =>
      rw [valid] at read
      obtain ⟨others, behind, rfl⟩ := exists_of_map_eq_ok read
      exact .cons ⟨valid, rfl⟩ (ih behind)

theorem valid_of_pieces {items : List Located} {body : List Piece}
    (read : pieces items = .ok body) : ∀ item ∈ items, item.lexeme.token.isSome = true := by
  have paired := forall₂_pieces read
  clear read
  induction paired with
  | nil => exact nofun
  | cons first _ ih => exact List.forall_mem_cons.mpr ⟨by rw [first.1]; rfl, ih⟩

theorem exists_of_mem_pieces {items : List Located} {body : List Piece}
    (read : pieces items = .ok body) {piece : Piece} (member : piece ∈ body) :
    ∃ item ∈ items, item.lexeme.token = some piece.token ∧
      piece = ⟨piece.token, item.span, String.ofList item.lexeme.source⟩ := by
  have paired := forall₂_pieces read
  clear read
  induction paired with
  | nil => cases member
  | @cons item piece _ _ first _ ih =>
    rcases List.mem_cons.mp member with rfl | later
    · exact ⟨item, List.mem_cons_self, first⟩
    · obtain ⟨item, found, same⟩ := ih later
      exact ⟨item, List.mem_cons_of_mem _ found, same⟩

/-- What has been read as a placeholder: lexemes up to a closing brace that are a body of the
grammar. -/
theorem placeholder_eq_ok {start : Nat} {cs : List Char} {p : Placeholder}
    (read : placeholder start cs = .ok p) :
    ∃ items brace body, lexUntil isBrace (start + 1) cs = (items, some (brace, p.rest)) ∧
      brace.lexeme.token = some .braceClose ∧ pieces items = .ok body ∧
      Grammar.parse brace.span.start body = .ok p.expr ∧ p.stop = brace.span.stop := by
  unfold placeholder at read
  split at read
  · cases read
  · rename_i items brace rest scanned
    split at read
    · cases read
    · rename_i body valid
      split at read
      · rename_i closes
        split at read
        · cases read
        · obtain ⟨expr, parsed, rfl⟩ := exists_of_map_eq_ok read
          exact ⟨items, brace, body, scanned, closes, valid, parsed, rfl⟩
      · cases read

/-- Such lexemes are read as a placeholder. -/
theorem placeholder_of_parse {start : Nat} {cs rest : List Char} {items : List Located}
    {brace : Located} {body : List Piece} {expr : Expr}
    (scanned : lexUntil isBrace (start + 1) cs = (items, some (brace, rest)))
    (closes : brace.lexeme.token = some .braceClose) (valid : pieces items = .ok body)
    (parsed : Grammar.parse brace.span.start body = .ok expr) :
    placeholder start cs = .ok ⟨expr, brace.span.stop, rest⟩ := by
  have nonempty : body.isEmpty = false := by
    cases body with
    | nil => cases parsed
    | cons piece others => rfl
  simp only [placeholder, scanned, valid, closes, nonempty, Bool.false_eq_true, if_false, parsed]
  rfl

/-! ## Elements -/

theorem elements_nil (offset : Nat) : elements offset [] = .ok [] := by
  rw [elements]

theorem utf8Size_of_isBraceChar {c : Char} (brace : isBraceChar c = true) : c.utf8Size = 1 := by
  simp only [isBraceChar, Bool.or_eq_true, decide_eq_true_eq] at brace
  rcases brace with rfl | rfl <;> rfl

theorem elements_double {c : Char} (brace : isBraceChar c = true) (offset : Nat)
    (rest : List Char) :
    elements offset (c :: c :: rest) =
      (elements (offset + 2) rest).map
        (consText (String.singleton c) ⟨offset, offset + 2⟩) := by
  simp only [isBraceChar, Bool.or_eq_true, decide_eq_true_eq] at brace
  rcases brace with rfl | rfl
  · rw [elements]
    rfl
  · rw [elements]
    rfl

theorem elements_unmatched {rest : List Char} (single : rest.head? ≠ some '}') (offset : Nat) :
    elements offset ('}' :: rest) = .error ⟨.unmatchedClose, ⟨offset, offset + 1⟩⟩ := by
  rw [elements]
  rintro others rfl
  exact single rfl

theorem elements_placeholder {rest : List Char} (single : rest.head? ≠ some '{') (offset : Nat) :
    elements offset ('{' :: rest) =
      (placeholder offset rest).bind fun p =>
        (elements p.stop p.rest).map (.placeholder p.expr ⟨offset, p.stop⟩ :: ·) := by
  rw [elements]
  · split
    · rename_i failed
      rw [failed]
      rfl
    · rename_i p read
      simp only [read]
      rfl
  · rintro others rfl
    exact single rfl

theorem elements_placeholder_eq_ok {rest : List Char} (single : rest.head? ≠ some '{')
    {offset : Nat} {found : List Element} (read : elements offset ('{' :: rest) = .ok found) :
    ∃ p others, placeholder offset rest = .ok p ∧ elements p.stop p.rest = .ok others ∧
      found = .placeholder p.expr ⟨offset, p.stop⟩ :: others := by
  rw [elements_placeholder single] at read
  cases scanned : placeholder offset rest with
  | error e =>
    rw [scanned] at read
    cases read
  | ok p =>
    rw [scanned] at read
    obtain ⟨others, onward, rfl⟩ := exists_of_map_eq_ok read
    exact ⟨p, others, rfl, onward, rfl⟩

/-- A character that is no brace begins a run of such characters. -/
theorem elements_run {c : Char} (plain : isBraceChar c = false) (offset : Nat) (rest : List Char) :
    let run := c :: rest.takeWhile (!isBraceChar ·)
    elements offset (c :: rest) =
      (elements (offset + byteLength run) (rest.dropWhile (!isBraceChar ·))).map
        (consText (String.ofList run) ⟨offset, offset + byteLength run⟩) := by
  simp only [isBraceChar, Bool.or_eq_false_iff, decide_eq_false_iff_not] at plain
  obtain ⟨notOpen, notClose⟩ := plain
  dsimp only
  rw [elements]
  · rfl
  · exact fun _ same => absurd same notOpen
  · exact fun _ same => absurd same notClose
  · exact notClose
  · exact notOpen

/-- Texts that are put in front one after another come to one text. -/
theorem consText_consText (text more : String) (span next : Span) (elements : List Element) :
    consText text span (consText more next elements) =
      consText (text ++ more) ⟨span.start, next.stop⟩ elements := by
  match elements with
  | [] => rfl
  | .text _ _ :: _ => simp only [consText, String.append_assoc]
  | .placeholder _ _ :: _ => rfl

/-- Such a character joins the text behind it. -/
theorem elements_plain {c : Char} (plain : isBraceChar c = false) (offset : Nat)
    (rest : List Char) :
    elements offset (c :: rest) =
      (elements (offset + c.utf8Size) rest).map
        (consText (String.singleton c) ⟨offset, offset + c.utf8Size⟩) := by
  have run := elements_run plain offset rest
  dsimp only at run
  cases rest with
  | nil =>
    rw [List.takeWhile_nil, List.dropWhile_nil, byteLength_cons, byteLength_nil, Nat.add_zero] at run
    exact run
  | cons d others =>
    cases brace : isBraceChar d with
    | true =>
      rw [List.takeWhile_cons_of_neg (by simp [brace]),
        List.dropWhile_cons_of_neg (by simp [brace]), byteLength_cons, byteLength_nil,
        Nat.add_zero] at run
      exact run
    | false =>
      -- The run that begins at the next character is a part of this one.
      have inner := elements_run brace (offset + c.utf8Size) others
      dsimp only at inner
      rw [List.takeWhile_cons_of_pos (by simp [brace]),
        List.dropWhile_cons_of_pos (by simp [brace]), byteLength_cons, ← Nat.add_assoc] at run
      rw [run, inner]
      cases elements (offset + c.utf8Size + byteLength
          (d :: others.takeWhile (!isBraceChar ·))) (others.dropWhile (!isBraceChar ·)) with
      | error e => rfl
      | ok found =>
        simp only [Except.map, consText_consText, String.ofList_cons]

/-- The ways in which a text can go on, with what is behind. -/
theorem text_induction {motive : Nat → List Char → Prop}
    (nil : ∀ offset, motive offset [])
    (double : ∀ offset c rest, isBraceChar c = true → motive (offset + 2) rest →
      motive offset (c :: c :: rest))
    (unmatched : ∀ offset rest, rest.head? ≠ some '}' → motive offset ('}' :: rest))
    (placeholder : ∀ offset rest, rest.head? ≠ some '{' →
      (∀ p, Reader.placeholder offset rest = .ok p → motive p.stop p.rest) →
      motive offset ('{' :: rest))
    (plain : ∀ offset c rest, isBraceChar c = false → motive (offset + c.utf8Size) rest →
      motive offset (c :: rest))
    (offset : Nat) (cs : List Char) : motive offset cs := by
  induction length : cs.length using Nat.strongRecOn generalizing offset cs with
  | ind n ih =>
    subst length
    cases cs with
    | nil => exact nil offset
    | cons c rest =>
      have onward : ∀ offset cs, cs.length < (c :: rest).length → motive offset cs :=
        fun offset cs shorter => ih cs.length shorter offset cs rfl
      cases brace : isBraceChar c with
      | false => exact plain offset c rest brace (onward _ rest (Nat.lt_succ_self _))
      | true =>
        by_cases twice : rest.head? = some c
        · obtain ⟨others, rfl⟩ := List.head?_eq_some_iff.mp twice
          refine double offset c others brace (onward _ others ?_)
          simp only [List.length_cons]
          omega
        · simp only [isBraceChar, Bool.or_eq_true, decide_eq_true_eq] at brace
          rcases brace with rfl | rfl
          · refine placeholder offset rest twice fun p read => onward _ p.rest ?_
            have shorter := length_placeholder_rest read
            simp only [List.length_cons]
            omega
          · exact unmatched offset rest twice

end Reader

end TypedTemplate
