import TypedTemplate.Proofs.Template.Elements
import TypedTemplate.Proofs.Token.Alone

/-!
What has been read does not depend on what is behind it. The lexemes of a body end with its closing
brace, so a placeholder is read the same with any text behind that brace (`Reader.placeholder_cut`),
and behind a text that is a template, what follows is read as it stands (`Reader.elements_append`).
-/
namespace TypedTemplate

/-! ## Lexemes up to a brace -/

/-- No word is a brace. -/
theorem Lexer.isBrace_wordLexeme (cs : List Char) :
    ∀ token ∈ (wordLexeme cs).token, Reader.isBrace token = false := by
  have name (rest : List Char) :
      ∀ token ∈ (nameLexeme (cs.takeWhile isNameChar) rest).token,
        Reader.isBrace token = false := by
    unfold nameLexeme
    split
    · simp
    · split
      · simp [Reader.isBrace]
      · split <;> simp [Reader.isBrace]
  unfold wordLexeme
  dsimp only
  split
  · split
    · simp [Reader.isBrace]
    · exact name _
  · exact name _

/-- Braces are read as such by their characters alone. -/
theorem Lexer.punctuation_of_isBrace {c : Char} {cs : List Char} {token : Token}
    (read : (munch c cs).token = some token) (brace : Reader.isBrace token = true) :
    punctuation? c = some token := by
  rcases opens_of_valid (by rw [read]; rfl) with ⟨found, mark⟩ | rfl | name
  · rw [munch_of_punctuation mark] at read
    cases read
    exact mark
  · obtain ⟨text, rfl⟩ := token_stringLexeme read
    cases brace
  · rw [munch_of_isNameChar name] at read
    rw [isBrace_wordLexeme _ token read] at brace
    cases brace

theorem Lexer.eq_of_punctuation_braceClose {c : Char}
    (read : punctuation? c = some .braceClose) : c = '}' := by
  unfold punctuation? at read
  split at read <;> first | rfl | cases read

/-- What is behind a closing brace does not change a valid token before it. -/
theorem Lexer.munch_of_behind {c : Char} {tail inner rest : List Char}
    (valid : (munch c (tail ++ (inner ++ '}' :: rest))).token.isSome = true)
    (source : (munch c (tail ++ (inner ++ '}' :: rest))).source = c :: tail)
    (behind : List Char) :
    munch c (tail ++ (inner ++ '}' :: behind)) = munch c (tail ++ (inner ++ '}' :: rest)) := by
  -- By itself the token is the same, and of what is behind it only the brace ends a word.
  have alone : munch c tail = munch c (tail ++ (inner ++ '}' :: rest)) := munch_source valid source
  have word (later : List Char) :
      wordLexeme (c :: (tail ++ (inner ++ '}' :: later))) =
        wordLexeme (c :: (tail ++ inner)) := by
    rw [← List.append_assoc]
    exact wordLexeme_append (.cons (by decide) later) (c :: (tail ++ inner))
  rw [← alone] at valid ⊢
  refine munch_append_of_word valid fun name => ?_
  rw [munch_of_isNameChar name, munch_of_isNameChar name] at alone
  rw [word, alone, word]

namespace Reader

/-- Lexemes up to a closing brace are read the same whatever is behind the brace. -/
theorem lexUntil_cut {offset : Nat} {cs rest : List Char} {items : List Located} {brace : Located}
    (scanned : lexUntil isBrace offset cs = (items, some (brace, rest)))
    (closes : brace.lexeme.token = some .braceClose)
    (valid : ∀ item ∈ items, item.lexeme.token.isSome = true) :
    ∃ inner, cs = inner ++ '}' :: rest ∧
      brace.span = ⟨offset + byteLength inner, offset + byteLength inner + 1⟩ ∧
      ∀ behind,
        lexUntil isBrace offset (inner ++ '}' :: behind) = (items, some (brace, behind)) := by
  fun_induction lexUntil isBrace offset cs generalizing items with
  | case1 offset => cases scanned
  | case2 offset c others blank ih =>
    obtain ⟨inner, rfl, place, onward⟩ := ih scanned valid
    refine ⟨c :: inner, rfl, ?_, fun behind => ?_⟩
    · rw [place, byteLength_cons, Nat.add_assoc]
    · rw [List.cons_append, lexUntil, if_pos blank]
      exact onward behind
  | case3 offset c others solid lexeme found after =>
    simp only [Prod.mk.injEq, Option.some.injEq] at scanned
    obtain ⟨rfl, rfl, rfl⟩ := scanned
    have read := Lexer.punctuation_of_isBrace closes rfl
    have alone := Lexer.munch_of_punctuation read
    obtain rfl := Lexer.eq_of_punctuation_braceClose read
    have source : lexeme = ⟨some .braceClose, ['}']⟩ := alone others
    refine ⟨[], by simp [source, after], by simp only [found, source]; rfl, fun behind => ?_⟩
    rw [List.nil_append, lexUntil, if_neg solid]
    simp [alone, source, found, isBrace]
  | case4 offset c others solid lexeme found after goes tail last scannedRest =>
    rename_i ih
    simp only [Prod.mk.injEq] at scanned
    obtain ⟨rfl, rfl⟩ := scanned
    obtain ⟨validFirst, validTail⟩ := List.forall_mem_cons.mp valid
    obtain ⟨inner, split, place, onward⟩ := ih scannedRest validTail
    obtain ⟨source, taken, ⟨later, rfl⟩, -⟩ :=
      Lexer.munch_spec (by simpa using solid) validFirst
    have lexed : lexeme.source = c :: source := taken
    have past (more : List Char) : (source ++ more).drop (lexeme.source.length - 1) = more := by
      rw [lexed]
      exact List.drop_left
    obtain rfl : later = inner ++ '}' :: rest := (past later).symm.trans split
    refine ⟨c :: (source ++ inner), by simp, ?_, fun behind => ?_⟩
    · have stop : found.span.stop = offset + byteLength lexeme.source := rfl
      rw [place, stop, lexed, ← List.cons_append, byteLength_append, Nat.add_assoc]
    · have same : Lexer.munch c (source ++ (inner ++ '}' :: behind)) = lexeme :=
        Lexer.munch_of_behind validFirst taken behind
      rw [List.cons_append, List.append_assoc, lexUntil, if_neg solid]
      dsimp only
      rw [same, if_neg goes, past, onward]

/-- A placeholder is read the same whatever is behind its closing brace. -/
theorem placeholder_cut {start : Nat} {cs : List Char} {p : Placeholder}
    (read : placeholder start cs = .ok p) :
    ∃ inner, cs = inner ++ '}' :: p.rest ∧ p.stop = start + 1 + byteLength inner + 1 ∧
      ∀ behind, placeholder start (inner ++ '}' :: behind) = .ok { p with rest := behind } := by
  obtain ⟨items, brace, body, scanned, closes, valid, parsed, stop⟩ := placeholder_eq_ok read
  obtain ⟨inner, split, place, onward⟩ := lexUntil_cut scanned closes (valid_of_pieces valid)
  refine ⟨inner, split, by rw [stop, place], fun behind => ?_⟩
  rw [placeholder_of_parse (onward behind) closes valid parsed, ← stop]

/-- A placeholder is read the same with more text behind. -/
theorem placeholder_append {start : Nat} {cs : List Char} {p : Placeholder}
    (read : placeholder start cs = .ok p) (behind : List Char) :
    placeholder start (cs ++ behind) = .ok { p with rest := p.rest ++ behind } ∧
      p.stop + byteLength p.rest = start + 1 + byteLength cs := by
  obtain ⟨inner, split, stop, onward⟩ := placeholder_cut read
  refine ⟨?_, ?_⟩
  · rw [split, List.append_assoc, List.cons_append, onward]
  · have brace : Char.utf8Size '}' = 1 := rfl
    rw [stop, split, byteLength_append, byteLength_cons, brace]
    omega

/-! ## Elements -/

/-- The elements of two texts in one: texts that meet become one. -/
def joinElements : List Element → List Element → List Element
  | [], second => second
  | [.text raw span], second => consText raw span second
  | element :: rest, second => element :: joinElements rest second

theorem joinElements_consText (raw : String) (span : Span) (first second : List Element) :
    joinElements (consText raw span first) second =
      consText raw span (joinElements first second) := by
  match first with
  | [] => rfl
  | [.text more next] =>
    rw [consText, joinElements, joinElements, consText_consText]
  | .text more next :: _ :: _ => rfl
  | .placeholder _ _ :: _ => rfl

theorem map_joinElements_consText {ε : Type} (raw : String) (span : Span) (first : List Element)
    (second : Except ε (List Element)) :
    (second.map (joinElements first)).map (consText raw span) =
      second.map (joinElements (consText raw span first)) := by
  cases second with
  | error e => rfl
  | ok second => exact congrArg Except.ok (joinElements_consText raw span first second).symm

/-- Behind a text that has been read to its end, what follows is read as it stands. -/
theorem elements_append {offset : Nat} {as : List Char} {first : List Element}
    (read : elements offset as = .ok first) (bs : List Char) :
    elements offset (as ++ bs) =
      (elements (offset + byteLength as) bs).map (joinElements first) := by
  induction offset, as using text_induction generalizing first with
  | nil offset =>
    rw [elements_nil] at read
    cases read
    rw [List.nil_append, byteLength_nil, Nat.add_zero]
    cases elements offset bs <;> rfl
  | double offset c rest brace ih =>
    have place : offset + byteLength (c :: c :: rest) = offset + 2 + byteLength rest := by
      rw [byteLength_cons, byteLength_cons, utf8Size_of_isBraceChar brace]
      omega
    rw [elements_double brace] at read
    rw [List.cons_append, List.cons_append, elements_double brace, place]
    obtain ⟨found, onward, rfl⟩ := exists_of_map_eq_ok read
    rw [ih onward, map_joinElements_consText]
  | unmatched offset rest single =>
    rw [elements_unmatched single] at read
    cases read
  | placeholder offset rest single ih =>
    obtain ⟨p, found, scanned, onward, rfl⟩ := elements_placeholder_eq_ok single read
    obtain ⟨same, place⟩ := placeholder_append scanned bs
    have apart : (rest ++ bs).head? ≠ some '{' := by
      cases rest with
      | nil =>
        rw [placeholder, lexUntil] at scanned
        cases scanned
      | cons c others => exact single
    have start : offset + byteLength ('{' :: rest) = p.stop + byteLength p.rest := by
      rw [place, byteLength_cons, Nat.add_assoc]
      rfl
    rw [List.cons_append, elements_placeholder apart, same, start]
    simp only [Except.bind]
    rw [ih p scanned onward]
    cases elements (p.stop + byteLength p.rest) bs <;> rfl
  | plain offset c rest plain ih =>
    have place : offset + byteLength (c :: rest) = offset + c.utf8Size + byteLength rest := by
      rw [byteLength_cons, Nat.add_assoc]
    rw [elements_plain plain] at read
    rw [List.cons_append, elements_plain plain, place]
    obtain ⟨found, onward, rfl⟩ := exists_of_map_eq_ok read
    rw [ih onward, map_joinElements_consText]

end Reader

end TypedTemplate
