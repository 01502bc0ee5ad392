import TypedTemplate.Proofs.Token.Alone
import TypedTemplate.Proofs.Token.Layout

/-!
Which texts are names, and what can be read off the items of any text. A name is a text of name
characters that is neither a literal word nor a numeral (`isIdent_iff`); as names have neither
points nor pluses, the numerals among such texts are integers and integers with an exponent
(`Lexer.isPlainNumeral_iff`). Nothing of a text is lost when it is split, and no token depends on
what is around it (`lex_lossless`).
-/
namespace TypedTemplate

/-! ## Numerals -/

/-- An integer as a numeral has it: at least one digit, maybe with a minus in front. -/
def IsInteger (cs : List Char) : Prop :=
  ∃ digits : List Char, digits ≠ [] ∧ (∀ c ∈ digits, c.isDigit = true) ∧
    (cs = digits ∨ cs = '-' :: digits)

/-- A numeral of name characters: an integer, and maybe an exponent without a plus. -/
def IsPlainNumeral (cs : List Char) : Prop :=
  IsInteger cs ∨ ∃ integer letter exponent, IsInteger integer ∧ (letter = 'e' ∨ letter = 'E') ∧
    IsInteger exponent ∧ cs = integer ++ letter :: exponent

namespace Lexer

theorem takeInteger_eq_self_iff (cs : List Char) : takeInteger cs = some cs ↔ IsInteger cs := by
  constructor
  · intro taken
    unfold takeInteger at taken
    split at taken
    · split at taken
      · cases taken
      · rename_i rest some
        have whole : rest.takeWhile Char.isDigit = rest := by simpa using taken
        rw [whole] at some
        exact ⟨rest, some, List.takeWhile_eq_self_iff.mp whole, .inr rfl⟩
    · split at taken
      · cases taken
      · rename_i some
        have whole : cs.takeWhile Char.isDigit = cs := by simpa using taken
        rw [whole] at some
        exact ⟨cs, some, List.takeWhile_eq_self_iff.mp whole, .inl rfl⟩
  · rintro ⟨digits, some, all, rfl | rfl⟩
    · have whole := List.takeWhile_eq_self_iff.mpr all
      rw [takeInteger.eq_def]
      split
      · cases all '-' List.mem_cons_self
      · rw [whole, if_neg some]
    · rw [takeInteger, List.takeWhile_eq_self_iff.mpr all, if_neg some]

/-- Where no plus follows, an exponent is its letter and an integer. -/
theorem takeExponent_cons (letter : Char) {cs : List Char} (plain : cs.head? ≠ some '+') :
    takeExponent (letter :: cs) =
      if letter = 'e' ∨ letter = 'E' then ((takeInteger cs).map (letter :: ·)).getD [] else [] := by
  cases cs with
  | nil => simp [takeExponent, takeInteger]
  | cons s rest =>
    by_cases minus : s = '-'
    · subst minus
      simp only [takeExponent, takeInteger]
      by_cases none : rest.takeWhile Char.isDigit = [] <;> simp [none]
    · have unsigned : ¬ (s = '+' ∨ s = '-') := by
        rintro (rfl | rfl)
        · exact plain rfl
        · exact minus rfl
      have integer : takeInteger (s :: rest) = if (s :: rest).takeWhile Char.isDigit = [] then none
          else some ((s :: rest).takeWhile Char.isDigit) := by
        rw [takeInteger]
        simpa using minus
      rw [takeExponent, if_neg unsigned, integer]
      by_cases none : (s :: rest).takeWhile Char.isDigit = []
      · rw [if_pos none, if_pos none]
        rfl
      · rw [if_neg none, if_neg none]
        rfl

/-- An exponent of name characters is a letter and an integer. -/
theorem takeExponent_eq_self_iff {letter : Char} {cs : List Char}
    (names : ∀ c ∈ cs, isNameChar c = true) :
    takeExponent (letter :: cs) = letter :: cs ↔ (letter = 'e' ∨ letter = 'E') ∧ IsInteger cs := by
  have plain : cs.head? ≠ some '+' := by
    intro plus
    cases names '+' (List.mem_of_head? plus)
  rw [takeExponent_cons letter plain, ← takeInteger_eq_self_iff]
  by_cases exponent : letter = 'e' ∨ letter = 'E'
  · cases takeInteger cs <;> simp [exponent]
  · simp [exponent]

theorem isNameChar_of_isInteger {cs : List Char} (integer : IsInteger cs) :
    ∀ c ∈ cs, isNameChar c = true :=
  (takeInteger_spec ((takeInteger_eq_self_iff cs).mpr integer)).2.2

/-- An integer with an exponent, or with none, is a numeral. -/
theorem takeNumeral_of_parts {integer exponent : List Char}
    (front : takeInteger integer = some integer) (back : takeExponent exponent = exponent) :
    ∃ n, takeNumeral (integer ++ exponent) = some n ∧ n.source = integer ++ exponent := by
  have whole : NumeralParts.IsWhole ⟨integer, [], exponent⟩ := ⟨front, rfl, back⟩
  have source : NumeralParts.source ⟨integer, [], exponent⟩ = integer ++ exponent := by
    simp [NumeralParts.source]
  have taken := whole.takeNumeral_source
  rw [source] at taken
  exact ⟨_, taken, source⟩

theorem isPlainNumeral_iff {cs : List Char} (names : ∀ c ∈ cs, isNameChar c = true) :
    IsPlainNumeral cs ↔ ∃ n, takeNumeral cs = some n ∧ n.source = cs := by
  constructor
  · rintro (integer | ⟨front, letter, back, integer, letters, power, rfl⟩)
    · have none : takeExponent [] = [] := rfl
      have read := takeNumeral_of_parts ((takeInteger_eq_self_iff cs).mpr integer) none
      rwa [List.append_nil] at read
    · have exponent : takeExponent (letter :: back) = letter :: back :=
        (takeExponent_eq_self_iff (isNameChar_of_isInteger power)).mpr ⟨letters, power⟩
      exact takeNumeral_of_parts ((takeInteger_eq_self_iff front).mpr integer) exponent
  · rintro ⟨n, taken, rfl⟩
    have whole := isWhole_of_takeNumeral taken
    have integer := (takeInteger_eq_self_iff _).mp whole.integer
    have source : n.source = n.integer ++ n.exponent := by
      rw [NumeralParts.source, if_pos (fraction_of_names names), List.append_nil]
    rw [source] at names ⊢
    cases exponent : n.exponent with
    | nil =>
      rw [List.append_nil]
      exact .inl integer
    | cons letter back =>
      have power := whole.exponent
      rw [exponent] at names power
      obtain ⟨starts, integer'⟩ := (takeExponent_eq_self_iff fun c member =>
        names c (List.mem_append_right _ (List.mem_cons_of_mem _ member))).mp power
      exact .inr ⟨n.integer, letter, back, integer, starts, integer', rfl⟩

/-! ## Words -/

/-- No part of a text of name characters is left out of its word. -/
theorem source_wordLexeme {cs : List Char} (names : ∀ c ∈ cs, isNameChar c = true) :
    (wordLexeme cs).source = cs := by
  have self := List.takeWhile_eq_self_iff.mpr names
  rcases wordLexeme_cases cs with ⟨n, taken, long, read⟩ | ⟨-, read⟩
  · rw [read]
    rw [self] at long
    exact (takeNumeral_spec taken).1.eq_of_length_le long
  · rw [read, nameLexeme_source, self]

theorem wordLexeme_ident_iff {cs : List Char} (names : ∀ c ∈ cs, isNameChar c = true) :
    (∃ name, (wordLexeme cs).token = some (.ident name)) ↔
      cs ≠ "true".toList ∧ cs ≠ "false".toList ∧ ¬ IsPlainNumeral cs := by
  have self := List.takeWhile_eq_self_iff.mpr names
  by_cases numeral : IsPlainNumeral cs
  · obtain ⟨n, taken, source⟩ := (isPlainNumeral_iff names).mp numeral
    rw [wordLexeme_of_numeral taken (by rw [self, source])]
    simp [numeral]
  · have short : ∀ n, takeNumeral cs = some n →
        n.source.length < (cs.takeWhile isNameChar).length := by
      intro n taken
      rw [self]
      refine Nat.lt_of_not_le fun long => numeral ((isPlainNumeral_iff names).mpr ⟨n, taken, ?_⟩)
      exact (takeNumeral_spec taken).1.eq_of_length_le long
    rw [wordLexeme_of_name short, self, List.drop_length, nameLexeme, if_neg (by simp)]
    split
    · rename_i yes
      simp [yes]
    · rename_i yes
      split
      · rename_i no
        simp [no]
      · rename_i no
        exact ⟨fun _ => ⟨yes, no, numeral⟩, fun _ => ⟨_, rfl⟩⟩

theorem names_of_ident {c : Char} {cs : List Char} {name : String}
    (ident : (munch c cs).token = some (.ident name)) :
    ∀ x ∈ (munch c cs).source, isNameChar x = true := by
  rcases opens_of_valid (by rw [ident]; rfl) with ⟨token, mark⟩ | rfl | word
  · rw [munch_of_punctuation mark] at ident
    cases ident
    unfold punctuation? at mark
    split at mark <;> cases mark
  · obtain ⟨text, same⟩ := token_stringLexeme ident
    cases same
  · rw [munch_of_isNameChar word] at ident ⊢
    rw [wordLexeme_of_ident ident]
    exact fun x member => List.mem_takeWhile_imp member

end Lexer

/-! ## Names -/

/-- A text of name characters is one word. -/
theorem lex_of_names {text : String} (nonempty : text ≠ "")
    (names : ∀ c ∈ text.toList, isNameChar c = true) :
    lex text = [⟨Lexer.wordLexeme text.toList, ⟨0, text.utf8ByteSize⟩⟩] := by
  have source := Lexer.source_wordLexeme names
  have size := byteLength_toList text
  rw [lex]
  cases chars : text.toList with
  | nil => exact absurd (String.toList_eq_nil_iff.mp chars) nonempty
  | cons c rest =>
    rw [chars] at names source size
    have first := names c List.mem_cons_self
    have all : rest.drop ((c :: rest).length - 1) = [] := List.drop_length
    rw [lexUntil, if_neg (by simp [isBlank_of_isNameChar first])]
    simp only [Lexer.munch_of_isNameChar first, source, all, Option.any_false, Bool.false_eq_true,
      if_false, Nat.zero_add, size]
    rw [lexUntil]

/-- An identifier has only name characters. -/
theorem names_of_isIdent {text : String} (ident : isIdent text = true) :
    text ≠ "" ∧ ∀ c ∈ text.toList, isNameChar c = true := by
  have laid := laid_lex text
  unfold isIdent at ident
  split at ident
  · rename_i item single
    split at ident
    · rename_i name read
      have place : item.span = ⟨0, text.utf8ByteSize⟩ := of_decide_eq_true ident
      rw [single] at laid
      obtain ⟨-, cuts, nonempty, -⟩ := laid
      simp only [place, ← byteLength_toList] at cuts nonempty
      have whole := cuts.eq_of_whole
      have member : item ∈ lex text := by simp [single]
      obtain ⟨c, cs, -, munched⟩ := mem_lexUntil member
      rw [munched] at read whole nonempty
      rw [← whole]
      refine ⟨?_, Lexer.names_of_ident read⟩
      rintro rfl
      exact nonempty whole
    · cases ident
  · cases ident

theorem isIdent_iff (text : String) :
    isIdent text = true ↔ text ≠ "" ∧ (∀ c ∈ text.toList, isNameChar c = true) ∧
      text ≠ "true" ∧ text ≠ "false" ∧ ¬ IsPlainNumeral text.toList := by
  have words : text.toList ≠ "true".toList ∧ text.toList ≠ "false".toList ↔
      text ≠ "true" ∧ text ≠ "false" := by
    rw [ne_eq, ne_eq, String.toList_inj, String.toList_inj]
  have single (nonempty : text ≠ "") (names : ∀ c ∈ text.toList, isNameChar c = true) :
      isIdent text = true ↔ ∃ name, (Lexer.wordLexeme text.toList).token = some (.ident name) := by
    rw [isIdent, lex_of_names nonempty names]
    dsimp only
    split
    · rename_i name read
      simp [read]
    · rename_i other
      simpa using other
  constructor
  · intro ident
    obtain ⟨nonempty, names⟩ := names_of_isIdent ident
    have plain := (Lexer.wordLexeme_ident_iff names).mp ((single nonempty names).mp ident)
    rw [← and_assoc, words, and_assoc] at plain
    exact ⟨nonempty, names, plain⟩
  · rintro ⟨nonempty, names, plain⟩
    rw [← and_assoc, ← words, and_assoc] at plain
    exact (single nonempty names).mpr ((Lexer.wordLexeme_ident_iff names).mpr plain)

/-- Splitting a text into tokens loses nothing, and a token does not depend on what is around it.
Every item is a slice of the text that is not empty; the items stand one behind another, and each
byte outside of them is a blank. A valid item is, by itself, a text of this one token. And the names
are the texts of name characters that are neither literal words nor numerals. -/
theorem lex_lossless (text : String) :
    (∀ item ∈ lex text, item.span.Cuts text.toList item.lexeme.source ∧
      IsBoundary text.toList item.span.start ∧ IsBoundary text.toList item.span.stop ∧
      item.span.start < item.span.stop ∧ item.span.stop ≤ text.utf8ByteSize) ∧
    ((lex text).Pairwise fun a b => a.span.start < b.span.start ∧ a.span.stop ≤ b.span.start) ∧
    (∀ byte < text.utf8ByteSize,
      (∃ item ∈ lex text, item.span.start ≤ byte ∧ byte < item.span.stop) ∨
      ∃ c rest, IsTail text.toList byte (c :: rest) ∧ isBlank c = true) ∧
    (∀ item ∈ lex text, item.lexeme.token.isSome = true →
      lex (String.ofList item.lexeme.source) =
        [⟨item.lexeme, ⟨0, (String.ofList item.lexeme.source).utf8ByteSize⟩⟩]) ∧
    (isIdent text = true ↔ text ≠ "" ∧ (∀ c ∈ text.toList, isNameChar c = true) ∧
      text ≠ "true" ∧ text ≠ "false" ∧ ¬ IsPlainNumeral text.toList) := by
  have laid := laid_lex text
  have sliced : ∀ item ∈ lex text, item.span.Cuts text.toList item.lexeme.source ∧
      item.lexeme.source ≠ [] ∧ 0 ≤ item.span.start ∧ item.span.stop ≤ text.utf8ByteSize :=
    fun item member => laid.cuts_of_mem (List.mem_map_of_mem member)
  refine ⟨fun item member => ?_, ?_, fun byte within => ?_, fun item member valid => ?_,
    isIdent_iff text⟩
  · obtain ⟨cuts, nonempty, -, inside⟩ := sliced item member
    exact ⟨cuts, cuts.isBoundary_start, cuts.isBoundary_stop, cuts.start_lt nonempty, inside⟩
  · refine (List.pairwise_map.mp laid.pairwise).imp_of_mem fun {a b} member _ apart => ?_
    obtain ⟨cuts, nonempty, -⟩ := sliced a member
    exact ⟨(cuts.start_lt nonempty).trans_le apart, apart⟩
  · rcases laid.covers (Nat.zero_le byte) within with ⟨slice, member, inside⟩ | blank
    · obtain ⟨item, listed, rfl⟩ := List.mem_map.mp member
      exact .inl ⟨item, listed, inside⟩
    · exact .inr blank
  · rw [← byteLength_toList, String.toList_ofList]
    exact lex_source member valid

end TypedTemplate
