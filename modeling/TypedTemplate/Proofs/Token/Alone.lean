import TypedTemplate.Proofs.Token.Lexer

/-!
A valid token does not depend on the text around it: its source, read by itself, is the same
token (`Lexer.munch_source`, `lex_source`). For numerals this rests on what their parts are
(`NumeralParts.IsWhole`), for names on the longest match: a name that is a numeral by itself
begins a numeral that is at least as long (`NumeralParts.IsWhole.takeNumeral_append`).
-/
namespace TypedTemplate

namespace Lexer

/-! ## Numerals -/

theorem takeWhile_isDigit_append (cs rest : List Char) :
    (cs.takeWhile Char.isDigit ++ rest).takeWhile Char.isDigit =
      cs.takeWhile Char.isDigit ++ rest.takeWhile Char.isDigit :=
  List.takeWhile_append_of_pos fun _ member => List.mem_takeWhile_imp member

/-- An integer that has been read goes on with the digits behind it, and no further. -/
theorem takeInteger_append_of_taken {cs integer : List Char} (taken : takeInteger cs = some integer)
    (rest : List Char) :
    takeInteger (integer ++ rest) = some (integer ++ rest.takeWhile Char.isDigit) := by
  unfold takeInteger at taken
  split at taken
  · split at taken
    · cases taken
    · rename_i some
      cases taken
      simp [takeInteger, takeWhile_isDigit_append, some]
  · split at taken
    · cases taken
    · rename_i some
      cases taken
      have whole := takeWhile_isDigit_append cs rest
      cases digits : cs.takeWhile Char.isDigit with
      | nil => contradiction
      | cons d ds =>
        have digit : d.isDigit = true := List.mem_takeWhile_imp (digits ▸ List.mem_cons_self)
        have sign : d ≠ '-' := by
          rintro rfl
          cases digit
        rw [digits] at whole
        rw [takeInteger.eq_def, whole]
        simp [sign]

theorem takeExponent_head {cs : List Char} :
    ∀ c ∈ (takeExponent cs).head?, c = 'e' ∨ c = 'E' := by
  intro c member
  unfold takeExponent at member
  split at member
  · split at member
    · rename_i letter
      split at member
      · split at member
        · cases member
        · cases member
          exact letter
      · split at member
        · cases member
        · cases member
          exact letter
    · cases member
  · cases member

/-- An exponent that has been read goes on with the digits behind it, and no further. -/
theorem takeExponent_append_of_taken {cs : List Char} (some : takeExponent cs ≠ [])
    (rest : List Char) :
    takeExponent (takeExponent cs ++ rest) = takeExponent cs ++ rest.takeWhile Char.isDigit := by
  unfold takeExponent at some
  split at some
  · rename_i e s others
    split at some
    · rename_i letter
      split at some
      · rename_i sign
        split at some
        · contradiction
        · rename_i digits
          simp [takeExponent, letter, sign, digits, takeWhile_isDigit_append]
      · rename_i noSign
        split at some
        · contradiction
        · rename_i digits
          have whole := takeWhile_isDigit_append (s :: others) rest
          cases taken : (s :: others).takeWhile Char.isDigit with
          | nil => contradiction
          | cons d ds =>
            have digit : d.isDigit = true := List.mem_takeWhile_imp (taken ▸ List.mem_cons_self)
            have plain : ¬ (d = '+' ∨ d = '-') := by
              rintro (rfl | rfl) <;> cases digit
            have shown : takeExponent (e :: s :: others) = e :: d :: ds := by
              simp [takeExponent, letter, noSign, taken]
            rw [taken] at whole
            rw [shown, List.cons_append, List.cons_append, takeExponent, if_pos letter,
              if_neg plain, ← List.cons_append, whole]
            simp
    · contradiction
  · contradiction

/-- Whether the parts of a numeral are what is read off their own texts. -/
structure NumeralParts.IsWhole (n : NumeralParts) : Prop where
  integer : takeInteger n.integer = some n.integer
  fraction : n.fraction.takeWhile Char.isDigit = n.fraction
  exponent : takeExponent n.exponent = n.exponent

theorem isWhole_of_takeNumeral {cs : List Char} {n : NumeralParts}
    (taken : takeNumeral cs = some n) : n.IsWhole := by
  obtain ⟨integer, front, rfl⟩ := Option.map_eq_some_iff.mp taken
  refine ⟨?_, ?_, ?_⟩
  · have whole := takeInteger_append_of_taken front []
    rw [List.takeWhile_nil, List.append_nil] at whole
    exact whole
  · dsimp only
    unfold takeFraction
    split
    · exact List.takeWhile_idem
    · rfl
  · dsimp only
    generalize (if takeFraction (cs.drop integer.length) = [] then _ else _) = behind
    by_cases none : takeExponent behind = []
    · rw [none]
      rfl
    · have whole := takeExponent_append_of_taken none []
      rw [List.takeWhile_nil, List.append_nil] at whole
      exact whole

namespace NumeralParts.IsWhole

variable {n : NumeralParts}

theorem exponent_head (whole : n.IsWhole) : ∀ c ∈ n.exponent.head?, c = 'e' ∨ c = 'E' := by
  rw [← whole.exponent]
  exact takeExponent_head

/-- Neither digits nor a fraction go on where the exponent begins. -/
theorem exponent_stops (whole : n.IsWhole) (some : n.exponent ≠ []) (rest : List Char) :
    (n.exponent ++ rest).takeWhile Char.isDigit = [] ∧ takeFraction (n.exponent ++ rest) = [] := by
  cases exponent : n.exponent with
  | nil => contradiction
  | cons e others =>
    rcases whole.exponent_head e (by rw [exponent]; rfl) with rfl | rfl <;> exact ⟨rfl, rfl⟩

/-- The numeral is read off its own text. -/
theorem takeNumeral_source (whole : n.IsWhole) : takeNumeral n.source = some n := by
  have stops : n.exponent.takeWhile Char.isDigit = [] ∧ takeFraction n.exponent = [] := by
    by_cases none : n.exponent = []
    · rw [none]
      exact ⟨rfl, rfl⟩
    · have stops := whole.exponent_stops none []
      rw [List.append_nil] at stops
      exact stops
  by_cases none : n.fraction = []
  · have integer := takeInteger_append_of_taken whole.integer n.exponent
    rw [stops.1, List.append_nil] at integer
    rw [takeNumeral, NumeralParts.source, if_pos none, List.append_nil, integer]
    simp only [Option.map_some, List.drop_left, stops.2, if_true, whole.exponent, ← none]
  · have integer := takeInteger_append_of_taken whole.integer ('.' :: n.fraction ++ n.exponent)
    have fraction : takeFraction ('.' :: n.fraction ++ n.exponent) = n.fraction := by
      have digits := takeWhile_isDigit_append n.fraction n.exponent
      rw [whole.fraction, stops.1, List.append_nil] at digits
      exact digits
    have point : ('.' :: n.fraction ++ n.exponent).takeWhile Char.isDigit = [] := rfl
    rw [point, List.append_nil] at integer
    rw [takeNumeral, NumeralParts.source, if_neg none, List.append_assoc, integer]
    have past : ('.' :: n.fraction ++ n.exponent).drop (n.fraction.length + 1) = n.exponent :=
      List.drop_left
    simp only [Option.map_some, List.drop_left, fraction, if_neg none, past, whole.exponent]

/-- In front of more text, a numeral without a fraction is read as one that is at least as long. -/
theorem takeNumeral_append (whole : n.IsWhole) (none : n.fraction = []) (rest : List Char) :
    ∃ longer, takeNumeral (n.source ++ rest) = some longer ∧
      n.source.length ≤ longer.source.length := by
  have source : n.source = n.integer ++ n.exponent := by
    rw [NumeralParts.source, if_pos none, List.append_nil]
  rw [source, takeNumeral]
  by_cases last : n.exponent = []
  · rw [last, List.append_nil, takeInteger_append_of_taken whole.integer]
    refine ⟨_, rfl, ?_⟩
    simp only [NumeralParts.source, List.length_append]
    omega
  · have integer := takeInteger_append_of_taken whole.integer (n.exponent ++ rest)
    have exponent : takeExponent (n.exponent ++ rest) =
        n.exponent ++ rest.takeWhile Char.isDigit := by
      have taken := @takeExponent_append_of_taken n.exponent (by rwa [whole.exponent]) rest
      rwa [whole.exponent] at taken
    obtain ⟨digits, fraction⟩ := whole.exponent_stops last rest
    rw [digits, List.append_nil] at integer
    rw [List.append_assoc, integer]
    refine ⟨_, rfl, ?_⟩
    simp only [List.drop_left, fraction, if_true, exponent, NumeralParts.source,
      List.length_append]
    omega

end NumeralParts.IsWhole

/-! ## Strings -/

theorem takeString_body {cs body : List Char} (closed : takeString cs = (.closed, body)) :
    takeString body = (.closed, body) := by
  fun_induction takeString cs generalizing body with
  | case1 => cases closed
  | case2 others =>
    cases closed
    rfl
  | case3 => cases closed
  | case4 c others other stop inner scanned ih =>
    cases closed
    rw [takeString, if_neg other, ih scanned]
  | case5 => cases closed
  | case6 c others quote _ other stop inner scanned ih =>
    cases closed
    rw [takeString, if_neg other, ih scanned]
    · exact quote
    · intro _ _ same
      exact absurd same other

/-! ## Tokens -/

/-- A word that has been read does not depend on what is behind it. -/
theorem nameLexeme_nil {name rest : List Char} (valid : (nameLexeme name rest).token.isSome = true) :
    nameLexeme name [] = nameLexeme name rest := by
  unfold nameLexeme at valid ⊢
  split at valid
  · cases valid
  · rename_i whole
    rw [if_neg whole, if_neg (by simp)]

/-- A numeral that is no shorter than the name at its place. -/
theorem wordLexeme_of_numeral {cs : List Char} {n : NumeralParts} (taken : takeNumeral cs = some n)
    (long : (cs.takeWhile isNameChar).length ≤ n.source.length) :
    wordLexeme cs = ⟨some (.number n.toFloat), n.source⟩ := by
  simp only [wordLexeme, taken, if_pos long]

/-- A name that is longer than any numeral at its place. -/
theorem wordLexeme_of_name {cs : List Char}
    (short : ∀ n, takeNumeral cs = some n → n.source.length < (cs.takeWhile isNameChar).length) :
    wordLexeme cs =
      nameLexeme (cs.takeWhile isNameChar) (cs.drop (cs.takeWhile isNameChar).length) := by
  cases taken : takeNumeral cs with
  | none => simp only [wordLexeme, taken]
  | some n => simp only [wordLexeme, taken, if_neg (Nat.not_le_of_lt (short n taken))]

/-- A word is a numeral or a name, whichever is longer. -/
theorem wordLexeme_cases (cs : List Char) :
    (∃ n, takeNumeral cs = some n ∧ (cs.takeWhile isNameChar).length ≤ n.source.length ∧
        wordLexeme cs = ⟨some (.number n.toFloat), n.source⟩) ∨
      (∀ n, takeNumeral cs = some n → n.source.length < (cs.takeWhile isNameChar).length) ∧
        wordLexeme cs =
          nameLexeme (cs.takeWhile isNameChar) (cs.drop (cs.takeWhile isNameChar).length) := by
  by_cases numeral : ∃ n, takeNumeral cs = some n ∧
      (cs.takeWhile isNameChar).length ≤ n.source.length
  · obtain ⟨n, taken, long⟩ := numeral
    exact .inl ⟨n, taken, long, wordLexeme_of_numeral taken long⟩
  · have short : ∀ n, takeNumeral cs = some n →
        n.source.length < (cs.takeWhile isNameChar).length :=
      fun n taken => Nat.lt_of_not_le fun long => numeral ⟨n, taken, long⟩
    exact .inr ⟨short, wordLexeme_of_name short⟩

/-- A numeral of name characters has no fraction. -/
theorem fraction_of_names {n : NumeralParts} (names : ∀ c ∈ n.source, isNameChar c = true) :
    n.fraction = [] := by
  by_contra some
  have point := names '.' (by simp [NumeralParts.source, some])
  cases point

theorem wordLexeme_source {cs : List Char} (valid : (wordLexeme cs).token.isSome = true) :
    wordLexeme (wordLexeme cs).source = wordLexeme cs := by
  rcases wordLexeme_cases cs with ⟨n, taken, long, read⟩ | ⟨short, read⟩
  · rw [read]
    exact wordLexeme_of_numeral (isWhole_of_takeNumeral taken).takeNumeral_source
      (List.takeWhile_prefix isNameChar).length_le
  · rw [read] at valid
    rw [read, nameLexeme_source]
    obtain ⟨rest, front⟩ := List.takeWhile_prefix (l := cs) isNameChar
    have names : ∀ c ∈ cs.takeWhile isNameChar, isNameChar c = true :=
      fun c member => List.mem_takeWhile_imp member
    generalize cs.takeWhile isNameChar = name at short valid front names
    have self : name.takeWhile isNameChar = name := List.takeWhile_eq_self_iff.mpr names
    -- A numeral that is all of the name would be the longer match in the whole text too.
    have alone : ∀ n, takeNumeral name = some n →
        n.source.length < (name.takeWhile isNameChar).length := by
      intro n taken
      rw [self]
      refine Nat.lt_of_not_le fun long => ?_
      have all : n.source = name := (takeNumeral_spec taken).1.eq_of_length_le long
      obtain ⟨longer, found, longest⟩ := (isWhole_of_takeNumeral taken).takeNumeral_append
        (fraction_of_names (all ▸ names)) rest
      rw [all, front] at found
      rw [all] at longest
      exact absurd (short longer found) (Nat.not_lt_of_le longest)
    rw [wordLexeme_of_name alone, self, List.drop_length]
    exact nameLexeme_nil valid

/-- The source of a valid token is the same token by itself. -/
theorem munch_source {c : Char} {cs tail : List Char} (valid : (munch c cs).token.isSome = true)
    (source : (munch c cs).source = c :: tail) : munch c tail = munch c cs := by
  rcases opens_of_valid valid with ⟨token, mark⟩ | rfl | name
  · rw [munch_of_punctuation mark, munch_of_punctuation mark]
  · rw [munch_of_quote] at valid source
    obtain ⟨body, closed⟩ := closed_of_valid valid
    rw [stringLexeme, closed] at source
    cases source
    rw [munch_of_quote, munch_of_quote, stringLexeme, stringLexeme, closed, takeString_body closed]
  · rw [munch_of_isNameChar name] at valid source
    rw [munch_of_isNameChar name, munch_of_isNameChar name, ← source]
    exact wordLexeme_source valid

end Lexer

/-! ## Lexemes -/

/-- Each lexeme is read where no blank stands. -/
theorem mem_lexUntil {stop : Token → Bool} {offset : Nat} {cs : List Char} {item : Located}
    (member : item ∈ (lexUntil stop offset cs).1) :
    ∃ c rest, isBlank c = false ∧ item.lexeme = Lexer.munch c rest := by
  fun_induction lexUntil stop offset cs with
  | case1 => cases member
  | case2 _ _ _ _ ih => exact ih member
  | case3 => cases member
  | case4 offset c rest solid lexeme found behind goes items last scanned ih =>
    rcases List.mem_cons.mp member with rfl | later
    · exact ⟨c, rest, by simpa using solid, rfl⟩
    · rw [scanned] at ih
      exact ih later

/-- The source of a valid lexeme is a text of this one token. -/
theorem lex_source {stop : Token → Bool} {offset : Nat} {cs : List Char} {item : Located}
    (member : item ∈ (lexUntil stop offset cs).1) (valid : item.lexeme.token.isSome = true) :
    lex (String.ofList item.lexeme.source) =
      [⟨item.lexeme, ⟨0, byteLength item.lexeme.source⟩⟩] := by
  obtain ⟨c, rest, solid, read⟩ := mem_lexUntil member
  rw [read] at valid
  obtain ⟨tail, source, -, -⟩ := Lexer.munch_spec solid valid
  have alone := Lexer.munch_source valid source
  have all : tail.drop ((c :: tail).length - 1) = [] := List.drop_length
  rw [read, source, lex, String.toList_ofList, lexUntil, if_neg (by simp [solid])]
  simp only [alone, source, all, Option.any_false, Bool.false_eq_true, if_false]
  rw [lexUntil]
  simp

end TypedTemplate
