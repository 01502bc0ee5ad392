import Mathlib.Data.List.DropRight
import TypedTemplate.Name
import TypedTemplate.Token.Lexer

/-!
What is behind a token does not change it, as long as it begins with a character that can
continue neither a name nor a numeral (`EndsWord`). So a text that is one token by itself
is the same token in front of such a character (`lexUntil_single`).
-/
namespace TypedTemplate

/-- Whether a text begins with no character that could continue a name or a numeral. -/
def EndsWord (cs : List Char) : Prop :=
  ∀ c ∈ cs.head?, isNameChar c = false ∧ c ≠ '.' ∧ c ≠ '+'

theorem EndsWord.cons {c : Char} (other : isNameChar c = false ∧ c ≠ '.' ∧ c ≠ '+')
    (rest : List Char) : EndsWord (c :: rest) := by
  intro first member
  cases member
  exact other

theorem isNameChar_of_isDigit {c : Char} (digit : c.isDigit = true) : isNameChar c = true := by
  simp [isNameChar, Char.isAlphanum, digit]

theorem isNameChar_of_mem_digits {c : Char} {cs : List Char}
    (member : c ∈ cs.takeWhile Char.isDigit) : isNameChar c = true :=
  isNameChar_of_isDigit (List.all_eq_true.mp List.all_takeWhile c member)

theorem isBlank_of_isNameChar {c : Char} (name : isNameChar c = true) : isBlank c = false := by
  cases blank : isBlank c with
  | false => rfl
  | true =>
    simp only [isBlank, Bool.or_eq_true, decide_eq_true_eq] at blank
    rcases blank with ((((rfl | rfl) | rfl) | rfl) | rfl) | rfl <;> cases name

theorem takeWhile_append_of_head {p : Char → Bool} {rest : List Char}
    (stops : ∀ c ∈ rest.head?, p c = false) (cs : List Char) :
    (cs ++ rest).takeWhile p = cs.takeWhile p := by
  induction cs with
  | nil =>
    cases rest with
    | nil => rfl
    | cons c others => simp [stops c rfl]
  | cons c cs ih => simp [List.takeWhile_cons, ih]

namespace EndsWord

variable {rest : List Char}

theorem not_digit (ends : EndsWord rest) : ∀ c ∈ rest.head?, c.isDigit = false := by
  intro c member
  cases digit : c.isDigit with
  | false => rfl
  | true =>
    have name := isNameChar_of_isDigit digit
    rw [(ends c member).1] at name
    cases name

theorem takeWhile_digits (ends : EndsWord rest) (cs : List Char) :
    (cs ++ rest).takeWhile Char.isDigit = cs.takeWhile Char.isDigit :=
  takeWhile_append_of_head ends.not_digit cs

theorem takeWhile_name (ends : EndsWord rest) (cs : List Char) :
    (cs ++ rest).takeWhile isNameChar = cs.takeWhile isNameChar :=
  takeWhile_append_of_head (fun c member => (ends c member).1) cs

end EndsWord

namespace Lexer

/-! ## Numerals -/

theorem takeInteger_append {rest : List Char} (ends : EndsWord rest) (cs : List Char) :
    takeInteger (cs ++ rest) = takeInteger cs := by
  cases cs with
  | nil =>
    have none : rest.takeWhile Char.isDigit = [] := ends.takeWhile_digits []
    rw [List.nil_append, takeInteger.eq_def]
    split
    · cases (ends '-' rfl).1
    · rw [none]
      rfl
  | cons c cs =>
    by_cases minus : c = '-'
    · subst minus
      simp only [List.cons_append, takeInteger, ends.takeWhile_digits]
    · have same := ends.takeWhile_digits (c :: cs)
      rw [List.cons_append] at same ⊢
      rw [takeInteger, takeInteger, same]
      · simpa using minus
      · simpa using minus

theorem takeFraction_append {rest : List Char} (ends : EndsWord rest) (cs : List Char) :
    takeFraction (cs ++ rest) = takeFraction cs := by
  cases cs with
  | nil =>
    rw [List.nil_append, takeFraction.eq_def]
    split
    · exact absurd rfl (ends '.' rfl).2.1
    · rfl
  | cons c cs =>
    by_cases point : c = '.'
    · subst point
      simp only [List.cons_append, takeFraction, ends.takeWhile_digits]
    · simp [takeFraction, point]

theorem takeExponent_append {rest : List Char} (ends : EndsWord rest) (cs : List Char) :
    takeExponent (cs ++ rest) = takeExponent cs := by
  have stops := ends.takeWhile_digits []
  rw [List.nil_append, List.takeWhile_nil] at stops
  match cs, rest with
  | [], [] => rfl
  | [], [_] => rfl
  | [], e :: s :: others =>
    have noE : ¬ (e = 'e' ∨ e = 'E') := by
      rintro (rfl | rfl) <;> cases (ends _ rfl).1
    simp only [List.nil_append, takeExponent, if_neg noE]
  | [e], [] => rfl
  | [e], s :: others =>
    have noSign : ¬ (s = '+' ∨ s = '-') := by
      rintro (rfl | rfl)
      · exact (ends _ rfl).2.2 rfl
      · cases (ends _ rfl).1
    simp only [List.cons_append, List.nil_append, takeExponent, if_neg noSign, stops, if_true,
      ite_self]
  | e :: s :: cs, rest =>
    have after := ends.takeWhile_digits cs
    have whole := ends.takeWhile_digits (s :: cs)
    rw [List.cons_append] at whole
    simp only [List.cons_append, takeExponent, after, whole]

/-- An integer is read off the front and has only name characters. -/
theorem takeInteger_spec {cs integer : List Char} (taken : takeInteger cs = some integer) :
    integer <+: cs ∧ integer ≠ [] ∧ ∀ c ∈ integer, isNameChar c = true := by
  unfold takeInteger at taken
  split at taken
  · split at taken
    · cases taken
    · cases taken
      refine ⟨List.cons_prefix_cons.mpr ⟨rfl, List.takeWhile_prefix _⟩, by simp, ?_⟩
      intro c member
      rcases List.mem_cons.mp member with rfl | later
      · rfl
      · exact isNameChar_of_mem_digits later
  · split at taken
    · cases taken
    · rename_i some
      cases taken
      exact ⟨List.takeWhile_prefix _, some, fun c member => isNameChar_of_mem_digits member⟩

theorem takeFraction_spec {cs : List Char} (some : takeFraction cs ≠ []) :
    '.' :: takeFraction cs <+: cs ∧ ∀ c ∈ takeFraction cs, isNameChar c = true := by
  unfold takeFraction at some ⊢
  split
  · rename_i others
    exact ⟨List.cons_prefix_cons.mpr ⟨rfl, List.takeWhile_prefix _⟩,
      fun c member => isNameChar_of_mem_digits member⟩
  · simp at some

theorem takeExponent_spec (cs : List Char) :
    takeExponent cs <+: cs ∧ ∀ c ∈ takeExponent cs, isBlank c = false := by
  unfold takeExponent
  split
  · rename_i e s others
    split
    · rename_i letter
      have plain : isBlank e = false := by rcases letter with rfl | rfl <;> rfl
      split
      · rename_i sign
        have plainSign : isBlank s = false := by rcases sign with rfl | rfl <;> rfl
        split
        · simp
        · refine ⟨by simp [List.takeWhile_prefix], fun c member => ?_⟩
          rcases List.mem_cons.mp member with rfl | later
          · exact plain
          · rcases List.mem_cons.mp later with rfl | later
            · exact plainSign
            · exact isBlank_of_isNameChar (isNameChar_of_mem_digits later)
      · split
        · simp
        · refine ⟨List.cons_prefix_cons.mpr ⟨rfl, List.takeWhile_prefix _⟩, fun c member => ?_⟩
          rcases List.mem_cons.mp member with rfl | later
          · exact plain
          · exact isBlank_of_isNameChar (isNameChar_of_mem_digits later)
    · simp
  · simp

theorem takeNumeral_append {rest : List Char} (ends : EndsWord rest) (cs : List Char) :
    takeNumeral (cs ++ rest) = takeNumeral cs := by
  rw [takeNumeral, takeNumeral, takeInteger_append ends]
  cases taken : takeInteger cs with
  | none => rfl
  | some integer =>
    obtain ⟨after, rfl⟩ := (takeInteger_spec taken).1
    simp only [Option.map_some, List.append_assoc, List.drop_left, takeFraction_append ends]
    by_cases none : takeFraction after = []
    · simp only [if_pos none, takeExponent_append ends]
    · have long : (takeFraction after).length + 1 ≤ after.length :=
        (takeFraction_spec none).1.length_le
      simp only [if_neg none, List.drop_append_of_le_length long, takeExponent_append ends]

/-- A numeral is read off the front and has no blanks. -/
theorem takeNumeral_spec {cs : List Char} {numeral : NumeralParts}
    (taken : takeNumeral cs = some numeral) :
    numeral.source <+: cs ∧ numeral.source ≠ [] ∧ ∀ c ∈ numeral.source, isBlank c = false := by
  obtain ⟨integer, whole, rfl⟩ := Option.map_eq_some_iff.mp taken
  obtain ⟨⟨after, rfl⟩, digit, plain⟩ := takeInteger_spec whole
  simp only [List.drop_left, NumeralParts.source]
  by_cases none : takeFraction after = []
  · obtain ⟨front, blankless⟩ := takeExponent_spec after
    simp only [none, if_true, List.append_nil]
    refine ⟨(List.prefix_append_right_inj integer).mpr front, by simp [digit], fun c member => ?_⟩
    rcases List.mem_append.mp member with first | later
    · exact isBlank_of_isNameChar (plain c first)
    · exact blankless c later
  · obtain ⟨⟨behind, point⟩, names⟩ := takeFraction_spec none
    generalize takeFraction after = fraction at none point names
    subst point
    obtain ⟨front, blankless⟩ := takeExponent_spec behind
    have past : ('.' :: fraction ++ behind).drop (fraction.length + 1) = behind := List.drop_left
    simp only [none, if_false, past]
    refine ⟨?_, by simp [digit], fun c member => ?_⟩
    · rw [← List.append_assoc]
      exact (List.prefix_append_right_inj _).mpr front
    · rcases List.mem_append.mp member with first | later
      · rcases List.mem_append.mp first with first | later
        · exact isBlank_of_isNameChar (plain c first)
        · rcases List.mem_cons.mp later with rfl | later
          · rfl
          · exact isBlank_of_isNameChar (names c later)
      · exact blankless c later

/-! ## Strings -/

theorem takeString_append {cs body : List Char} (closed : takeString cs = (.closed, body))
    (rest : List Char) : takeString (cs ++ rest) = (.closed, body) := by
  fun_induction takeString cs generalizing body with
  | case1 => cases closed
  | case2 others => cases closed; rfl
  | case3 => cases closed
  | case4 c others other stop inner scanned ih =>
    cases closed
    rw [List.cons_append, List.cons_append, takeString, if_neg other, ih scanned]
  | case5 => cases closed
  | case6 c others quote _ other stop inner scanned ih =>
    cases closed
    rw [List.cons_append, takeString, if_neg other, ih scanned]
    · exact quote
    · intro _ _ same
      exact absurd same other

/-- A closed literal is read off the front and ends with a quote. -/
theorem takeString_spec {cs body : List Char} (closed : takeString cs = (.closed, body)) :
    ∃ text, body = text ++ ['"'] ∧ body <+: cs := by
  fun_induction takeString cs generalizing body with
  | case1 => cases closed
  | case2 others =>
    cases closed
    exact ⟨[], rfl, List.cons_prefix_cons.mpr ⟨rfl, List.nil_prefix⟩⟩
  | case3 => cases closed
  | case4 c others other stop inner scanned ih =>
    cases closed
    obtain ⟨text, rfl, front⟩ := ih scanned
    exact ⟨'\\' :: c :: text, rfl, by simpa using front⟩
  | case5 => cases closed
  | case6 c others quote _ other stop inner scanned ih =>
    cases closed
    obtain ⟨text, rfl, front⟩ := ih scanned
    exact ⟨c :: text, rfl, List.cons_prefix_cons.mpr ⟨rfl, front⟩⟩

/-! ## Tokens -/

theorem nameLexeme_source (name rest : List Char) : (nameLexeme name rest).source = name := by
  unfold nameLexeme
  split
  · rfl
  · split
    · rfl
    · split <;> rfl

theorem wordLexeme_append {rest : List Char} (ends : EndsWord rest) (cs : List Char) :
    wordLexeme (cs ++ rest) = wordLexeme cs := by
  have short : (cs.takeWhile isNameChar).length ≤ cs.length :=
    (List.takeWhile_prefix isNameChar).length_le
  have follows : ((cs ++ rest).drop (cs.takeWhile isNameChar).length).head? = some '+' ↔
      (cs.drop (cs.takeWhile isNameChar).length).head? = some '+' := by
    rw [List.drop_append_of_le_length short]
    cases cs.drop (cs.takeWhile isNameChar).length with
    | nil =>
      refine ⟨fun plus => absurd rfl (ends '+' plus).2.2, fun plus => ?_⟩
      cases plus
    | cons c others => exact Iff.rfl
  have name : nameLexeme (cs.takeWhile isNameChar)
      ((cs ++ rest).drop (cs.takeWhile isNameChar).length) =
        nameLexeme (cs.takeWhile isNameChar) (cs.drop (cs.takeWhile isNameChar).length) := by
    simp only [nameLexeme, Bool.and_eq_true, beq_iff_eq, follows]
  rw [wordLexeme, wordLexeme, ends.takeWhile_name, takeNumeral_append ends]
  simp only [name]

/-- A word is read off the front and has no blanks. -/
theorem wordLexeme_spec {c : Char} (cs : List Char) (name : isNameChar c = true) :
    (wordLexeme (c :: cs)).source <+: c :: cs ∧ (wordLexeme (c :: cs)).source ≠ [] ∧
      ∀ x ∈ (wordLexeme (c :: cs)).source, isBlank x = false := by
  have names : (c :: cs).takeWhile isNameChar <+: c :: cs ∧ (c :: cs).takeWhile isNameChar ≠ [] ∧
      ∀ x ∈ (c :: cs).takeWhile isNameChar, isBlank x = false := by
    refine ⟨List.takeWhile_prefix _, by simp [name], fun x member => ?_⟩
    exact isBlank_of_isNameChar (List.all_eq_true.mp List.all_takeWhile x member)
  unfold wordLexeme
  dsimp only
  split
  · rename_i numeral taken
    split
    · exact takeNumeral_spec taken
    · rw [nameLexeme_source]
      exact names
  · rw [nameLexeme_source]
    exact names

theorem munch_of_punctuation {c : Char} {token : Token} (read : punctuation? c = some token)
    (cs : List Char) : munch c cs = ⟨some token, [c]⟩ := by
  rw [munch, read]

theorem munch_of_quote (cs : List Char) : munch '"' cs = stringLexeme cs := rfl

theorem munch_of_isNameChar {c : Char} (name : isNameChar c = true) (cs : List Char) :
    munch c cs = wordLexeme (c :: cs) := by
  have plain : punctuation? c = none := by
    unfold punctuation?
    split <;> first | cases name | rfl
  have quote : c ≠ '"' := by
    rintro rfl
    cases name
  simp only [munch, plain, if_neg quote, name, if_true]

/-- A valid token begins as a mark, with a quote or as a word. -/
theorem opens_of_valid {c : Char} {cs : List Char} (valid : (munch c cs).token.isSome = true) :
    (∃ token, punctuation? c = some token) ∨ c = '"' ∨ isNameChar c = true := by
  unfold munch at valid
  split at valid
  · rename_i token mark
    exact .inl ⟨token, mark⟩
  · split at valid
    · rename_i quote
      exact .inr (.inl quote)
    · split at valid
      · rename_i name
        exact .inr (.inr name)
      · cases valid

theorem closed_of_valid {cs : List Char} (valid : (stringLexeme cs).token.isSome = true) :
    ∃ body, takeString cs = (.closed, body) := by
  unfold stringLexeme at valid
  split at valid
  · cases valid
  · rename_i body closed
    exact ⟨body, closed⟩

theorem token_stringLexeme {cs : List Char} {token : Token}
    (read : (stringLexeme cs).token = some token) : ∃ text, token = .text text := by
  unfold stringLexeme at read
  split at read
  · cases read
  · obtain ⟨text, -, rfl⟩ := Option.map_eq_some_iff.mp read
    exact ⟨_, rfl⟩

/-- Of the valid tokens only words could go on in a text that is put behind. -/
theorem munch_append_of_word {c : Char} {cs rest : List Char}
    (valid : (munch c cs).token.isSome = true)
    (word : isNameChar c = true → wordLexeme (c :: (cs ++ rest)) = wordLexeme (c :: cs)) :
    munch c (cs ++ rest) = munch c cs := by
  rcases opens_of_valid valid with ⟨token, mark⟩ | rfl | name
  · rw [munch_of_punctuation mark, munch_of_punctuation mark]
  · rw [munch_of_quote] at valid
    obtain ⟨body, closed⟩ := closed_of_valid valid
    rw [munch_of_quote, munch_of_quote, stringLexeme, stringLexeme, closed,
      takeString_append closed]
  · rw [munch_of_isNameChar name, munch_of_isNameChar name]
    exact word name

/-- A valid token stays the same when such a text is put behind. -/
theorem munch_append {c : Char} {cs rest : List Char} (ends : EndsWord rest)
    (valid : (munch c cs).token.isSome = true) : munch c (cs ++ rest) = munch c cs :=
  munch_append_of_word valid fun _ => wordLexeme_append ends (c :: cs)

/-- The source of a valid token is read off the front, and blanks neither begin nor end it. -/
theorem munch_spec {c : Char} {cs : List Char} (solid : isBlank c = false)
    (valid : (munch c cs).token.isSome = true) :
    ∃ tail, (munch c cs).source = c :: tail ∧ tail <+: cs ∧
      ∀ x ∈ (c :: tail).getLast?, isBlank x = false := by
  rcases opens_of_valid valid with ⟨token, mark⟩ | rfl | name
  · rw [munch_of_punctuation mark]
    refine ⟨[], rfl, List.nil_prefix, fun x last => ?_⟩
    cases last
    exact solid
  · rw [munch_of_quote] at valid ⊢
    obtain ⟨body, closed⟩ := closed_of_valid valid
    obtain ⟨text, rfl, front⟩ := takeString_spec closed
    rw [stringLexeme, closed]
    refine ⟨text ++ ['"'], rfl, front, fun x last => ?_⟩
    rw [← List.cons_append, List.getLast?_concat] at last
    cases last
    rfl
  · rw [munch_of_isNameChar name]
    obtain ⟨whole, some, solids⟩ := wordLexeme_spec cs name
    generalize (wordLexeme (c :: cs)).source = source at whole some solids
    cases source with
    | nil => contradiction
    | cons first tail =>
      obtain ⟨rfl, front⟩ := List.cons_prefix_cons.mp whole
      exact ⟨tail, rfl, front, fun x last => solids x (List.mem_of_getLast? last)⟩

theorem wordLexeme_of_ident {cs : List Char} {name : String}
    (ident : (wordLexeme cs).token = some (.ident name)) :
    wordLexeme cs =
      ⟨some (.ident (String.ofList (cs.takeWhile isNameChar))), cs.takeWhile isNameChar⟩ := by
  have whole : ∀ rest, (nameLexeme (cs.takeWhile isNameChar) rest).token = some (.ident name) →
      nameLexeme (cs.takeWhile isNameChar) rest =
        ⟨some (.ident (String.ofList (cs.takeWhile isNameChar))), cs.takeWhile isNameChar⟩ := by
    intro rest read
    unfold nameLexeme at read ⊢
    split at read
    · cases read
    · rename_i complete
      rw [if_neg complete]
      split at read
      · cases read
      · rename_i yes
        rw [if_neg yes]
        split at read
        · cases read
        · rename_i no
          rw [if_neg no]
  unfold wordLexeme at ident ⊢
  dsimp only at ident ⊢
  split at ident
  · split at ident
    · cases ident
    · rename_i longer
      rw [if_neg longer]
      exact whole _ ident
  · exact whole _ ident

end Lexer

/-! ## Texts of one token -/

theorem lexUntil_blanks (stop : Token → Bool) {blanks : List Char}
    (blank : ∀ c ∈ blanks, isBlank c = true) (offset : Nat) (rest : List Char) :
    lexUntil stop offset (blanks ++ rest) = lexUntil stop (offset + byteLength blanks) rest := by
  induction blanks generalizing offset with
  | nil => rfl
  | cons c others ih =>
    rw [List.cons_append, lexUntil, if_pos (blank c List.mem_cons_self),
      ih (fun x member => blank x (List.mem_cons_of_mem _ member)), byteLength_cons, Nat.add_assoc]

theorem blank_of_lexUntil_eq_nil {offset : Nat} {cs : List Char}
    (none : (lexUntil (fun _ => false) offset cs).1 = []) : ∀ c ∈ cs, isBlank c = true := by
  induction cs generalizing offset with
  | nil => simp
  | cons c others ih =>
    rw [lexUntil] at none
    split at none
    · rename_i blank
      exact List.forall_mem_cons.mpr ⟨blank, ih none⟩
    · simp at none

/-- A text that is one token: the source of the token with blanks around it. -/
def IsToken (cs : List Char) (lexeme : Lexeme) : Prop :=
  ∃ before c tail after, cs = before ++ (c :: tail ++ after) ∧
    (∀ x ∈ before, isBlank x = true) ∧ (∀ x ∈ after, isBlank x = true) ∧ isBlank c = false ∧
    (∀ x ∈ (c :: tail).getLast?, isBlank x = false) ∧
    Lexer.munch c (tail ++ after) = lexeme ∧ lexeme.source = c :: tail

theorem isToken_of_lexUntil {offset : Nat} {cs : List Char} {item : Located}
    (alone : (lexUntil (fun _ => false) offset cs).1 = [item])
    (valid : item.lexeme.token.isSome = true) : IsToken cs item.lexeme := by
  induction cs generalizing offset with
  | nil => simp [lexUntil] at alone
  | cons c cs ih =>
    rw [lexUntil] at alone
    split at alone
    · rename_i blank
      obtain ⟨before, first, tail, after, rfl, blanks, others⟩ := ih alone
      exact ⟨c :: before, first, tail, after, rfl, List.forall_mem_cons.mpr ⟨blank, blanks⟩, others⟩
    · rename_i solid
      rw [Bool.not_eq_true] at solid
      simp only [Option.any_false, Bool.false_eq_true, if_false, List.cons.injEq] at alone
      obtain ⟨rfl, none⟩ := alone
      obtain ⟨tail, source, ⟨after, rfl⟩, last⟩ := Lexer.munch_spec solid valid
      refine ⟨[], c, tail, after, rfl, by simp, ?_, solid, last, rfl, source⟩
      have behind := blank_of_lexUntil_eq_nil none
      simpa [source] using behind

theorem munch_of_isIdent {text : String} {c : Char} {cs : List Char}
    (chars : text.toList = c :: cs) (solid : isBlank c = false) (ident : isIdent text = true) :
    ∃ name, (Lexer.munch c cs).token = some (.ident name) := by
  unfold isIdent lex at ident
  rw [chars, lexUntil, if_neg (by simp [solid])] at ident
  split at ident
  · rename_i item single
    simp only [Option.any_false, Bool.false_eq_true, if_false, List.cons.injEq] at single
    obtain ⟨rfl, -⟩ := single
    split at ident
    · rename_i name found
      exact ⟨name, found⟩
    · cases ident
  · cases ident

/-- A name that is no literal is one token. -/
theorem isToken_of_isIdent {name : String} (token : isNameToken name = true)
    (ident : isIdent name = true) : IsToken name.toList ⟨some (.ident name), name.toList⟩ := by
  rw [isNameToken, Bool.and_eq_true, Bool.not_eq_true'] at token
  have all := List.all_eq_true.mp token.2
  have restored : String.ofList name.toList = name := String.ofList_toList
  cases chars : name.toList with
  | nil =>
    rw [chars] at restored
    rw [← restored] at token
    cases token.1
  | cons c cs =>
    rw [chars] at all restored
    have solid := isBlank_of_isNameChar (all c List.mem_cons_self)
    have munched := Lexer.munch_of_isNameChar (all c List.mem_cons_self) cs
    obtain ⟨other, found⟩ := munch_of_isIdent chars solid ident
    rw [munched] at found
    have word := Lexer.wordLexeme_of_ident found
    rw [List.takeWhile_eq_self_iff.mpr all, restored] at word
    refine ⟨[], c, cs, [], by simp, by simp, by simp, solid, fun x last => ?_, ?_, rfl⟩
    · exact isBlank_of_isNameChar (all x (List.mem_of_getLast? last))
    · rw [List.append_nil, munched, word]

/-- A text that is one token is the same token in front of what ends a word. -/
theorem lexUntil_single {cs rest : List Char} {lexeme : Lexeme} {token : Token}
    (single : IsToken cs lexeme) (valid : lexeme.token = some token) (ends : EndsWord rest)
    {stop : Token → Bool} (goesOn : stop token = false) (offset : Nat) :
    ∃ span later, lexUntil stop offset (cs ++ rest) =
      (⟨lexeme, span⟩ :: (lexUntil stop later rest).1, (lexUntil stop later rest).2) := by
  obtain ⟨before, c, tail, after, rfl, blanks, blanksAfter, solid, -, munched, source⟩ := single
  have same : Lexer.munch c (tail ++ after ++ rest) = lexeme := by
    rw [Lexer.munch_append ends (by rw [munched, valid]; rfl), munched]
  rw [List.append_assoc, lexUntil_blanks stop blanks, List.cons_append, List.cons_append, lexUntil,
    if_neg (by simp [solid])]
  have behind : (tail ++ after ++ rest).drop ((c :: tail).length - 1) = after ++ rest := by
    rw [List.append_assoc]
    exact List.drop_left
  simp only [same, valid, Option.any_some, goesOn, Bool.false_eq_true, if_false, source, behind,
    lexUntil_blanks stop blanksAfter]
  exact ⟨_, _, rfl⟩

/-- The text without the blanks at its beginning and its end. -/
def stripBlanks (cs : List Char) : List Char := (cs.dropWhile isBlank).rdropWhile isBlank

theorem IsToken.stripBlanks_eq {cs : List Char} {lexeme : Lexeme} (single : IsToken cs lexeme) :
    stripBlanks cs = lexeme.source := by
  obtain ⟨before, c, tail, after, rfl, blanks, blanksAfter, solid, last, -, source⟩ := single
  have front : (before ++ (c :: tail ++ after)).dropWhile isBlank = c :: tail ++ after := by
    rw [List.dropWhile_append_of_pos blanks, List.cons_append,
      List.dropWhile_cons_of_neg (by simp [solid])]
  have back : (after.reverse ++ (c :: tail).reverse).dropWhile isBlank = (c :: tail).reverse := by
    rw [List.dropWhile_append_of_pos (fun x member => blanksAfter x (List.mem_reverse.mp member))]
    cases reversed : (c :: tail).reverse with
    | nil => rfl
    | cons x others =>
      have final : (c :: tail).getLast? = some x := by
        rw [List.getLast?_eq_head?_reverse, reversed]
        rfl
      exact List.dropWhile_cons_of_neg (by simp [last x final])
  rw [stripBlanks, front, List.rdropWhile, List.reverse_append, back, List.reverse_reverse, source]

end TypedTemplate
