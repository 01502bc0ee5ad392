import TypedTemplate.Template.Grammar

/-!
Reading templates. Outside placeholders a brace is written twice; anything else up
to the next brace is text, and neighbouring texts are one element. A single open
brace starts a placeholder, whose body is split into tokens up to the closing brace
before it is parsed, so that a missing brace is reported before anything else.
-/
namespace TypedTemplate

namespace Reader

/-- The valid pieces of a body, or its first invalid lexeme. -/
def pieces : List Located → Except Span (List Piece)
  | [] => .ok []
  | item :: rest =>
    match item.lexeme.token with
    | none => .error item.span
    | some token => do
      let others ← pieces rest
      return ⟨token, item.span, String.ofList item.lexeme.source⟩ :: others

def isBrace : Token → Bool
  | .braceOpen | .braceClose => true
  | _ => false

/-- A placeholder that has been read: its expression, where it ends, and the text
behind it. -/
structure Placeholder where
  expr : Expr
  stop : Nat
  rest : List Char

/-- Reads the placeholder whose open brace stands at `start`, from behind that brace. -/
def placeholder (start : Nat) (cs : List Char) : Except SyntaxError Placeholder :=
  match lexUntil isBrace (start + 1) cs with
  | (_, none) => .error ⟨.unclosedOpen, ⟨start, start + 1 + byteLength cs⟩⟩
  | (items, some (brace, rest)) =>
    match pieces items with
    | .error span => .error ⟨.invalidCharacter, span⟩
    | .ok body =>
      match brace.lexeme.token with
      | some .braceClose =>
        if body.isEmpty then .error ⟨.emptyPlaceholder, ⟨start, brace.span.stop⟩⟩
        else do
          let expr ← Grammar.parse brace.span.start body
          return ⟨expr, brace.span.stop, rest⟩
      | _ => .error ⟨.openInside, brace.span⟩

/-- Puts text in front of the elements, joined to a text that they start with. -/
def consText (text : String) (span : Span) : List Element → List Element
  | .text more moreSpan :: rest => .text (text ++ more) ⟨span.start, moreSpan.stop⟩ :: rest
  | elements => .text text span :: elements

def isBraceChar (c : Char) : Bool := c = '{' || c = '}'

theorem length_placeholder_rest {start : Nat} {cs : List Char} {p : Placeholder}
    (h : placeholder start cs = .ok p) : p.rest.length < cs.length := by
  unfold placeholder at h
  split at h
  · cases h
  · rename_i items brace rest scanned
    split at h
    · cases h
    · rename_i body valid
      split at h
      · split at h
        · cases h
        · cases parsed : Grammar.parse brace.span.start body with
          | error e => simp [parsed, bind, Except.bind] at h
          | ok expr =>
            simp only [parsed, bind, Except.bind, pure, Except.pure, Except.ok.injEq] at h
            subst h
            exact lexUntil_rest_length scanned
      · cases h

theorem length_dropWhile_le (p : Char → Bool) (cs : List Char) :
    (cs.dropWhile p).length ≤ cs.length :=
  List.Sublist.length_le (List.dropWhile_sublist p)

/-- The elements of a text whose first character stands at `offset`. -/
def elements (offset : Nat) (cs : List Char) : Except SyntaxError (List Element) :=
  match cs with
  | [] => .ok []
  | '{' :: '{' :: rest => do
    return consText "\x7b" ⟨offset, offset + 2⟩ (← elements (offset + 2) rest)
  | '}' :: '}' :: rest => do
    return consText "\x7d" ⟨offset, offset + 2⟩ (← elements (offset + 2) rest)
  | '}' :: _ => .error ⟨.unmatchedClose, ⟨offset, offset + 1⟩⟩
  | '{' :: rest =>
    match read : placeholder offset rest with
    | .error e => .error e
    | .ok p => do
      have : p.rest.length < rest.length := length_placeholder_rest read
      return .placeholder p.expr ⟨offset, p.stop⟩ :: (← elements p.stop p.rest)
  | c :: rest => do
    let run := c :: rest.takeWhile (!isBraceChar ·)
    let stop := offset + byteLength run
    return consText (String.ofList run) ⟨offset, stop⟩
      (← elements stop (rest.dropWhile (!isBraceChar ·)))
termination_by cs.length
decreasing_by
  all_goals simp only [List.length_cons]
  · omega
  · omega
  · omega
  · exact Nat.lt_succ_of_le (length_dropWhile_le (!isBraceChar ·) rest)

end Reader

/-- The template that a text spells. -/
def Template.parse (text : String) : Except SyntaxError Template :=
  (Reader.elements 0 text.toList).map Template.mk

end TypedTemplate
