import Mathlib.Data.List.Chain
import TypedTemplate.Proofs.Template.Acceptance
import TypedTemplate.Proofs.Template.Elements
import TypedTemplate.Proofs.Template.Printing
import TypedTemplate.Proofs.Token.Alone

/-!
Every template that is read can be written: its names are words, the raw texts of its literals
read as these literals, and its texts are neither empty nor beside each other
(`Template.isPrintable_of_parse`). What a piece of a body reads as does not depend on the text
around it (`Piece.IsFaithful`), and a derivation is made of its pieces.
-/
namespace TypedTemplate

/-! ## Pieces -/

/-- Whether a piece reads by itself as what it stands for in an expression. -/
structure Piece.IsFaithful (piece : Piece) : Prop where
  word : ∀ word, piece.token = .ident word → IsWord word
  literal : ∀ literal, Grammar.literal? piece = some literal → literal.IsPrintable

/-- Only words are read as identifiers. -/
theorem Lexer.isNameChar_of_ident {c : Char} {cs : List Char} {word : String}
    (ident : (munch c cs).token = some (.ident word)) : isNameChar c = true := by
  rcases opens_of_valid (by rw [ident]; rfl) with ⟨token, mark⟩ | rfl | name
  · rw [munch_of_punctuation mark] at ident
    cases ident
    unfold punctuation? at mark
    split at mark <;> cases mark
  · obtain ⟨text, same⟩ := token_stringLexeme ident
    cases same
  · exact name

section

variable {stop : Token → Bool} {offset : Nat} {cs : List Char} {item : Located}

theorem isWord_of_ident (member : item ∈ (lexUntil stop offset cs).1) {word : String}
    (ident : item.lexeme.token = some (.ident word)) : IsWord word := by
  have alone := lex_source member (by rw [ident]; rfl)
  obtain ⟨c, rest, -, read⟩ := mem_lexUntil member
  have munched := read ▸ ident
  have name := Lexer.isNameChar_of_ident munched
  rw [Lexer.munch_of_isNameChar name] at munched read
  have whole := Lexer.wordLexeme_of_ident munched
  rw [whole] at munched read
  cases munched
  rw [read] at alone
  refine ⟨?_, ?_⟩
  · have all : ((c :: rest).takeWhile isNameChar).all isNameChar = true := List.all_takeWhile
    have some : (c :: rest).takeWhile isNameChar ≠ [] := by simp [name]
    simpa [isNameToken, all] using some
  · have size := byteLength_toList (String.ofList ((c :: rest).takeWhile isNameChar))
    rw [String.toList_ofList] at size
    simp only [isIdent, alone, size, decide_true]

theorem isFaithful_of_mem (member : item ∈ (lexUntil stop offset cs).1) {token : Token}
    (valid : item.lexeme.token = some token) :
    Piece.IsFaithful ⟨token, item.span, String.ofList item.lexeme.source⟩ := by
  refine ⟨?_, ?_⟩
  · rintro word rfl
    exact isWord_of_ident member valid
  · intro literal read
    have alone := lex_source member (by rw [valid]; rfl)
    cases token with
    | yes | no | number | text =>
      cases read
      exact ⟨_, alone, valid⟩
    | _ => cases read

theorem isFaithful_of_pieces {body : List Piece}
    (read : Reader.pieces (lexUntil stop offset cs).1 = .ok body) :
    ∀ piece ∈ body, piece.IsFaithful := by
  intro piece leaf
  obtain ⟨item, member, valid, same⟩ := Reader.exists_of_mem_pieces read leaf
  rw [same]
  exact isFaithful_of_mem member valid

end

/-! ## Expressions -/

namespace Grammar

theorem NameTree.isPrintable_toName (name : NameTree)
    (faithful : ∀ piece ∈ name.pieces, piece.IsFaithful) : name.toName.IsPrintable := by
  obtain ⟨first, behind⟩ := List.forall_mem_cons.mp faithful
  refine ⟨by simp [toName], List.forall_mem_cons.mpr ⟨first.word _ rfl, ?_⟩⟩
  intro token member
  obtain ⟨⟨colon, word⟩, found, rfl⟩ := List.mem_map.mp member
  have leaf : word.piece ∈ morePieces name.more :=
    List.mem_flatMap.mpr ⟨(colon, word), found, by simp⟩
  exact (behind word.piece leaf).word _ rfl

theorem isPrintable_extend {before : Option Chain} {call : Call}
    (printable : ∀ chain ∈ before, chain.IsPrintable) (next : call.IsPrintable) :
    (Chain.extend before call).IsPrintable := by
  cases before with
  | none => exact next
  | some chain => exact ⟨printable chain rfl, next⟩

mutual

theorem ExprTree.isPrintable_toExpr (expr : ExprTree)
    (faithful : ∀ piece ∈ expr.pieces, piece.IsFaithful) : expr.toExpr.IsPrintable := by
  cases expr with
  | arm main => exact main.isPrintable_toChain faithful none nofun
  | orElse main bar others =>
    obtain ⟨first, behind⟩ := List.forall_mem_append.mp faithful
    exact ⟨main.isPrintable_toChain first none nofun,
      others.isPrintable_toExpr (List.forall_mem_cons.mp behind).2⟩

theorem ChainTree.isPrintable_toChain (chain : ChainTree)
    (faithful : ∀ piece ∈ chain.pieces, piece.IsFaithful) (before : Option Chain)
    (printable : ∀ chain ∈ before, chain.IsPrintable) : (chain.toChain before).IsPrintable := by
  cases chain with
  | last call => exact isPrintable_extend printable (call.isPrintable_toCall faithful)
  | cons call rest =>
    obtain ⟨first, behind⟩ := List.forall_mem_append.mp faithful
    have longer := isPrintable_extend printable (call.isPrintable_toCall first)
    exact rest.isPrintable_toChain behind _ fun _ same => Option.some.inj same ▸ longer

theorem CallTree.isPrintable_toCall (call : CallTree)
    (faithful : ∀ piece ∈ call.pieces, piece.IsFaithful) : call.toCall.IsPrintable := by
  cases call with
  | bare name => exact name.isPrintable_toName faithful
  | applied name start args =>
    obtain ⟨first, behind⟩ := List.forall_mem_append.mp faithful
    exact ⟨name.isPrintable_toName first,
      args.isPrintable_toArgs (List.forall_mem_cons.mp behind).2⟩

theorem ArgsTree.isPrintable_toArgs (args : ArgsTree)
    (faithful : ∀ piece ∈ args.pieces, piece.IsFaithful) : args.toArgs.IsPrintable := by
  cases args with
  | empty stop => exact trivial
  | cons arg more =>
    obtain ⟨first, behind⟩ := List.forall_mem_append.mp faithful
    exact ⟨arg.isPrintable_toArg first, more.isPrintable_toArgs behind⟩

theorem MoreArgsTree.isPrintable_toArgs (more : MoreArgsTree)
    (faithful : ∀ piece ∈ more.pieces, piece.IsFaithful) : more.toArgs.IsPrintable := by
  cases more with
  | done stop => exact trivial
  | trailing comma stop => exact trivial
  | cons comma arg more =>
    obtain ⟨first, behind⟩ := List.forall_mem_append.mp (List.forall_mem_cons.mp faithful).2
    exact ⟨arg.isPrintable_toArg first, more.isPrintable_toArgs behind⟩

theorem ArgTree.isPrintable_toArg (arg : ArgTree)
    (faithful : ∀ piece ∈ arg.pieces, piece.IsFaithful) : arg.toArg.IsPrintable := by
  cases arg with
  | unnamed value => exact value.isPrintable_toValue faithful
  | named label equals value =>
    obtain ⟨first, behind⟩ := List.forall_mem_cons.mp faithful
    exact ⟨first.word _ rfl, value.isPrintable_toValue (List.forall_mem_cons.mp behind).2⟩

theorem ValueTree.isPrintable_toValue (value : ValueTree)
    (faithful : ∀ piece ∈ value.pieces, piece.IsFaithful) : value.toValue.IsPrintable := by
  cases value with
  | literal leaf => exact (faithful leaf.piece List.mem_cons_self).literal _ leaf.reads
  | expr inner => exact inner.isPrintable_toExpr faithful

end

theorem isPrintable_of_parse {close : Nat} {body : List Piece} {expr : Expr}
    (faithful : ∀ piece ∈ body, piece.IsFaithful) (accepted : parse close body = .ok expr) :
    expr.IsPrintable := by
  obtain ⟨tree, rfl⟩ := derives_of_parse accepted
  rw [parse_pieces] at accepted
  cases accepted
  exact tree.isPrintable_toExpr faithful

end Grammar

/-! ## Elements -/

namespace Reader

theorem isPrintable_placeholder {start : Nat} {cs : List Char} {p : Placeholder}
    (read : placeholder start cs = .ok p) : p.expr.IsPrintable := by
  obtain ⟨items, brace, body, scanned, -, valid, parsed, -⟩ := placeholder_eq_ok read
  have lexed : (lexUntil isBrace (start + 1) cs).1 = items := by rw [scanned]
  rw [← lexed] at valid
  exact Grammar.isPrintable_of_parse (isFaithful_of_pieces valid) parsed

/-- Text in front of a text that can be written is one text with it. -/
theorem isPrintable_consText {found : List Element} (printable : Template.IsPrintable ⟨found⟩)
    {text : String} (nonempty : text ≠ "") (span : Span) :
    Template.IsPrintable ⟨consText text span found⟩ := by
  obtain ⟨elements, apart⟩ := printable
  match found with
  | [] => exact ⟨fun element member => by rwa [List.mem_singleton.mp member], .singleton _⟩
  | .text more next :: rest =>
    have longer : text ++ more ≠ "" := by simp [nonempty]
    refine ⟨List.forall_mem_cons.mpr ⟨longer, (List.forall_mem_cons.mp elements).2⟩, ?_⟩
    cases rest with
    | nil => exact .singleton _
    | cons later rest => exact List.isChain_cons_cons.mpr (List.isChain_cons_cons.mp apart)
  | .placeholder expr next :: rest =>
    refine ⟨List.forall_mem_cons.mpr ⟨nonempty, elements⟩, ?_⟩
    exact List.isChain_cons_cons.mpr ⟨fun both => (by cases both.2), apart⟩

theorem isPrintable_elements {offset : Nat} {cs : List Char} {found : List Element}
    (read : elements offset cs = .ok found) : Template.IsPrintable ⟨found⟩ := by
  induction offset, cs using text_induction generalizing found with
  | nil offset =>
    rw [elements_nil] at read
    cases read
    exact ⟨nofun, .nil⟩
  | double offset c rest brace ih =>
    rw [elements_double brace] at read
    obtain ⟨others, onward, rfl⟩ := exists_of_map_eq_ok read
    exact isPrintable_consText (ih onward) (by simp) _
  | unmatched offset rest single =>
    rw [elements_unmatched single] at read
    cases read
  | placeholder offset rest single ih =>
    obtain ⟨p, others, scanned, onward, rfl⟩ := elements_placeholder_eq_ok single read
    obtain ⟨elements, apart⟩ := ih p scanned onward
    refine ⟨List.forall_mem_cons.mpr ⟨isPrintable_placeholder scanned, elements⟩, ?_⟩
    exact List.isChain_cons.mpr ⟨fun _ _ both => (by cases both.1), apart⟩
  | plain offset c rest plain ih =>
    rw [elements_plain plain] at read
    obtain ⟨others, onward, rfl⟩ := exists_of_map_eq_ok read
    exact isPrintable_consText (ih onward) (by simp) _

end Reader

/-- Every template that is read can be written. -/
theorem Template.isPrintable_of_parse {text : String} {template : Template}
    (parsed : Template.parse text = .ok template) : template.IsPrintable :=
  Reader.isPrintable_elements (elements_of_parse parsed)

end TypedTemplate
