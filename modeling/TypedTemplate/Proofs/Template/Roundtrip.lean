import Mathlib.Data.List.Chain
import TypedTemplate.Proofs.Template.Elements
import TypedTemplate.Proofs.Template.Placeholder

/-!
Reading a printed template gives it back, apart from where its parts stand and from blanks
around the raw texts of its literals.
-/
namespace TypedTemplate

/-! ## First characters -/

theorem isWord_head {word : String} (printable : IsWord word) :
    ∃ c cs, word.toList = c :: cs ∧ isNameChar c = true := by
  have token := printable.1
  rw [isNameToken, Bool.and_eq_true, Bool.not_eq_true'] at token
  cases chars : word.toList with
  | nil =>
    rw [String.toList_eq_nil_iff.mp chars] at token
    cases token.1
  | cons c cs =>
    rw [chars] at token
    exact ⟨c, cs, rfl, List.all_eq_true.mp token.2 c List.mem_cons_self⟩

theorem call_print_head {call : Call} (printable : call.IsPrintable) :
    ∃ c cs, call.print = c :: cs ∧ isNameChar c = true := by
  have named : ∀ {name : Name}, name.IsPrintable →
      ∃ c cs, name.toString.toList = c :: cs ∧ isNameChar c = true := by
    rintro ⟨tokens⟩ ⟨nonempty, words⟩
    cases tokens with
    | nil => contradiction
    | cons first more =>
      obtain ⟨c, cs, chars, head⟩ := isWord_head (words first List.mem_cons_self)
      exact ⟨c, _, by rw [Grammar.name_print rfl, chars, List.cons_append], head⟩
  cases call with
  | bare name span => exact named printable
  | applied name args span =>
    obtain ⟨c, cs, chars, head⟩ := named printable.1
    exact ⟨c, _, by rw [Call.print, chars, List.cons_append], head⟩

theorem chain_print_head : ∀ {chain : Chain}, chain.IsPrintable →
    ∃ c cs, chain.print = c :: cs ∧ isNameChar c = true
  | .first _, printable => call_print_head printable
  | .next _ _, printable => by
    obtain ⟨c, cs, chars, head⟩ := chain_print_head printable.1
    exact ⟨c, _, by rw [Chain.print, chars, List.cons_append], head⟩

theorem expr_print_head {expr : Expr} (printable : expr.IsPrintable) :
    ∃ c cs, expr.print = c :: cs ∧ isNameChar c = true := by
  cases expr with
  | arm main => exact chain_print_head printable
  | orElse main others =>
    obtain ⟨c, cs, chars, head⟩ := chain_print_head printable.1
    exact ⟨c, _, by rw [Expr.print, chars, List.cons_append], head⟩

namespace Reader

/-- Whether the elements of a text, apart from their places, are these. -/
def Gives (cs : List Char) (spelled : List Element) : Prop :=
  ∀ offset, ∃ found, elements offset cs = .ok found ∧ found.map Element.erase = spelled

theorem consText_erase (text : String) (span : Span) (found : List Element) :
    (consText text span found).map Element.erase =
      consText text .none (found.map Element.erase) := by
  match found with
  | [] => rfl
  | .text _ _ :: _ => rfl
  | .placeholder _ _ :: _ => rfl

theorem Gives.nil : Gives [] [] := by
  intro offset
  exact ⟨[], elements_nil offset, rfl⟩

theorem Gives.double {c : Char} {rest : List Char} {spelled : List Element}
    (brace : isBraceChar c = true) (onward : Gives rest spelled) :
    Gives (c :: c :: rest) (consText (String.singleton c) .none spelled) := by
  intro offset
  obtain ⟨found, read, rfl⟩ := onward (offset + 2)
  rw [elements_double brace, read, ← consText_erase _ ⟨offset, offset + 2⟩]
  exact ⟨_, rfl, rfl⟩

theorem Gives.plain {c : Char} {rest : List Char} {spelled : List Element}
    (plain : isBraceChar c = false) (onward : Gives rest spelled) :
    Gives (c :: rest) (consText (String.singleton c) .none spelled) := by
  intro offset
  obtain ⟨found, read, rfl⟩ := onward (offset + c.utf8Size)
  rw [elements_plain plain, read, ← consText_erase _ ⟨offset, offset + c.utf8Size⟩]
  exact ⟨_, rfl, rfl⟩

/-- Doubling the braces of a text keeps it apart from placeholders. -/
theorem Gives.text {cs rest : List Char} {spelled : List Element} (nonempty : cs ≠ [])
    (apart : ∀ element ∈ spelled.head?, element.isText = false) (onward : Gives rest spelled) :
    Gives (cs.flatMap doubleBrace ++ rest) (.text (String.ofList cs) .none :: spelled) := by
  have single : ∀ {c : Char} {behind : List Char} {next : List Element}, Gives behind next →
      Gives (doubleBrace c ++ behind) (consText (String.singleton c) .none next) := by
    intro c behind next follows
    unfold doubleBrace
    split
    · rename_i brace
      exact follows.double brace
    · rename_i plain
      exact follows.plain (by simpa using plain)
  induction cs with
  | nil => contradiction
  | cons c cs ih =>
    rw [List.flatMap_cons, List.append_assoc]
    cases cs with
    | nil =>
      have alone : consText (String.singleton c) .none spelled =
          .text (String.ofList [c]) .none :: spelled := by
        match spelled, apart with
        | [], _ => rfl
        | .placeholder _ _ :: _, _ => rfl
        | .text _ _ :: _, apart => cases apart _ rfl
      rw [← alone]
      exact single onward
    | cons d others =>
      have joined : consText (String.singleton c) .none
          (.text (String.ofList (d :: others)) .none :: spelled) =
            .text (String.ofList (c :: d :: others)) .none :: spelled := by
        rw [consText, ← String.ofList_cons]
      rw [← joined]
      exact single (ih (by simp))

theorem Gives.placeholder {expr : Expr} (printable : expr.IsPrintable) {rest : List Char}
    {spelled : List Element} (onward : Gives rest spelled) :
    Gives ('{' :: (expr.print ++ '}' :: rest))
      (.placeholder expr.strip.erase .none :: spelled) := by
  intro offset
  obtain ⟨found, stop, read, same⟩ := placeholder_print printable offset rest
  obtain ⟨others, readOthers, rfl⟩ := onward stop
  refine ⟨.placeholder found ⟨offset, stop⟩ :: others, ?_, by simp [Element.erase, same]⟩
  have single : (expr.print ++ '}' :: rest).head? ≠ some '{' := by
    obtain ⟨c, cs, chars, head⟩ := expr_print_head printable
    rw [chars, List.cons_append, List.head?_cons]
    rintro ⟨⟩
    cases head
  rw [elements_placeholder single, read]
  simp only [Except.bind, readOthers]
  rfl

end Reader

/-! ## Templates -/

theorem elements_print {elements : List Element}
    (printable : ∀ element ∈ elements, element.IsPrintable)
    (apart : elements.IsChain fun element next => ¬ (element.isText ∧ next.isText)) :
    Reader.Gives (elements.flatMap Element.print)
      ((elements.map Element.strip).map Element.erase) := by
  induction elements with
  | nil => exact .nil
  | cons element rest ih =>
    have others := ih (fun later member => printable later (List.mem_cons_of_mem _ member))
      apart.tail
    have first := printable element List.mem_cons_self
    rw [List.flatMap_cons, List.map_cons, List.map_cons]
    cases element with
    | placeholder expr span =>
      rw [Element.print, List.cons_append, List.append_assoc]
      exact .placeholder first others
    | text raw span =>
      have alone : ∀ next ∈ ((rest.map Element.strip).map Element.erase).head?,
          next.isText = false := by
        intro next member
        cases rest with
        | nil => cases member
        | cons later rest =>
          cases member
          cases later with
          | text more span => exact absurd ⟨rfl, rfl⟩ (List.isChain_cons_cons.mp apart).1
          | placeholder expr span => rfl
      have given := Reader.Gives.text (fun empty => first (String.toList_eq_nil_iff.mp empty)) alone
        others
      rw [String.ofList_toList] at given
      exact given

theorem Template.parse_of_gives {template : Template} {spelled : List Element}
    (gives : Reader.Gives (template.elements.flatMap Element.print) spelled) :
    ∃ found, Template.parse template.print = .ok found ∧ found.erase = ⟨spelled⟩ := by
  obtain ⟨found, read, same⟩ := gives 0
  refine ⟨⟨found⟩, ?_, congrArg Template.mk same⟩
  rw [Template.parse, Template.print, String.toList_ofList, read]
  rfl

/-- Reading a printed template gives it back, apart from where its parts stand and from
blanks around the raw texts of its literals. -/
theorem Template.parse_print (template : Template) (printable : template.IsPrintable) :
    ∃ found, Template.parse template.print = .ok found ∧ found.erase = template.strip.erase := by
  obtain ⟨found, read, same⟩ :=
    Template.parse_of_gives (elements_print printable.elements printable.apart)
  exact ⟨found, read, same⟩

/-- Doubled braces beside a placeholder, a brace in a string, and a nested expression. -/
def nestedTemplate : Template where
  elements :=
    [.text "\x7b" .none,
      .placeholder (.orElse
        (.first (.applied ⟨["f"]⟩
          (.cons (.mk (some "x") (.literal ⟨.text "\x7d", "\"\x7d\""⟩) .none)
            (.cons (.mk none (.expr (.arm (.next (.first (.bare ⟨["g", "f"]⟩ .none))
              (.applied ⟨["g"]⟩ .nil .none)))) .none) .nil)) .none))
        (.arm (.first (.bare ⟨["x"]⟩ .none)))) .none,
      .text "\x7d" .none]

theorem parse_print_nested :
    ∃ found, Template.parse "\x7b\x7b\x7bf(x = \"\x7d\", g:f g()) | x\x7d\x7d\x7d" = .ok found ∧
      found.erase = nestedTemplate := by
  have name : ∀ {word}, IsWord word → Name.IsPrintable ⟨[word]⟩ :=
    fun word => ⟨by simp, by simpa using word⟩
  have f : IsWord "f" := by decide +kernel
  have g : IsWord "g" := by decide +kernel
  have x : IsWord "x" := by decide +kernel
  have brace : Literal.IsPrintable ⟨.text "\x7d", "\"\x7d\""⟩ :=
    ⟨⟨⟨some (.text "\x7d"), ['"', '}', '"']⟩, ⟨0, 3⟩⟩, by with_unfolding_all rfl, rfl⟩
  refine Template.parse_print nestedTemplate ⟨?_, ?_⟩
  · intro element member
    simp only [nestedTemplate, List.mem_cons, List.not_mem_nil, or_false] at member
    rcases member with rfl | rfl | rfl
    · exact nofun
    · exact ⟨⟨name f, ⟨x, brace⟩, ⟨⟨by simp, by simp [f, g]⟩, name g, trivial⟩, trivial⟩, name x⟩
    · exact nofun
  · simp [nestedTemplate, Element.isText]

/-- Blanks around a raw text do not come back. -/
theorem parse_print_blanks :
    let template : Template := ⟨[.placeholder (.arm (.first (.applied ⟨["f"]⟩
      (.cons (.mk none (.literal ⟨.bool true, " true"⟩) .none) .nil) .none))) .none]⟩
    template.IsPrintable ∧ template.print = "\x7bf( true)\x7d" ∧
      ¬ ∃ found, Template.parse template.print = .ok found ∧ found.erase = template.erase := by
  intro template
  have f : IsWord "f" := by decide +kernel
  have yes : Literal.IsPrintable ⟨.bool true, " true"⟩ :=
    ⟨⟨⟨some .yes, ['t', 'r', 'u', 'e']⟩, ⟨1, 5⟩⟩, by with_unfolding_all rfl, rfl⟩
  have printable : template.IsPrintable := by
    refine ⟨fun element member => ?_, by simp [template]⟩
    rw [List.mem_singleton.mp member]
    exact ⟨⟨by simp, by simpa using f⟩, yes, trivial⟩
  refine ⟨printable, rfl, ?_⟩
  rintro ⟨found, read, same⟩
  obtain ⟨other, readOther, stripped⟩ :=
    Template.parse_of_gives (elements_print printable.elements printable.apart)
  rw [read] at readOther
  cases readOther
  rw [same] at stripped
  have raws : (⟨.bool true, " true"⟩ : Literal) = (⟨.bool true, " true"⟩ : Literal).strip := by
    simpa [template, Template.erase, Element.strip, Element.erase, Expr.strip, Expr.erase,
      Chain.strip, Chain.erase, Call.strip, Call.erase, Args.strip, Args.erase, Arg.strip,
      Arg.erase, ArgValue.strip, ArgValue.erase] using stripped
  have lengths := congrArg (fun literal : Literal => literal.raw.length) raws
  revert lengths
  decide +kernel

end TypedTemplate
