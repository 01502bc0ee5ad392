import TypedTemplate.Proofs.Name
import TypedTemplate.Proofs.Registry.Admission
import TypedTemplate.Proofs.Template.Printability
import TypedTemplate.Proofs.Template.Roundtrip

/-!
The names that a mapping can be registered under are the names that a template can refer to.
Registration looks at each token by itself, while a template is cut into tokens as a whole; both
take exactly the names that can be written (`Name.IsPrintable`), and the reference that a template
makes to a name by writing it out leaves no token of it out (`Mapping.validate_iff_parse`).
-/
namespace TypedTemplate

namespace Name

/-- The placeholder that refers to a name by all its tokens. -/
def placeholder (name : Name) : String := "\x7b" ++ name.toString ++ "\x7d"

end Name

/-- The call of a template that is one placeholder with one arm of one call. -/
def Template.onlyCall? : Template → Option Call
  | ⟨[.placeholder (.arm (.first call)) _]⟩ => some call
  | _ => none

theorem Call.isPrintable_name {call : Call} (printable : call.IsPrintable) :
    call.name.IsPrintable := by
  cases call with
  | bare name span => exact printable
  | applied name args span => exact printable.1

namespace Template

theorem eq_of_onlyCall? {template : Template} {call : Call}
    (only : template.onlyCall? = some call) :
    ∃ span, template = ⟨[.placeholder (.arm (.first call)) span]⟩ := by
  unfold onlyCall? at only
  split at only
  · cases only
    exact ⟨_, rfl⟩
  · cases only

/-- Every name that stands alone in a placeholder can be written. -/
theorem isPrintable_onlyCall {template : Template} (printable : template.IsPrintable) {call : Call}
    (only : template.onlyCall? = some call) : call.name.IsPrintable := by
  obtain ⟨span, rfl⟩ := eq_of_onlyCall? only
  exact Call.isPrintable_name (printable.elements _ List.mem_cons_self)

theorem onlyCall?_erase (template : Template) :
    template.erase.onlyCall? = template.onlyCall?.map Call.erase := by
  match template with
  | ⟨[]⟩ => rfl
  | ⟨[.text _ _]⟩ => rfl
  | ⟨[.placeholder (.arm (.first _)) _]⟩ => rfl
  | ⟨[.placeholder (.arm (.next _ _)) _]⟩ => rfl
  | ⟨[.placeholder (.orElse _ _) _]⟩ => rfl
  | ⟨_ :: _ :: _⟩ => simp [erase, onlyCall?]

/-- The placeholder of a name that can be written refers to the name. -/
theorem parse_placeholder {name : Name} (printable : name.IsPrintable) :
    ∃ template place, parse name.placeholder = .ok template ∧
      template.onlyCall? = some (.bare name place) := by
  have written : Expr.IsPrintable (.arm (.first (.bare name .none))) := printable
  obtain ⟨found, read, same⟩ := Reader.Gives.placeholder written .nil 0
  have text : name.placeholder.toList =
      '{' :: (Expr.print (.arm (.first (.bare name .none))) ++ '}' :: []) := by
    simp [Name.placeholder, Expr.print, Chain.print, Call.print]
  have spelled : (Template.mk found).erase.onlyCall? = some (.bare name .none) := by
    rw [erase, same]
    rfl
  rw [onlyCall?_erase] at spelled
  obtain ⟨call, only, plain⟩ := Option.map_eq_some_iff.mp spelled
  cases call with
  | bare other place =>
    cases plain
    refine ⟨⟨found⟩, place, ?_, only⟩
    rw [parse, text, read]
    rfl
  | applied other args place => cases plain

end Template

namespace Mapping

variable {W : Type}

/-- Without parameters there is no rule but for the name. -/
theorem validate_eq_ok {mapping : Mapping W} (bare : mapping.parameters = []) :
    mapping.validate = .ok () ↔ mapping.name.IsPrintable := by
  rw [validate_eq_ok_iff]
  exact ⟨IsValid.name, fun printable => ⟨printable, fun _ => bare⟩⟩

/-- A mapping without parameters keeps the rules of registration exactly if its name, written out
in a placeholder, is read as one call without arguments of just this name; and then the name
answers to that call with no token left out. -/
theorem validate_iff_parse (mapping : Mapping W) (bare : mapping.parameters = []) :
    (mapping.validate = .ok () ↔
      ∃ template call, Template.parse mapping.name.placeholder = .ok template ∧
        template.onlyCall? = some call ∧ call.args? = none ∧ call.name = mapping.name) ∧
    ∀ template call, mapping.validate = .ok () →
      Template.parse mapping.name.placeholder = .ok template → template.onlyCall? = some call →
        mapping.name.skipped? call.name = some 0 := by
  rw [validate_eq_ok bare]
  refine ⟨⟨fun printable => ?_, ?_⟩, fun template call printable parsed only => ?_⟩
  · obtain ⟨template, place, parsed, only⟩ := Template.parse_placeholder printable
    exact ⟨template, _, parsed, only, rfl, rfl⟩
  · rintro ⟨template, call, parsed, only, -, named⟩
    rw [← named]
    exact Template.isPrintable_onlyCall (Template.isPrintable_of_parse parsed) only
  · obtain ⟨found, place, read, same⟩ := Template.parse_placeholder printable
    rw [read] at parsed
    cases parsed
    rw [same] at only
    cases only
    exact Name.skipped?_self printable.nonempty

/-- The beginning of a numeral is a token of a name, a numeral is none. -/
theorem validate_iff_parse_numerals :
    let mapping (last : String) : Mapping Unit :=
      ⟨⟨["a", last]⟩, "x", "y", true, [], fun _ _ _ => none, none, "", [], true⟩
    ((mapping "1e").parameters = [] ∧ (mapping "1e").validate = .ok () ∧
      (mapping "1e").name.skipped? ⟨["a", "1e"]⟩ = some 0) ∧
    ((mapping "1e5").parameters = [] ∧ ¬ ∃ template call,
      Template.parse "\x7ba:1e5\x7d" = .ok template ∧ template.onlyCall? = some call ∧
        call.args? = none ∧ call.name = ⟨["a", "1e5"]⟩) := by
  intro mapping
  have call : Template.parse "\x7ba:1e\x7d" =
      .ok ⟨[.placeholder (.arm (.first (.bare ⟨["a", "1e"]⟩ ⟨1, 5⟩))) ⟨0, 6⟩]⟩ := by
    with_unfolding_all rfl
  have reserved : (mapping "1e5").validate =
      .error (.reservedToken ⟨["a", "1e5"]⟩ "1e5") := by with_unfolding_all rfl
  obtain ⟨same, answers⟩ := validate_iff_parse (mapping "1e") rfl
  have valid := same.mpr ⟨_, _, call, rfl, rfl, rfl⟩
  refine ⟨⟨rfl, valid, answers _ _ valid call rfl⟩, rfl, fun parsed => ?_⟩
  have refused := (validate_iff_parse (mapping "1e5") rfl).1.mpr parsed
  rw [reserved] at refused
  cases refused

end Mapping

end TypedTemplate
