import TypedTemplate.Plan.Binding
import TypedTemplate.Proofs.Render.Freshness
import TypedTemplate.Proofs.Template.Relocation
import TypedTemplate.Proofs.Template.Seam

/-!
Reading distributes over concatenation. When a text is a template, no token of it, no doubled
brace and no placeholder reaches across its end, whatever is put behind it. So the template of
both texts has the elements of the first and then those of the second, shifted, but for texts that
meet at the seam, which become one (`Template.parse_append`).
-/
namespace TypedTemplate

/-! ## Binding and rendering -/

variable {W : Type}

theorem Chain.calls_relocate (f : Nat → Nat) (chain : Chain) :
    (chain.relocate f).calls = chain.calls.map (Call.relocate f) := by
  match chain with
  | .first call => rfl
  | .next parent call =>
    rw [Chain.relocate, calls, calls, parent.calls_relocate, List.map_append]
    rfl

theorem Call.name_relocate (f : Nat → Nat) (call : Call) : (call.relocate f).name = call.name := by
  cases call <;> rfl

/-- The names of the calls do not depend on places, and with them neither does the path. -/
theorem Chain.path?_relocate (f : Nat → Nat) (directory : Directory W) (start : Kind)
    (accepts : Kind → Bool) (chain : Chain) :
    (chain.relocate f).path? directory start accepts = chain.path? directory start accepts := by
  have names : (chain.relocate f).references = chain.references := by
    rw [references, references, calls_relocate, List.map_map]
    exact List.map_congr_left fun call _ => call.name_relocate f
  rw [path?, path?, names]

mutual

theorem Call.fill_relocate (f : Nat → Nat) (directory : Directory W) (start : Kind) (call : Call) :
    (call.relocate f).fill directory start = call.fill directory start := by
  cases call with
  | bare name span => rfl
  | applied name args span =>
    funext mapping
    rw [Call.relocate, Call.fill, Call.fill, args.written_relocate]

theorem Args.written_relocate (f : Nat → Nat) (directory : Directory W) (start : Kind)
    (args : Args) : (args.relocate f).written directory start = args.written directory start := by
  cases args with
  | nil => rfl
  | cons arg rest =>
    obtain ⟨label, value, span⟩ := arg
    rw [Args.relocate, Arg.relocate, Args.written, Args.written, value.bind_relocate,
      rest.written_relocate]

theorem ArgValue.bind_relocate (f : Nat → Nat) (directory : Directory W) (start : Kind)
    (value : ArgValue) : (value.relocate f).bind directory start = value.bind directory start := by
  cases value with
  | literal literal => rfl
  | expr expr =>
    funext parameter
    rw [ArgValue.relocate, ArgValue.bind, ArgValue.bind, expr.routes_relocate]

theorem Chain.fills_relocate (f : Nat → Nat) (directory : Directory W) (start : Kind)
    (chain : Chain) : (chain.relocate f).fills directory start = chain.fills directory start := by
  cases chain with
  | first call => rw [Chain.relocate, Chain.fills, Chain.fills, call.fill_relocate]
  | next parent call =>
    rw [Chain.relocate, Chain.fills, Chain.fills, parent.fills_relocate, call.fill_relocate]

theorem Expr.routes_relocate (f : Nat → Nat) (directory : Directory W) (start : Kind)
    (expr : Expr) : (expr.relocate f).routes directory start = expr.routes directory start := by
  funext accepts
  cases expr with
  | arm main =>
    rw [Expr.relocate, Expr.routes, Expr.routes, main.path?_relocate, main.fills_relocate]
  | orElse main others =>
    rw [Expr.relocate, Expr.routes, Expr.routes, main.path?_relocate, main.fills_relocate,
      others.routes_relocate]

end

theorem Chain.choice?_relocate (f : Nat → Nat) (directory : Directory W) (start : Kind)
    (chain : Chain) : (chain.relocate f).choice? directory start = chain.choice? directory start := by
  rw [choice?, choice?, path?_relocate, fills_relocate]

theorem Expr.bind_relocate (f : Nat → Nat) (directory : Directory W) (start : Kind)
    (expr : Expr) : (expr.relocate f).bind directory start = expr.bind directory start := by
  have arms (expr : Expr) : (expr.relocate f).arms = expr.arms.map (Chain.relocate f) := by
    induction expr using Expr.arms.induct with
    | case1 main => rfl
    | case2 main others ih => rw [Expr.relocate, Expr.arms, Expr.arms, ih, List.map_cons]
  have main : (expr.relocate f).main = expr.main.relocate f := by
    cases expr <;> rfl
  have names : (expr.main.relocate f).names = expr.main.names := by
    rw [Chain.names, Chain.names, Chain.calls_relocate, List.map_map]
    exact congrArg _ (List.map_congr_left fun call _ => by
      rw [Function.comp_apply, call.name_relocate])
  rw [bind, bind, main, names, arms, List.filterMap_map]
  exact congrArg _ (List.filterMap_congr fun chain _ => chain.choice?_relocate f directory start)

def Template.relocate (f : Nat → Nat) (template : Template) : Template :=
  ⟨template.elements.map (Element.relocate f)⟩

/-- What a template is bound to does not depend on where its parts stand. -/
theorem Template.bind_relocate (f : Nat → Nat) (directory : Directory W) (start : Kind)
    (template : Template) :
    (template.relocate f).bind directory start = template.bind directory start := by
  rw [bind, bind, relocate, List.map_map]
  refine congrArg _ (List.map_congr_left fun element _ => ?_)
  cases element with
  | text raw span => rfl
  | placeholder expr span =>
    exact congrArg BoundElement.placeholder (expr.bind_relocate f directory start)

namespace BoundTemplate

variable (directory : Directory W) (start : Kind) (context : Value) (viewer : Option Value)
  (config : Config)

/-- The text of some elements. -/
def shown (host : Host W) (elements : List Element) : String :=
  (renderElements context viewer config host ((Template.mk elements).bind directory start).elements).1

theorem shown_consText (host : Host W) (raw : String) (span : Span) (elements : List Element) :
    shown directory start context viewer config host (Reader.consText raw span elements) =
      raw ++ shown directory start context viewer config host elements := by
  match elements with
  | [] => rfl
  | .text more next :: rest => exact String.append_assoc
  | .placeholder expr next :: rest => rfl

/-- Rendering an element leaves the outside state to the others as it was. -/
theorem shown_cons (host : Host W) (element : Element) (rest : List Element) :
    shown directory start context viewer config host (element :: rest) =
      shown directory start context viewer config host [element] ++
        shown directory start context viewer config host rest := by
  have split (bound : BoundElement W) (bounds : List (BoundElement W)) :
      (renderElements context viewer config host (bound :: bounds)).1 =
        (renderElements context viewer config host [bound]).1 ++
          (renderElements context viewer config host bounds).1 := by
    have states := bound.renderOnce_state context viewer config host
    simp only [renderElements, String.append_empty]
    rw [renderElements_congr states]
  exact split _ _

/-- The text of the elements of two texts in one is that of the first and then that of the
second. -/
theorem shown_joinElements (host : Host W) (first second : List Element) :
    shown directory start context viewer config host (Reader.joinElements first second) =
      shown directory start context viewer config host first ++
        shown directory start context viewer config host second := by
  fun_induction Reader.joinElements first second with
  | case1 second => exact String.empty_append.symm
  | case2 raw span second =>
    rw [shown_consText]
    exact congrArg (· ++ _) String.append_empty.symm
  | case3 element rest second _ ih =>
    rw [shown_cons, ih, shown_cons directory start context viewer config host element rest,
      String.append_assoc]

end BoundTemplate

namespace Template

/-- The template of two texts in one. -/
def append (first second : Template) : Template :=
  ⟨Reader.joinElements first.elements second.elements⟩

/-- Parsing distributes over concatenation. Behind a text that is a template, another is read as
it stands: if it is a template too, the elements of the second follow those of the first, shifted,
but for texts that meet, which become one; if it is none, neither is the whole, with the same
error, shifted. And what two templates in one render to is what the first renders to and then what
the second does. -/
theorem parse_append {a : String} {first : Template} (parsed : parse a = .ok first) (b : String) :
    (parse (a ++ b) = match parse b with
      | .ok second => .ok (first.append (second.relocate (· + a.utf8ByteSize)))
      | .error e => .error (e.relocate (· + a.utf8ByteSize))) ∧
    ∀ second joined, parse b = .ok second → parse (a ++ b) = .ok joined →
      ∀ {W : Type} (directory : Directory W) (start : Kind) (context : Value)
        (viewer : Option Value) (config : Config) (host : Host W),
        ((joined.bind directory start).renderOnce context viewer config host).1 =
          ((first.bind directory start).renderOnce context viewer config host).1 ++
            ((second.bind directory start).renderOnce context viewer config host).1 := by
  have whole : parse (a ++ b) = match parse b with
      | .ok second => .ok (first.append (second.relocate (· + a.utf8ByteSize)))
      | .error e => .error (e.relocate (· + a.utf8ByteSize)) := by
    have read := Reader.elements_append (elements_of_parse parsed) b.toList
    rw [Reader.elements_shift, byteLength_toList] at read
    rw [parse, parse, String.toList_append, read]
    cases Reader.elements 0 b.toList <;> rfl
  refine ⟨whole, fun second joined spelled both => ?_⟩
  intro W directory start context viewer config host
  rw [whole, spelled] at both
  cases both
  rw [← second.bind_relocate (· + a.utf8ByteSize) directory start]
  exact BoundTemplate.shown_joinElements directory start context viewer config host
    first.elements (second.relocate (· + a.utf8ByteSize)).elements

/-- Texts meet at the seam and become one, and an error behind it is found where it stands. -/
theorem parse_append_seam :
    let y (start : Nat) : Expr := .arm (.first (.bare ⟨["y"]⟩ ⟨start, start + 1⟩))
    let first : Template := ⟨[.text "x" ⟨0, 1⟩, .placeholder (y 2) ⟨1, 4⟩, .text "z" ⟨4, 5⟩]⟩
    let joined : Template :=
      ⟨[.text "x" ⟨0, 1⟩, .placeholder (y 2) ⟨1, 4⟩, .text "zw" ⟨4, 6⟩, .placeholder (y 7) ⟨6, 9⟩]⟩
    parse "x\x7by\x7dz" = .ok first ∧ parse ("x\x7by\x7dz" ++ "w\x7by\x7d") = .ok joined ∧
      parse ("x\x7by\x7dz" ++ "w\x7d") = .error ⟨.unmatchedClose, ⟨6, 7⟩⟩ := by
  intro y first joined
  have parsed : parse "x\x7by\x7dz" = .ok first := by with_unfolding_all rfl
  have second : parse "w\x7by\x7d" = .ok ⟨[.text "w" ⟨0, 1⟩, .placeholder (y 2) ⟨1, 4⟩]⟩ := by
    with_unfolding_all rfl
  have failed : parse "w\x7d" = .error ⟨.unmatchedClose, ⟨1, 2⟩⟩ := by with_unfolding_all rfl
  refine ⟨parsed, ?_, ?_⟩
  · rw [(parse_append parsed _).1, second]
    rfl
  · rw [(parse_append parsed _).1, failed]
    rfl

end Template

end TypedTemplate
