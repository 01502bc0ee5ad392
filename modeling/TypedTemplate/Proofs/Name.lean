import Mathlib.Data.List.Basic
import TypedTemplate.Name

/-!
Abbreviated names. A reference means a name if its tokens stand in the name in their order and
both end in the same token. Tokens are crossed off where they are met first, and this misses no
way to find them: what is crossed off early leaves more of the name for the rest
(`Name.crossOff_eq_nil`). So a reference is counted as leaving out all that it does not name
(`Name.skipped?_eq`).
-/
namespace TypedTemplate

namespace Name

/-- Whether a reference means a name. -/
structure Abbreviates (reference name : Name) : Prop where
  nonempty : reference.tokens ≠ []
  last : reference.tokens.getLast? = name.tokens.getLast?
  inOrder : reference.tokens.Sublist name.tokens

instance (reference name : Name) : Decidable (reference.Abbreviates name) :=
  decidable_of_iff (reference.tokens ≠ [] ∧
      reference.tokens.getLast? = name.tokens.getLast? ∧ reference.tokens.Sublist name.tokens)
    ⟨fun ⟨nonempty, last, inOrder⟩ => ⟨nonempty, last, inOrder⟩,
      fun means => ⟨means.nonempty, means.last, means.inOrder⟩⟩

/-- A reference is crossed off exactly if its tokens stand in the name in their order. -/
theorem crossOff_eq_nil (tokens reference : List String) :
    (crossOff tokens reference).2 = [] ↔ reference.Sublist tokens := by
  induction tokens generalizing reference with
  | nil => rw [crossOff, List.sublist_nil]
  | cons token tokens ih =>
    cases reference with
    | nil => exact iff_of_true ((ih []).mpr tokens.nil_sublist) (List.nil_sublist _)
    | cons first rest =>
      rw [crossOff]
      split
      · rename_i same
        rw [ih, same, List.cons_sublist_cons]
      · rename_i other
        dsimp only
        rw [ih]
        exact ⟨fun later => later.cons token, List.Sublist.of_cons_of_ne other⟩

/-- Each token of the name is either counted or crosses one off. -/
theorem crossOff_length (tokens reference : List String) :
    (crossOff tokens reference).1 + reference.length =
      tokens.length + (crossOff tokens reference).2.length := by
  induction tokens generalizing reference with
  | nil => rw [crossOff, List.length_nil]
  | cons token tokens ih =>
    cases reference with
    | nil =>
      have onward := ih []
      rw [crossOff]
      simp only [List.length_cons, List.length_nil] at onward ⊢
      omega
    | cons first rest =>
      rw [crossOff]
      split
      · have onward := ih rest
        simp only [List.length_cons]
        omega
      · have onward := ih (first :: rest)
        simp only [List.length_cons] at onward ⊢
        omega

/-- A reference that means a name leaves out all tokens that it does not name, and others leave
out none. -/
theorem skipped?_eq (name reference : Name) :
    name.skipped? reference =
      if reference.Abbreviates name then some (name.tokens.length - reference.tokens.length)
      else none := by
  have found := crossOff_eq_nil name.tokens reference.tokens
  have counted := crossOff_length name.tokens reference.tokens
  rw [skipped?]
  split
  · rename_i differs
    refine (if_neg fun means => ?_).symm
    simp [means.nonempty, means.last] at differs
  · rename_i alike
    simp only [Bool.or_eq_true, List.isEmpty_iff, bne_iff_ne, ne_eq, not_or,
      Decidable.not_not] at alike
    split
    · rename_i skipped crossed
      rw [crossed] at found counted
      have left : skipped = name.tokens.length - reference.tokens.length :=
        Nat.eq_sub_of_add_eq counted
      rw [if_pos ⟨alike.1, alike.2, found.mp rfl⟩, left]
    · rename_i crossed
      rw [crossed] at found
      exact (if_neg fun means => absurd (found.mpr means.inOrder) (List.cons_ne_nil _ _)).symm

/-- A name has a score for just the references that mean it. -/
theorem exists_skipped? {name reference : Name} :
    (∃ score, name.skipped? reference = some score) ↔ reference.Abbreviates name := by
  rw [skipped?_eq]
  split
  · rename_i means
    exact ⟨fun _ => means, fun _ => ⟨_, rfl⟩⟩
  · rename_i differs
    exact ⟨nofun, fun means => absurd means differs⟩

/-- A reference that leaves no token out. -/
theorem skipped?_self {name : Name} (nonempty : name.tokens ≠ []) :
    name.skipped? name = some 0 := by
  rw [skipped?_eq, if_pos ⟨nonempty, rfl, .refl _⟩, Nat.sub_self]

/-- A name of one token is not meant by another one. -/
theorem skipped?_singleton {token key : String} (other : token ≠ key) :
    skipped? ⟨[token]⟩ ⟨[key]⟩ = none := by
  rw [skipped?_eq, if_neg fun means => other ?_]
  simpa using means.last.symm

/-- The outer tokens of a name may repeat its last one. -/
example : skipped? ⟨["a", "b", "a", "b"]⟩ ⟨["b", "b"]⟩ = some 2 := by decide

end Name

end TypedTemplate
