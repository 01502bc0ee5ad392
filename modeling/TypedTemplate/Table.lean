/-!
Tables. A table keeps values by key in the order in which the keys came; changing the
value of a key leaves its place alone.
-/
namespace TypedTemplate

/-- Values by key, in the order in which the keys came. -/
abbrev Table (κ ν : Type) := List (κ × ν)

namespace Table

variable {κ ν : Type} [DecidableEq κ]

def find? (table : Table κ ν) (key : κ) : Option ν :=
  match table with
  | [] => none
  | (k, v) :: rest => if k = key then some v else find? rest key

/-- Changes the value under a key, or adds one where there is none. -/
def update (table : Table κ ν) (key : κ) (f : Option ν → ν) : Table κ ν :=
  match table with
  | [] => [(key, f none)]
  | (k, v) :: rest => if k = key then (k, f (some v)) :: rest else (k, v) :: update rest key f

@[simp] theorem find?_update_self (table : Table κ ν) (key : κ) (f : Option ν → ν) :
    find? (update table key f) key = some (f (find? table key)) := by
  induction table with
  | nil => simp [update, find?]
  | cons entry rest ih =>
    obtain ⟨k, v⟩ := entry
    by_cases hk : k = key
    · simp [update, find?, hk]
    · simp [update, find?, hk, ih]

theorem find?_update_of_ne (table : Table κ ν) {key other : κ} (f : Option ν → ν)
    (h : other ≠ key) : find? (update table key f) other = find? table other := by
  induction table with
  | nil => simp [update, find?, Ne.symm h]
  | cons entry rest ih =>
    obtain ⟨k, v⟩ := entry
    by_cases hk : k = key
    · subst hk
      simp [update, find?, Ne.symm h]
    · simp only [update, if_neg hk, find?, ih]

end Table

end TypedTemplate
