import TypedTemplate.Text.Span

/-!
Places in a text. At a byte position where a text can be cut (`IsBoundary`) it goes on with the
characters that are left (`IsTail`), and a span between two such positions is the place of a slice
(`Span.Cuts`).
-/
namespace TypedTemplate

/-- Whether these are the characters of a text from a position on. -/
def IsTail (text : List Char) (position : Nat) (rest : List Char) : Prop :=
  ∃ front, text = front ++ rest ∧ byteLength front = position

/-- Whether a position is between two characters of a text, or at one of its ends. -/
def IsBoundary (text : List Char) (position : Nat) : Prop := ∃ rest, IsTail text position rest

/-- Whether a span is the place of this slice of a text. -/
def Span.Cuts (span : Span) (text slice : List Char) : Prop :=
  ∃ rest, IsTail text span.start (slice ++ rest) ∧ span.stop = span.start + byteLength slice

theorem byteLength_pos {cs : List Char} (nonempty : cs ≠ []) : 0 < byteLength cs := by
  cases cs with
  | nil => contradiction
  | cons c rest =>
    have := c.utf8Size_pos
    rw [byteLength_cons]
    omega

theorem length_le_byteLength (cs : List Char) : cs.length ≤ byteLength cs := by
  induction cs with
  | nil => exact Nat.le_refl _
  | cons c rest ih =>
    have := c.utf8Size_pos
    rw [List.length_cons, byteLength_cons]
    omega

theorem byteLength_eq_length_iff (cs : List Char) :
    byteLength cs = cs.length ↔ ∀ c ∈ cs, c.utf8Size = 1 := by
  induction cs with
  | nil => simp
  | cons c rest ih =>
    have := c.utf8Size_pos
    have := length_le_byteLength rest
    rw [byteLength_cons, List.length_cons, List.forall_mem_cons, ← ih]
    omega

variable {text : List Char}

theorem isTail_zero (text : List Char) : IsTail text 0 text := ⟨[], rfl, rfl⟩

theorem IsTail.drop {position : Nat} {taken rest : List Char}
    (tail : IsTail text position (taken ++ rest)) :
    IsTail text (position + byteLength taken) rest := by
  obtain ⟨front, rfl, rfl⟩ := tail
  exact ⟨front ++ taken, (List.append_assoc ..).symm, byteLength_append front taken⟩

theorem IsTail.drop_char {position : Nat} {c : Char} {rest : List Char}
    (tail : IsTail text position (c :: rest)) : IsTail text (position + c.utf8Size) rest :=
  @IsTail.drop text position [c] rest tail

/-- As every character has a byte, what is left is told by the position. -/
theorem IsTail.unique {position : Nat} {rest other : List Char}
    (tail : IsTail text position rest) (tail' : IsTail text position other) : rest = other := by
  obtain ⟨front, rfl, rfl⟩ := tail
  obtain ⟨front', same, length⟩ := tail'
  rcases List.append_eq_append_iff.mp same with ⟨more, rfl, rfl⟩ | ⟨more, rfl, rfl⟩
  all_goals
    rw [byteLength_append] at length
    by_cases empty : more = []
    · rw [empty]
      rfl
    · have := byteLength_pos empty
      omega

theorem IsTail.cuts {position : Nat} {slice rest : List Char}
    (tail : IsTail text position (slice ++ rest)) :
    Span.Cuts ⟨position, position + byteLength slice⟩ text slice :=
  ⟨rest, tail, rfl⟩

theorem IsTail.isBoundary {position : Nat} {rest : List Char} (tail : IsTail text position rest) :
    IsBoundary text position :=
  ⟨rest, tail⟩

theorem IsBoundary.le {position : Nat} (boundary : IsBoundary text position) :
    position ≤ byteLength text := by
  obtain ⟨rest, front, rfl, rfl⟩ := boundary
  rw [byteLength_append]
  omega

/-- Between two positions a text has a slice. -/
theorem exists_cuts {span : Span} (starts : IsBoundary text span.start)
    (stops : IsBoundary text span.stop) (order : span.start ≤ span.stop) :
    ∃ slice, span.Cuts text slice := by
  obtain ⟨tail, front, rfl, start⟩ := starts
  obtain ⟨rest, longer, same, stop⟩ := stops
  rcases List.append_eq_append_iff.mp same with ⟨slice, rfl, rfl⟩ | ⟨between, rfl, rfl⟩
  · rw [byteLength_append] at stop
    exact ⟨slice, rest, ⟨front, rfl, start⟩, by omega⟩
  · rw [byteLength_append] at start
    exact ⟨[], _, ⟨_, rfl, by rw [byteLength_append, start]⟩, by simp; omega⟩

namespace Span.Cuts

variable {span : Span} {slice : List Char}

theorem start_le (cuts : span.Cuts text slice) : span.start ≤ span.stop := by
  obtain ⟨rest, -, stop⟩ := cuts
  omega

theorem start_lt (cuts : span.Cuts text slice) (nonempty : slice ≠ []) :
    span.start < span.stop := by
  obtain ⟨rest, -, stop⟩ := cuts
  have := byteLength_pos nonempty
  omega

theorem isBoundary_start (cuts : span.Cuts text slice) : IsBoundary text span.start := by
  obtain ⟨rest, tail, -⟩ := cuts
  exact tail.isBoundary

theorem isBoundary_stop (cuts : span.Cuts text slice) : IsBoundary text span.stop := by
  obtain ⟨rest, tail, stop⟩ := cuts
  rw [stop]
  exact tail.drop.isBoundary

/-- A slice that has all bytes of a text leaves nothing out. -/
theorem eq_of_whole (cuts : Span.Cuts ⟨0, byteLength text⟩ text slice) : slice = text := by
  obtain ⟨rest, tail, stop⟩ := cuts
  have split := tail.unique (isTail_zero text)
  have bytes := congrArg byteLength split
  rw [byteLength_append] at bytes
  dsimp only at stop
  cases rest with
  | nil => rwa [List.append_nil] at split
  | cons c others =>
    have := byteLength_pos (List.cons_ne_nil c others)
    omega

/-- Slices that meet are one slice. -/
theorem append {start middle stop : Nat} {slice next : List Char}
    (cuts : Span.Cuts ⟨start, middle⟩ text slice) (cuts' : Span.Cuts ⟨middle, stop⟩ text next) :
    Span.Cuts ⟨start, stop⟩ text (slice ++ next) := by
  obtain ⟨rest, tail, place⟩ := cuts
  obtain ⟨others, tail', place'⟩ := cuts'
  obtain rfl : middle = start + byteLength slice := place
  obtain rfl := tail.drop.unique tail'
  refine ⟨others, by rwa [List.append_assoc], ?_⟩
  rw [byteLength_append, ← Nat.add_assoc]
  exact place'

end Span.Cuts

end TypedTemplate
