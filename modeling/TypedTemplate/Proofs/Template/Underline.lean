import Mathlib.Data.List.DropRight
import TypedTemplate.Proofs.Template.Faults

/-!
What the row of carets under a rejected text points at. The row is made from the bytes of the span,
and it comes below the whole text (`Diagnostic.carets_eq`). A reader takes it for columns of the
line above it, and this is what it means where the text is a single line and no character up to the
end of the span has more than one byte (`Template.carets_of_parse`).
-/
namespace TypedTemplate

/-! ## Rows of carets -/

/-- What stands before a position in its line. -/
def lineBefore (front : List Char) : List Char := front.rtakeWhile (· != '\n')

/-- The part of a slice that is in the line where it begins. -/
def lineOf (slice : List Char) : List Char := slice.takeWhile (· != '\n')

/-- So many blanks and then so many carets. -/
def caretRow (blanks carets : Nat) : List Char :=
  List.replicate blanks ' ' ++ List.replicate carets '^'

/-- Whether a row below the last line of a text underlines a slice of it: this is the line in which
the slice begins, and there is a blank for each character before it and a caret for each of its own
characters, but at least one. -/
structure Underlines (row front slice rest : List Char) : Prop where
  below : '\n' ∉ slice ++ rest
  columns : row = caretRow (lineBefore front).length (max 1 (lineOf slice).length)

theorem caretRow_inj {blanks carets blanks' carets' : Nat} :
    caretRow blanks carets = caretRow blanks' carets' ↔ blanks = blanks' ∧ carets = carets' := by
  constructor
  · intro same
    constructor
    · simpa [caretRow, List.count_replicate] using congrArg (List.count ' ') same
    · simpa [caretRow, List.count_replicate] using congrArg (List.count '^') same
  · rintro ⟨rfl, rfl⟩
    rfl

theorem lineOf_eq_self {slice : List Char} (single : '\n' ∉ slice) : lineOf slice = slice := by
  refine List.takeWhile_eq_self_iff.mpr fun c member => ?_
  simpa using ne_of_mem_of_not_mem member single

/-- There are as many bytes as characters in the line if there is no other line and no character
with more than one byte. -/
theorem byteLength_eq_lineBefore_iff (front : List Char) :
    byteLength front = (lineBefore front).length ↔
      '\n' ∉ front ∧ ∀ c ∈ front, c.utf8Size = 1 := by
  have suffix : lineBefore front <:+ front := List.rtakeWhile_suffix _ front
  have shorter := suffix.length_le
  have bytes := length_le_byteLength front
  have whole : (lineBefore front).length = front.length ↔ '\n' ∉ front := by
    have self : (lineBefore front).length = front.length ↔ lineBefore front = front :=
      ⟨suffix.eq_of_length, congrArg List.length⟩
    rw [self, lineBefore, List.rtakeWhile_eq_self_iff]
    grind
  rw [← whole, ← byteLength_eq_length_iff]
  omega

theorem byteLength_eq_lineOf_iff {slice : List Char} (single : '\n' ∉ slice) :
    max 1 (byteLength slice) = max 1 (lineOf slice).length ↔ ∀ c ∈ slice, c.utf8Size = 1 := by
  have bytes := length_le_byteLength slice
  rw [lineOf_eq_self single, ← byteLength_eq_length_iff]
  cases slice with
  | nil => simp
  | cons c others =>
    have some : 0 < (c :: others).length := Nat.succ_pos _
    omega

theorem underlines_iff (front slice rest : List Char) :
    Underlines (caretRow (byteLength front) (max 1 (byteLength slice))) front slice rest ↔
      '\n' ∉ front ++ (slice ++ rest) ∧ ∀ c ∈ front ++ slice, c.utf8Size = 1 := by
  have single (below : '\n' ∉ slice ++ rest) : '\n' ∉ slice :=
    fun member => below (List.mem_append_left rest member)
  rw [List.forall_mem_append, List.mem_append, not_or]
  constructor
  · rintro ⟨below, columns⟩
    obtain ⟨blanks, carets⟩ := caretRow_inj.mp columns
    obtain ⟨line, narrow⟩ := (byteLength_eq_lineBefore_iff front).mp blanks
    exact ⟨⟨line, below⟩, narrow, (byteLength_eq_lineOf_iff (single below)).mp carets⟩
  · rintro ⟨⟨line, below⟩, narrow, thin⟩
    have blanks := (byteLength_eq_lineBefore_iff front).mpr ⟨line, narrow⟩
    have carets := (byteLength_eq_lineOf_iff (single below)).mpr thin
    exact ⟨below, caretRow_inj.mpr ⟨blanks, carets⟩⟩

/-- The row is as wide as the span in bytes, and at least one caret. -/
theorem Diagnostic.carets_eq (d : Diagnostic) (source : String)
    (starts : d.span.start ≤ source.utf8ByteSize) (stops : d.span.stop ≤ source.utf8ByteSize) :
    d.carets source = s!"{d.message}\n{source}\n" ++
      String.ofList (caretRow d.span.start (max 1 (d.span.stop - d.span.start))) := by
  have left : min d.span.start source.utf8ByteSize = d.span.start := by omega
  have wide : max (d.span.start + 1) (min d.span.stop (max source.utf8ByteSize (d.span.start + 1)))
      - d.span.start = max 1 (d.span.stop - d.span.start) := by omega
  simp only [carets, left, wide]
  rfl

/-! ## Rejected texts -/

/-- The slice at the place of an error, an empty one where the place stops before it starts. -/
theorem SyntaxError.IsPlaced.exists_slice {text : List Char} {start : Nat} {e : SyntaxError}
    (placed : e.IsPlaced text start) :
    ∃ front slice rest, text = front ++ (slice ++ rest) ∧ byteLength front = e.span.start ∧
      byteLength slice = e.span.stop - e.span.start := by
  by_cases order : e.span.start ≤ e.span.stop
  · obtain ⟨slice, rest, ⟨front, split, start⟩, stop⟩ :=
      exists_cuts placed.starts placed.stops order
    exact ⟨front, slice, rest, split, start, by omega⟩
  · obtain ⟨rest, front, split, start⟩ := placed.starts
    exact ⟨front, [], rest, split, start, by rw [byteLength_nil]; omega⟩

namespace Template

/-- Each error of a text that is rejected is at a slice of it. The row of carets is made from the
bytes of what stands before the slice and of the slice itself, so it underlines the slice just in
texts of a single line without characters of more than one byte up to the end of the slice. -/
theorem carets_of_parse {text : String} {e : SyntaxError} (failed : parse text = .error e) :
    ∃ front slice rest, text.toList = front ++ (slice ++ rest) ∧
      byteLength front = e.span.start ∧ byteLength slice = e.span.stop - e.span.start ∧
      let row := caretRow (byteLength front) (max 1 (byteLength slice))
      e.diagnostic.carets text = s!"{e.cause.message}\n{text}\n" ++ String.ofList row ∧
      (Underlines row front slice rest ↔
        '\n' ∉ text.toList ∧ ∀ c ∈ front ++ slice, c.utf8Size = 1) := by
  obtain ⟨before, back, found, split, -, breaks⟩ :=
    Reader.breaks_of_elements (eq_error_of_map failed)
  rw [Nat.zero_add] at breaks
  have placed := breaks.isPlaced ⟨before, split, rfl⟩
  have printed := e.diagnostic.carets_eq text
    (byteLength_toList text ▸ placed.starts.le) (byteLength_toList text ▸ placed.stops.le)
  obtain ⟨front, slice, rest, split, start, length⟩ := placed.exists_slice
  refine ⟨front, slice, rest, split, start, length, ?_, ?_⟩
  · rw [start, length]
    exact printed
  · rw [split]
    exact underlines_iff front slice rest

/-- The row below a text of two lines. -/
theorem carets_of_parse_row :
    let text := "a\n\x7d"
    let e : SyntaxError := ⟨.unmatchedClose, ⟨2, 3⟩⟩
    parse text = .error e ∧ ∃ front slice rest, text.toList = front ++ (slice ++ rest) ∧
      byteLength front = e.span.start ∧ byteLength slice = e.span.stop - e.span.start ∧
      let row := caretRow (byteLength front) (max 1 (byteLength slice))
      e.diagnostic.carets text = s!"{e.cause.message}\n{text}\n" ++ String.ofList row ∧
      (Underlines row front slice rest ↔
        '\n' ∉ text.toList ∧ ∀ c ∈ front ++ slice, c.utf8Size = 1) := by
  intro text e
  have chars : text.toList = ['a', '\n', '}'] := by decide +kernel
  have failed : parse text = .error e := by
    rw [parse, chars]
    with_unfolding_all rfl
  exact ⟨failed, carets_of_parse failed⟩

/-- Behind a character of two bytes the caret is one column too far to the right. -/
theorem exists_not_underlines :
    ∃ e front slice rest row, parse "é\x7d" = .error e ∧
      "é\x7d".toList = front ++ (slice ++ rest) ∧ byteLength front = e.span.start ∧
      byteLength slice = e.span.stop - e.span.start ∧
      e.diagnostic.carets "é\x7d" = s!"{e.cause.message}\né\x7d\n" ++ String.ofList row ∧
      ¬ Underlines row front slice rest := by
  have chars : "é\x7d".toList = ['é', '}'] := by decide +kernel
  have failed : parse "é\x7d" = .error ⟨.unmatchedClose, ⟨2, 3⟩⟩ := by
    rw [parse, chars]
    with_unfolding_all rfl
  refine ⟨_, ['é'], ['}'], [], caretRow 2 1, failed, chars, rfl, rfl, ?_, ?_⟩
  · exact Diagnostic.carets_eq _ _ (by decide +kernel) (by decide +kernel)
  · rintro ⟨-, columns⟩
    exact absurd (caretRow_inj.mp columns).1 (by decide)

end Template

end TypedTemplate
