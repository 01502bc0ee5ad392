import TypedTemplate.Proofs.Text.Slice
import TypedTemplate.Text.Cursor

/-!
Cursors in use. A cursor that is moved by its own operations, taken back to its checkpoints and
advanced to places where the text can be cut always stands at such a place. So no operation ever
fails, each reads just the slice that it passes over, and going back is exact
(`Cursor.Session.Run.isSafe`). What every call keeps is `Cursor.Session.IsSound`; that a reader
which is tried may call and try whatever it likes, to any depth, is part of what a run is.
-/
namespace TypedTemplate

/-! ## Cutting a text -/

theorem splitBytes?_append (front rest : List Char) :
    splitBytes? (byteLength front) (front ++ rest) = some (front, rest) := by
  induction front with
  | nil => cases rest <;> simp [splitBytes?]
  | cons c front ih =>
    obtain ⟨n, size⟩ : ∃ n, byteLength (c :: front) = n + 1 :=
      Nat.exists_eq_succ_of_ne_zero (Nat.ne_of_gt (byteLength_pos (List.cons_ne_nil c front)))
    rw [byteLength_cons] at size
    have left : n + 1 - c.utf8Size = byteLength front := by omega
    rw [byteLength_cons, size, List.cons_append, splitBytes?, if_neg (by omega), left, ih]
    rfl

theorem splitBytes?_eq_some_iff {n : Nat} {cs front rest : List Char} :
    splitBytes? n cs = some (front, rest) ↔ cs = front ++ rest ∧ byteLength front = n := by
  constructor
  · intro cut
    fun_induction splitBytes? n cs generalizing front with
    | case1 cs =>
      cases cut
      exact ⟨rfl, rfl⟩
    | case2 => cases cut
    | case3 => cases cut
    | case4 n c cs fits ih =>
      obtain ⟨⟨taken, behind⟩, cut, same⟩ := Option.map_eq_some_iff.mp cut
      cases same
      obtain ⟨rfl, size⟩ := ih cut
      exact ⟨rfl, by rw [byteLength_cons]; omega⟩
  · rintro ⟨rfl, rfl⟩
    exact splitBytes?_append front rest

theorem bytesBefore?_eq_none_iff {needles cs : List Char} :
    bytesBefore? needles cs = none ↔ ∀ c ∈ cs, c ∉ needles := by
  induction cs with
  | nil => simp [bytesBefore?]
  | cons c cs ih =>
    rw [bytesBefore?, List.forall_mem_cons, ← ih]
    by_cases needle : c ∈ needles <;> simp [needle]

/-- The bytes are those of what stands before a needle, without a needle in it. -/
theorem exists_of_bytesBefore? {needles cs : List Char} {n : Nat}
    (found : bytesBefore? needles cs = some n) :
    ∃ front needle rest, cs = front ++ needle :: rest ∧ byteLength front = n ∧
      needle ∈ needles ∧ ∀ c ∈ front, c ∉ needles := by
  induction cs generalizing n with
  | nil => cases found
  | cons c cs ih =>
    rw [bytesBefore?] at found
    by_cases needle : c ∈ needles
    · rw [if_pos (List.contains_iff_mem.mpr needle)] at found
      cases found
      exact ⟨[], c, cs, rfl, rfl, needle, fun _ member => nomatch member⟩
    · rw [if_neg (mt List.contains_iff_mem.mp needle)] at found
      obtain ⟨m, later, rfl⟩ := Option.map_eq_some_iff.mp found
      obtain ⟨front, other, rest, rfl, rfl, among, free⟩ := ih later
      exact ⟨c :: front, other, rest, rfl, rfl, among, List.forall_mem_cons.mpr ⟨needle, free⟩⟩

namespace Cursor

variable {c : Cursor}

/-! ## What the operations do -/

/-- A cursor has been moved over a piece of its text. -/
structure Passes (c : Cursor) (piece : List Char) (after : Cursor) : Prop where
  source : after.source = c.source
  cuts : Span.Cuts ⟨c.position, after.position⟩ c.source piece

theorem rest?_eq_some_iff {rest : List Char} :
    c.rest? = some rest ↔ IsTail c.source c.position rest := by
  rw [rest?, Option.map_eq_some_iff]
  constructor
  · rintro ⟨⟨front, behind⟩, cut, rfl⟩
    obtain ⟨split, size⟩ := splitBytes?_eq_some_iff.mp cut
    exact ⟨front, split, size⟩
  · rintro ⟨front, split, size⟩
    exact ⟨(front, rest), splitBytes?_eq_some_iff.mpr ⟨split, size⟩, rfl⟩

/-- The unread part can be had just where the text can be cut. -/
theorem exists_rest?_iff : (∃ rest, c.rest? = some rest) ↔ IsBoundary c.source c.position :=
  exists_congr fun _ => rest?_eq_some_iff

example : rest? ⟨['é'], 1⟩ = none := rfl

theorem peek_eq_some_iff {n : Nat} {piece : List Char} :
    c.peek n = some piece ↔ Span.Cuts ⟨c.position, c.position + n⟩ c.source piece := by
  simp only [peek, Option.bind_eq_bind, Option.bind_eq_some_iff, Option.map_eq_some_iff,
    rest?_eq_some_iff]
  constructor
  · rintro ⟨_, tail, ⟨front, rest⟩, cut, rfl⟩
    obtain ⟨rfl, rfl⟩ := splitBytes?_eq_some_iff.mp cut
    exact tail.cuts
  · rintro ⟨rest, tail, size⟩
    have size : byteLength piece = n := by
      dsimp only at size
      omega
    exact ⟨_, tail, (piece, rest), splitBytes?_eq_some_iff.mpr ⟨rfl, size⟩, rfl⟩

theorem passes_pass {piece rest : List Char}
    (tail : IsTail c.source c.position (piece ++ rest)) :
    c.Passes piece (c.pass (byteLength piece)) :=
  ⟨rfl, tail.cuts⟩

theorem Passes.isBoundary {piece : List Char} {after : Cursor} (passes : c.Passes piece after) :
    IsBoundary after.source after.position := by
  rw [passes.source]
  exact passes.cuts.isBoundary_stop

/-- Eating moves over the text if the source goes on with it, and does nothing if not. -/
theorem eat?_spec (stands : IsBoundary c.source c.position) (piece : List Char) :
    (∃ after, c.eat? piece = some (true, after) ∧ c.Passes piece after) ∨
      c.eat? piece = some (false, c) ∧
        ∀ stop, ¬ Span.Cuts ⟨c.position, stop⟩ c.source piece := by
  obtain ⟨rest, tail⟩ := stands
  have unread := rest?_eq_some_iff.mpr tail
  by_cases ahead : piece <+: rest
  · obtain ⟨behind, rfl⟩ := ahead
    refine .inl ⟨c.pass (byteLength piece), ?_, passes_pass tail⟩
    simp [eat?, unread]
  · refine .inr ⟨by simp [eat?, unread, ahead], ?_⟩
    rintro stop ⟨behind, tail', -⟩
    exact ahead ⟨behind, tail'.unique tail⟩

/-- Reading stops at the first of the needles, and reads nothing if there is none. -/
theorem readUntil?_spec (stands : IsBoundary c.source c.position) (needles : List Char) :
    (∃ piece after needle rest, c.readUntil? needles = some (some piece, after) ∧
      c.Passes piece after ∧ (∀ x ∈ piece, x ∉ needles) ∧ needle ∈ needles ∧
      IsTail c.source after.position (needle :: rest)) ∨
    c.readUntil? needles = some (none, c) ∧
      ∀ rest, IsTail c.source c.position rest → ∀ x ∈ rest, x ∉ needles := by
  obtain ⟨rest, tail⟩ := stands
  have unread := rest?_eq_some_iff.mpr tail
  cases found : bytesBefore? needles rest with
  | none =>
    refine .inr ⟨by simp [readUntil?, unread, found], fun other tail' => ?_⟩
    rw [tail'.unique tail]
    exact bytesBefore?_eq_none_iff.mp found
  | some bytes =>
    obtain ⟨piece, needle, behind, rfl, rfl, among, free⟩ := exists_of_bytesBefore? found
    have read : c.readUntil? needles = some (some piece, c.pass (byteLength piece)) := by
      simp [readUntil?, unread, found, splitBytes?_append]
    exact .inl ⟨piece, _, needle, behind, read, passes_pass tail, free, among, tail.drop⟩

theorem readRest?_spec (stands : IsBoundary c.source c.position) :
    ∃ piece after, c.readRest? = some (piece, after) ∧ c.Passes piece after ∧
      after.position = byteLength c.source := by
  obtain ⟨rest, tail⟩ := stands
  refine ⟨rest, { c with position := byteLength c.source }, ?_, ⟨rfl, [], ?_, ?_⟩, rfl⟩
  · simp [readRest?, rest?_eq_some_iff.mpr tail]
  · rwa [List.append_nil]
  · obtain ⟨front, split, size⟩ := tail
    dsimp only
    rw [← size, ← byteLength_append, ← split]

/-- A cursor moves forward to any place where the text can be cut. -/
theorem advanceTo?_spec (stands : IsBoundary c.source c.position) {position : Nat}
    (forward : c.position ≤ position) (boundary : IsBoundary c.source position) :
    ∃ piece after, c.advanceTo? position = some after ∧ c.Passes piece after ∧
      after.position = position := by
  have between : ∃ piece, Span.Cuts ⟨c.position, position⟩ c.source piece :=
    exists_cuts stands boundary forward
  obtain ⟨piece, cuts⟩ := between
  exact ⟨piece, { c with position }, if_pos ⟨forward, boundary.le⟩, ⟨rfl, cuts⟩, rfl⟩

/-- A checkpoint takes every cursor of the same text back to where it was taken. -/
theorem rewind_checkpoint {after : Cursor} (source : after.source = c.source) :
    after.rewind c.checkpoint = c := by
  rw [rewind, source]
  rfl

theorem attempt_eq {α : Type} {reader : Cursor → Option (Option α × Cursor)} {result : Option α}
    {after : Cursor} (reads : reader c = some (result, after)) (source : after.source = c.source) :
    c.attempt reader = some (result, if result.isNone then c else after) := by
  simp [attempt, reads, rewind_checkpoint source]

/-! ## Runs -/

/-- A cursor in use, and the checkpoints that have been taken from it. -/
structure Session where
  cursor : Cursor
  saved : List Checkpoint

namespace Session

/-- A cursor that has not been used yet. -/
def ofText (text : List Char) : Session := ⟨.ofText text, []⟩

/-- Puts the cursor where a call has left it. -/
def moved (s : Session) (after : Cursor) : Session := { s with cursor := after }

/-- What calls on a cursor, one after another, make of a session: nothing if one of them fails.
A cursor is rewound only to checkpoints that have been taken from it, and advanced only to places
not behind it where the text can be cut. Peeking is no call of its own, as it moves nothing and
cannot fail. A reader that is tried is any function which, on the cursor that it gets, comes to what
some run from there comes to: it may decide on the next call by the answers so far, try other
readers, and keep its checkpoints even if it finds nothing. -/
inductive Run : Session → Option Session → Prop
  | started (s : Session) : Run s (some s)
  | looked {s t : Session} (run : Run s (some t)) : Run s (t.cursor.rest?.map fun _ => t)
  | eaten {s t : Session} (run : Run s (some t)) (piece : List Char) :
      Run s ((t.cursor.eat? piece).map fun (_, after) => t.moved after)
  | readUntil {s t : Session} (run : Run s (some t)) (needles : List Char) :
      Run s ((t.cursor.readUntil? needles).map fun (_, after) => t.moved after)
  | readRest {s t : Session} (run : Run s (some t)) :
      Run s (t.cursor.readRest?.map fun (_, after) => t.moved after)
  | saved {s t : Session} (run : Run s (some t)) :
      Run s (some { t with saved := t.cursor.checkpoint :: t.saved })
  | rewound {s t : Session} (run : Run s (some t)) {checkpoint : Checkpoint}
      (known : checkpoint ∈ t.saved) : Run s (some (t.moved (t.cursor.rewind checkpoint)))
  | advanced {s t : Session} (run : Run s (some t)) {position : Nat}
      (forward : t.cursor.position ≤ position)
      (boundary : IsBoundary t.cursor.source position) :
      Run s ((t.cursor.advanceTo? position).map t.moved)
  | attempted {s t : Session} {inner : Option Session} {α : Type} {result : Option α}
      {reader : Cursor → Option (Option α × Cursor)} (run : Run s (some t)) (inside : Run t inner)
      (reads : reader t.cursor = inner.map fun u => (result, u.cursor)) :
      Run s (inner.bind fun u => (t.cursor.attempt reader).map fun (_, after) => u.moved after)

variable {text : List Char} {s : Session}

/-- What a reader calls when it is tried goes on from what was called before, so that a session in
the middle of an attempt, at any depth, is one of a run as well. -/
theorem Run.trans {t : Session} {outcome : Option Session} (run : Run s (some t))
    (inside : Run t outcome) : Run s outcome := by
  induction inside with
  | started _ => exact run
  | looked _ ih => exact (ih run).looked
  | eaten _ piece ih => exact (ih run).eaten piece
  | readUntil _ needles ih => exact (ih run).readUntil needles
  | readRest _ ih => exact (ih run).readRest
  | saved _ ih => exact (ih run).saved
  | rewound _ known ih => exact (ih run).rewound known
  | advanced _ forward boundary ih => exact (ih run).advanced forward boundary
  | attempted _ inside reads ih => exact (ih run).attempted inside reads

/-- What every call keeps. -/
structure IsSound (text : List Char) (s : Session) : Prop where
  source : s.cursor.source = text
  stands : IsBoundary s.cursor.source s.cursor.position
  saved : ∀ checkpoint ∈ s.saved, IsBoundary text checkpoint.position

/-- No call has failed, and what has come of them is sound. -/
def Succeeds (text : List Char) (outcome : Option Session) : Prop :=
  ∃ s, outcome = some s ∧ s.IsSound text

theorem succeeds_some : Succeeds text (some s) ↔ s.IsSound text := by
  simp [Succeeds]

theorem isSound_ofText (text : List Char) : (ofText text).IsSound text :=
  ⟨rfl, (isTail_zero text).isBoundary, fun _ member => nomatch member⟩

/-! One lemma for each call. -/

namespace IsSound

theorem pass (sound : s.IsSound text) {piece : List Char} {after : Cursor}
    (passes : s.cursor.Passes piece after) : (s.moved after).IsSound text :=
  ⟨passes.source.trans sound.source, passes.isBoundary, sound.saved⟩

theorem look (sound : s.IsSound text) : Succeeds text (s.cursor.rest?.map fun _ => s) := by
  obtain ⟨rest, unread⟩ := exists_rest?_iff.mpr sound.stands
  rw [unread]
  exact succeeds_some.mpr sound

theorem eat (sound : s.IsSound text) (piece : List Char) :
    Succeeds text ((s.cursor.eat? piece).map fun (_, after) => s.moved after) := by
  rcases eat?_spec sound.stands piece with ⟨after, eats, passes⟩ | ⟨eats, -⟩
  · rw [eats]
    exact succeeds_some.mpr (sound.pass passes)
  · rw [eats]
    exact succeeds_some.mpr sound

theorem readUntil (sound : s.IsSound text) (needles : List Char) :
    Succeeds text ((s.cursor.readUntil? needles).map fun (_, after) => s.moved after) := by
  rcases readUntil?_spec sound.stands needles with
    ⟨piece, after, -, -, reads, passes, -⟩ | ⟨reads, -⟩
  · rw [reads]
    exact succeeds_some.mpr (sound.pass passes)
  · rw [reads]
    exact succeeds_some.mpr sound

theorem readRest (sound : s.IsSound text) :
    Succeeds text (s.cursor.readRest?.map fun (_, after) => s.moved after) := by
  obtain ⟨piece, after, reads, passes, -⟩ := readRest?_spec sound.stands
  rw [reads]
  exact succeeds_some.mpr (sound.pass passes)

theorem save (sound : s.IsSound text) :
    IsSound text { s with saved := s.cursor.checkpoint :: s.saved } :=
  ⟨sound.source, sound.stands,
    List.forall_mem_cons.mpr ⟨sound.source ▸ sound.stands, sound.saved⟩⟩

theorem rewind (sound : s.IsSound text) {checkpoint : Checkpoint} (known : checkpoint ∈ s.saved) :
    (s.moved (s.cursor.rewind checkpoint)).IsSound text :=
  ⟨sound.source, sound.source.symm ▸ sound.saved checkpoint known, sound.saved⟩

theorem advanceTo (sound : s.IsSound text) {position : Nat} (forward : s.cursor.position ≤ position)
    (boundary : IsBoundary s.cursor.source position) :
    Succeeds text ((s.cursor.advanceTo? position).map s.moved) := by
  obtain ⟨piece, after, moves, passes, -⟩ := advanceTo?_spec sound.stands forward boundary
  rw [moves]
  exact succeeds_some.mpr (sound.pass passes)

/-- The calls of the reader come to `inner`. If the reader finds nothing, the cursor goes back, and
the checkpoints that have been taken meanwhile stay. -/
theorem attempt (sound : s.IsSound text) {inner : Option Session} (calls : Succeeds text inner)
    {α : Type} {result : Option α} {reader : Cursor → Option (Option α × Cursor)}
    (reads : reader s.cursor = inner.map fun u => (result, u.cursor)) :
    Succeeds text
      (inner.bind fun u => (s.cursor.attempt reader).map fun (_, after) => u.moved after) := by
  obtain ⟨u, rfl, sound'⟩ := calls
  have tried := attempt_eq reads (sound'.source.trans sound.source.symm)
  rw [Option.bind_some, tried]
  refine succeeds_some.mpr ?_
  cases result with
  | none => exact ⟨sound.source, sound.stands, sound'.saved⟩
  | some value => exact sound'

end IsSound

/-- The invariant of a run. -/
theorem Run.succeeds {outcome : Option Session} (run : Run s outcome) (sound : s.IsSound text) :
    Succeeds text outcome := by
  induction run with
  | started s => exact succeeds_some.mpr sound
  | looked _ ih => exact (succeeds_some.mp (ih sound)).look
  | eaten _ piece ih => exact (succeeds_some.mp (ih sound)).eat piece
  | readUntil _ needles ih => exact (succeeds_some.mp (ih sound)).readUntil needles
  | readRest _ ih => exact (succeeds_some.mp (ih sound)).readRest
  | saved _ ih => exact succeeds_some.mpr (succeeds_some.mp (ih sound)).save
  | rewound _ known ih => exact succeeds_some.mpr ((succeeds_some.mp (ih sound)).rewind known)
  | advanced _ forward boundary ih =>
    exact (succeeds_some.mp (ih sound)).advanceTo forward boundary
  | attempted _ _ reads ih calls =>
    -- what the reader calls starts from a sound session, and so is a run of its own
    have sound := succeeds_some.mp (ih sound)
    exact sound.attempt (calls sound) reads

/-- What can be said at any time of a session over a text. -/
structure IsSafe (text : List Char) (s : Session) : Prop where
  source : s.cursor.source = text
  stands : IsBoundary text s.cursor.position
  within : s.cursor.position ≤ byteLength text
  saved : ∀ checkpoint ∈ s.saved, IsBoundary text checkpoint.position
  rest : ∃ rest, s.cursor.rest? = some rest ∧ IsTail text s.cursor.position rest
  peek : ∀ n piece, s.cursor.peek n = some piece ↔
    Span.Cuts ⟨s.cursor.position, s.cursor.position + n⟩ text piece
  /-- What is eaten is what the text goes on with; if it goes on otherwise, nothing is. -/
  eat : ∀ piece,
    (∃ after, s.cursor.eat? piece = some (true, after) ∧ s.cursor.Passes piece after) ∨
      s.cursor.eat? piece = some (false, s.cursor) ∧
        ∀ stop, ¬ Span.Cuts ⟨s.cursor.position, stop⟩ text piece
  /-- What is read ends before the first of the needles; if there is none, nothing is read. -/
  readUntil : ∀ needles,
    (∃ piece after needle rest, s.cursor.readUntil? needles = some (some piece, after) ∧
      s.cursor.Passes piece after ∧ (∀ x ∈ piece, x ∉ needles) ∧ needle ∈ needles ∧
      IsTail text after.position (needle :: rest)) ∨
    s.cursor.readUntil? needles = some (none, s.cursor) ∧
      ∀ rest, IsTail text s.cursor.position rest → ∀ x ∈ rest, x ∉ needles
  readRest : ∃ piece after, s.cursor.readRest? = some (piece, after) ∧
    s.cursor.Passes piece after ∧ after.position = byteLength text
  advanceTo : ∀ position, s.cursor.position ≤ position → IsBoundary text position →
    ∃ piece after, s.cursor.advanceTo? position = some after ∧ s.cursor.Passes piece after ∧
      after.position = position
  /-- A checkpoint that is taken now will take the cursor back to what it is now. -/
  rewind : ∀ later, Run s (some later) → later.cursor.rewind s.cursor.checkpoint = s.cursor
  /-- A reader does not fail, and if it finds nothing, the cursor is as if it had not been tried. -/
  attempt : ∀ {α : Type} (reader : Cursor → Option (Option α × Cursor)) (result : Option α)
    (inner : Option Session), Run s inner →
    reader s.cursor = inner.map (fun later => (result, later.cursor)) →
    ∃ later, inner = some later ∧
      s.cursor.attempt reader = some (result, if result.isNone then s.cursor else later.cursor)

theorem isSafe_of_isSound (sound : s.IsSound text) : s.IsSafe text := by
  obtain rfl := sound.source
  have stands := sound.stands
  have kept {later : Session} (run : Run s (some later)) :
      later.cursor.source = s.cursor.source :=
    (succeeds_some.mp (run.succeeds sound)).source
  exact {
    source := rfl
    stands
    within := stands.le
    saved := sound.saved
    rest := stands.imp fun rest tail => ⟨rest?_eq_some_iff.mpr tail, tail⟩
    peek := fun n piece => peek_eq_some_iff
    eat := eat?_spec stands
    readUntil := readUntil?_spec stands
    readRest := readRest?_spec stands
    advanceTo := fun position forward boundary => advanceTo?_spec stands forward boundary
    rewind := fun later run => rewind_checkpoint (kept run)
    attempt := fun reader result inner run reads => by
      obtain ⟨later, rfl, -⟩ := run.succeeds sound
      exact ⟨later, rfl, attempt_eq reads (kept run)⟩ }

/-- Whatever has been called on a cursor, no call has failed and the cursor still does what it
should. So it does at any time inside a reader that it is told to try. -/
theorem Run.isSafe {outcome : Option Session} (run : Run (ofText text) outcome) :
    ∃ s, outcome = some s ∧ s.IsSafe text ∧
      ∀ inner, Run s inner → ∃ t, inner = some t ∧ t.IsSafe text := by
  have safe {outcome : Option Session} (run : Run (ofText text) outcome) :
      ∃ s, outcome = some s ∧ s.IsSafe text := by
    obtain ⟨s, rfl, sound⟩ := run.succeeds (isSound_ofText text)
    exact ⟨s, rfl, isSafe_of_isSound sound⟩
  obtain ⟨s, rfl, still⟩ := safe run
  exact ⟨s, rfl, still, fun inner inside => safe (run.trans inside)⟩

/-- A reader that finds nothing has tried another one, and then gone forward to a checkpoint which
that had left behind. -/
theorem Run.isSafe_nested :
    let text := ['é', '{', 'b']
    let s : Session := ⟨⟨text, 3⟩, [⟨4⟩, ⟨2⟩]⟩
    Run (ofText text) (some s) ∧ ∃ t, some s = some t ∧ t.IsSafe text ∧
      ∀ inner, Run t inner → ∃ u, inner = some u ∧ u.IsSafe text := by
  intro text s
  let inmost (c : Cursor) : Option (Option Unit × Cursor) :=
    c.readRest?.map fun (_, after) => (none, after)
  let outer (c : Cursor) : Option (Option Unit × Cursor) := do
    let (_, after) ← c.eat? ['{']
    let (_, after) ← after.attempt inmost
    return (none, after.rewind ⟨4⟩)
  let before : Session := ⟨⟨text, 2⟩, [⟨2⟩]⟩
  have begun : Run (ofText text) (some ⟨⟨text, 2⟩, []⟩) := .eaten (.started _) ['é']
  have opened : Run before (some ⟨⟨text, 3⟩, [⟨2⟩]⟩) := .eaten (.started _) ['{']
  have ended : Run ⟨⟨text, 3⟩, [⟨2⟩]⟩ (some ⟨⟨text, 4⟩, [⟨2⟩]⟩) := .readRest (.started _)
  have inside : Run before (some ⟨⟨text, 3⟩, [⟨4⟩, ⟨2⟩]⟩) :=
    @Run.attempted _ _ _ _ none inmost opened ended.saved rfl
  have known : (⟨4⟩ : Checkpoint) ∈ [(⟨4⟩ : Checkpoint), ⟨2⟩] := List.mem_cons_self
  have tried : Run (ofText text) (some ⟨⟨text, 2⟩, [⟨4⟩, ⟨2⟩]⟩) :=
    @Run.attempted _ _ _ _ none outer begun.saved (inside.rewound known) rfl
  have run : Run (ofText text) (some s) := tried.readUntil ['b']
  exact ⟨run, run.isSafe⟩

end Session

end Cursor

end TypedTemplate
