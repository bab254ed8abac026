import Mathlib.Data.List.Basic

/-!
# `PublicPool.Lib.BlockReader`: reading blocks out of a stream that arrives in pieces

A `BlockReader` knows in each of its phases how many symbols the next block has, and what
reading that block gives: the phase that follows and the items that are complete with it, or
a failure. `drain` reads blocks off a buffer for as long as they are there, `feed` does so
with what was left over and one more piece, and `feedAll` with one piece after another.

`drain_append` says that draining does not depend on where the stream is cut, and
`feedAll_eq_drain` that feeding pieces is draining their concatenation. `drain_writeAll` is
the rule for round trips: a writer whose single outputs are read back, with the two states
staying in step, has all its output read back.
-/

set_option autoImplicit false

namespace PublicPool.Lib

/-- A reader of a stream of `β`, with phases `ρ`, that completes items `ε`. -/
structure BlockReader (β ρ ε : Type*) where
  /-- The length of the block a phase waits for. -/
  need : ρ → ℕ
  /-- What a block gives. -/
  next : ρ → List β → Option (ρ × List ε)
  /-- Phases that wait for nothing come to an end. -/
  rank : ρ → ℕ
  progress : ∀ {p p' : ρ} {out : List ε}, need p = 0 → next p [] = some (p', out) →
    rank p' < rank p

namespace BlockReader

variable {β ρ ε ω α : Type*} (r : BlockReader β ρ ε)

/-- Items that were complete before the ones of a later reading. -/
def prepend (out : List ε) (read : ρ × List β × List ε) : ρ × List β × List ε :=
  (read.1, read.2.1, out ++ read.2.2)

@[simp] theorem prepend_nil (read : ρ × List β × List ε) : prepend [] read = read := rfl

@[simp] theorem prepend_prepend (out more : List ε) (read : ρ × List β × List ε) :
    prepend out (prepend more read) = prepend (out ++ more) read := by
  simp [prepend]

@[simp] theorem map_prepend_nil (read : Option (ρ × List β × List ε)) :
    read.map (prepend []) = read := by
  cases read <;> rfl

theorem map_prepend_prepend (out more : List ε) (read : Option (ρ × List β × List ε)) :
    (read.map (prepend more)).map (prepend out) = read.map (prepend (out ++ more)) := by
  cases read <;> simp

/-- Read blocks for as long as the buffer has them: the phase the reader stops in, what is
left over and the items. -/
def drain (p : ρ) (buf : List β) : Option (ρ × List β × List ε) :=
  if buf.length < r.need p then some (p, buf, [])
  else
    match _h : r.next p (buf.take (r.need p)) with
    | none => none
    | some (p', out) => (drain p' (buf.drop (r.need p))).map (prepend out)
termination_by (buf.length, r.rank p)
decreasing_by
  -- A block of some length shortens the buffer, an empty one lowers the rank.
  by_cases hzero : r.need p = 0
  · have hdrop : (buf.drop (r.need p)).length = buf.length := by simp [hzero]
    rw [hdrop]
    exact Prod.Lex.right _ (r.progress hzero (by simpa [hzero] using _h))
  · apply Prod.Lex.left
    rw [List.length_drop]
    omega

/-- Read one more piece of the stream. -/
def feed (p : ρ) (rest piece : List β) : Option (ρ × List β × List ε) :=
  r.drain p (rest ++ piece)

/-- Read piece after piece. -/
def feedAll (p : ρ) (rest : List β) : List (List β) → Option (ρ × List β × List ε)
  | [] => some (p, rest, [])
  | piece :: pieces =>
    (r.feed p rest piece).bind fun read =>
      (feedAll read.1 read.2.1 pieces).map (prepend read.2.2)

/-! ### Draining -/

section
variable {p : ρ} {buf rest : List β} {w : ω}

theorem drain_short (h : buf.length < r.need p) : r.drain p buf = some (p, buf, []) := by
  rw [drain, if_pos h]

theorem drain_nil (h : 0 < r.need p) : r.drain p [] = some (p, [], []) :=
  r.drain_short h

/-- The first block of a buffer that has one. -/
theorem drain_block {block : List β} (h : block.length = r.need p) (rest : List β) :
    r.drain p (block ++ rest) =
      (r.next p block).bind fun next => (r.drain next.1 rest).map (prepend next.2) := by
  have hlong : ¬ (block ++ rest).length < r.need p := by
    rw [List.length_append]
    omega
  rw [drain, if_neg hlong, ← h, List.take_left, List.drop_left]
  cases r.next p block <;> rfl

/-- The reader stops where it waits for more. -/
theorem drain_waits {q : ρ} {out : List ε} (h : r.drain p buf = some (q, rest, out)) :
    rest.length < r.need q := by
  induction p, buf using drain.induct r generalizing out with
  | case1 p buf hshort =>
    rw [r.drain_short hshort] at h
    cases h
    exact hshort
  | case2 p buf hlong hnext =>
    rw [drain, if_neg hlong, hnext] at h
    cases h
  | case3 p buf hlong p' more hnext ih =>
    rw [drain, if_neg hlong, hnext] at h
    obtain ⟨⟨_, _, tail⟩, htail, heq⟩ := Option.map_eq_some_iff.mp h
    cases heq
    exact ih htail

/-- Where the stream is cut makes no difference. -/
theorem drain_append (p : ρ) (buf more : List β) :
    r.drain p (buf ++ more) =
      (r.drain p buf).bind fun read =>
        (r.drain read.1 (read.2.1 ++ more)).map (prepend read.2.2) := by
  induction p, buf using drain.induct r with
  | case1 p buf hshort => simp [r.drain_short hshort]
  | case2 p buf hlong hnext =>
    have hblock : (buf.take (r.need p)).length = r.need p := by
      rw [List.length_take]
      omega
    have hread : r.drain p buf = none := by rw [drain, if_neg hlong, hnext]
    rw [hread, ← List.take_append_drop (r.need p) buf, List.append_assoc,
      r.drain_block hblock, hnext]
    rfl
  | case3 p buf hlong p' out hnext ih =>
    have hblock : (buf.take (r.need p)).length = r.need p := by
      rw [List.length_take]
      omega
    have hread : r.drain p buf = (r.drain p' (buf.drop (r.need p))).map (prepend out) := by
      rw [drain, if_neg hlong, hnext]
    have hboth : r.drain p (buf ++ more) =
        (r.drain p' (buf.drop (r.need p) ++ more)).map (prepend out) := by
      conv_lhs => rw [← List.take_append_drop (r.need p) buf, List.append_assoc]
      rw [r.drain_block hblock, hnext]
      rfl
    rw [hboth, hread, ih]
    cases r.drain p' (buf.drop (r.need p)) with
    | none => rfl
    | some read => exact map_prepend_prepend _ _ _

/-- Feeding a stream piece by piece is draining it. -/
theorem feedAll_eq_drain (hwaits : rest.length < r.need p) (pieces : List (List β)) :
    r.feedAll p rest pieces = r.drain p (rest ++ pieces.flatten) := by
  induction pieces generalizing p rest with
  | nil => simp [feedAll, r.drain_short hwaits]
  | cons piece pieces ih =>
    rw [feedAll, feed, List.flatten_cons, ← List.append_assoc, r.drain_append p (rest ++ piece)]
    cases hread : r.drain p (rest ++ piece) with
    | none => rfl
    | some read => simp only [Option.bind_some, ih (r.drain_waits hread)]

/-! ### Round trips -/

/-- The outputs of a writer for a list of items, one after another. -/
def writeAll (write : ω → α → Option (List β × ω)) : ω → List α → Option (List β × ω)
  | w, [] => some ([], w)
  | w, x :: xs =>
    (write w x).bind fun first =>
      (writeAll write first.2 xs).map fun more => (first.1 ++ more.1, more.2)

/-- A writer and a reader that stay in step: the reader waits for the next item, and what
the writer puts out for an item is read back as that item, whatever follows it. -/
structure InStep (write : ω → α → Option (List β × ω)) (item : α → ε) (Synced : ω → ρ → Prop) :
    Prop where
  waits : ∀ {w : ω} {p : ρ}, Synced w p → 0 < r.need p
  reads : ∀ {w : ω} {p : ρ}, Synced w p → ∀ x : α, ∃ bytes w' p',
    write w x = some (bytes, w') ∧ Synced w' p' ∧
      ∀ rest, r.drain p (bytes ++ rest) = (r.drain p' rest).map (prepend [item x])

/-- The round trip of a stream. -/
theorem drain_writeAll {write : ω → α → Option (List β × ω)} {item : α → ε} {Synced : ω → ρ → Prop}
    (hstep : r.InStep write item Synced) (hsynced : Synced w p) (xs : List α) :
    ∃ bytes w' p', writeAll write w xs = some (bytes, w') ∧ Synced w' p' ∧
      r.drain p bytes = some (p', [], xs.map item) := by
  induction xs generalizing w p with
  | nil => exact ⟨[], w, p, rfl, hsynced, r.drain_nil (hstep.waits hsynced)⟩
  | cons x xs ih =>
    obtain ⟨first, w₁, p₁, hwrite, hsynced₁, hread⟩ := hstep.reads hsynced x
    obtain ⟨more, w₂, p₂, hwrites, hsynced₂, hreads⟩ := ih hsynced₁
    refine ⟨first ++ more, w₂, p₂, ?_, hsynced₂, ?_⟩
    · rw [writeAll, hwrite, Option.bind_some, hwrites]
      rfl
    · rw [hread, hreads]
      rfl

/-- The round trip of a stream that arrives in pieces. -/
theorem feedAll_writeAll {write : ω → α → Option (List β × ω)} {item : α → ε}
    {Synced : ω → ρ → Prop} (hstep : r.InStep write item Synced) (hsynced : Synced w p)
    (xs : List α) :
    ∃ bytes w' p', writeAll write w xs = some (bytes, w') ∧ Synced w' p' ∧
      ∀ pieces : List (List β), pieces.flatten = bytes →
        r.feedAll p [] pieces = some (p', [], xs.map item) := by
  obtain ⟨bytes, w', p', hwrites, hsynced', hread⟩ := r.drain_writeAll hstep hsynced xs
  refine ⟨bytes, w', p', hwrites, hsynced', fun pieces hpieces => ?_⟩
  have hwaits : ([] : List β).length < r.need p := hstep.waits hsynced
  rw [r.feedAll_eq_drain hwaits, hpieces]
  exact hread

end

end BlockReader

end PublicPool.Lib
