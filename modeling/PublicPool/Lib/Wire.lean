import Mathlib.Data.List.Basic

/-!
# `PublicPool.Lib.Wire`: writers, readers and what survives between them

A `WireWriter` appends symbols to what was written, a `WireReader` takes symbols off the front of
what there is to read, and both may fail. `RoundTrips w r a` says that `w` writes something
which `r` reads as `a`, taking exactly what `w` has written, whatever follows it.

The rules below follow the ways writers and readers are put together: one after another
(`bind`, and `last` for the final field of a record), a fixed number of symbols
(`append_take`), and the elements of a list with the reader counting them (`forM_times`).

A reader that goes by what is left, or leaves the end of a message alone, makes no round trip: what
follows matters to it. `Yields w r a` is about a whole message, and `RoundTrips.yields` reads the
parts in front of such an end.
-/

set_option autoImplicit false

namespace PublicPool.Lib

/-- A computation that appends symbols of `β`. -/
abbrev WireWriter (β : Type) := StateT (List β) Option

/-- A computation that reads symbols of `β`. -/
abbrev WireReader (β : Type) := StateT (List β) Option

namespace Wire

variable {β α γ : Type}

/-- Write these symbols. -/
def append (symbols : List β) : WireWriter β Unit := fun written => some ((), written ++ symbols)

/-- Read `n` symbols. -/
def take (n : ℕ) : WireReader β (List β) := fun rest =>
  if n ≤ rest.length then some (rest.take n, rest.drop n) else none

/-- Use the same reader a number of times. -/
def times : ℕ → WireReader β α → WireReader β (List α)
  | 0, _ => pure []
  | n + 1, read => do
    let x ← read
    let xs ← times n read
    return x :: xs

/-- What a writer writes from the start. -/
def output (write : WireWriter β Unit) : Option (List β) := (write.run []).map Prod.snd

section
variable {read : WireReader β α} {symbols : List β}

/-- A reader goes on with what another one has left. -/
theorem run_bind {a : α} {rest : List β} (h : read.run symbols = some (a, rest))
    (next : α → WireReader β γ) : (read >>= next).run symbols = (next a).run rest := by
  rw [StateT.run_bind, h]
  rfl

/-- The result that a reader ends with, if it does not fail on the way. -/
theorem eq_of_run_bind_pure {result result' : γ}
    (h : ((read >>= fun _ => pure result).run symbols).map Prod.fst = some result') :
    result = result' := by
  rw [StateT.run_bind] at h
  cases hread : read.run symbols with
  | none =>
    rw [hread] at h
    cases h
  | some pair =>
    rw [hread] at h
    exact Option.some.inj h

/-- A writer appends to what another one has written. -/
theorem run_write_bind {write write' : WireWriter β Unit} {written : List β}
    (h : write.run written = some ((), written ++ symbols)) :
    (write >>= fun _ => write').run written = write'.run (written ++ symbols) := by
  rw [StateT.run_bind, h]
  rfl

end

/-- What `write` writes is read as `a` by `read`, which takes nothing else. -/
def RoundTrips (write : WireWriter β Unit) (read : WireReader β α) (a : α) : Prop :=
  ∃ symbols, (∀ written, write.run written = some ((), written ++ symbols)) ∧
    ∀ rest, read.run (symbols ++ rest) = some (a, rest)

/-! ### Rules -/

namespace RoundTrips

/-- The reader takes whatever the writer is seen to write. -/
theorem run_written {write : WireWriter β Unit} {read : WireReader β α} {a : α}
    (h : RoundTrips write read a) {written symbols : List β}
    (hwrite : write.run written = some ((), written ++ symbols)) (rest : List β) :
    read.run (symbols ++ rest) = some (a, rest) := by
  obtain ⟨symbols', hwrite', hread⟩ := h
  have hsame : written ++ symbols = written ++ symbols' :=
    congrArg Prod.snd (Option.some.inj (hwrite.symm.trans (hwrite' written)))
  rw [List.append_cancel_left hsame]
  exact hread rest

protected theorem pure (a : α) : RoundTrips (pure () : WireWriter β Unit) (pure a) a :=
  ⟨[], fun written => by rw [List.append_nil]; rfl, fun _ => rfl⟩

/-- Two parts in a row. -/
protected theorem bind {write write' : WireWriter β Unit} {read : WireReader β α} {a : α}
    {read' : α → WireReader β γ} {b : γ} (h : RoundTrips write read a)
    (h' : RoundTrips write' (read' a) b) :
    RoundTrips (write >>= fun _ => write') (read >>= read') b := by
  obtain ⟨symbols, hwrite, hread⟩ := h
  obtain ⟨symbols', hwrite', hread'⟩ := h'
  refine ⟨symbols ++ symbols', fun written => ?_, fun rest => ?_⟩
  · rw [run_write_bind (hwrite written), hwrite', List.append_assoc]
  · rw [List.append_assoc, run_bind (hread _), hread']

section
variable {write : WireWriter β Unit} {read : WireReader β α} {a : α}

/-- The reader goes on without taking anything. -/
theorem readOn {read' : α → WireReader β γ} {b : γ} (h : RoundTrips write read a)
    (h' : ∀ rest, (read' a).run rest = some (b, rest)) : RoundTrips write (read >>= read') b := by
  obtain ⟨symbols, hwrite, hread⟩ := h
  refine ⟨symbols, hwrite, fun rest => ?_⟩
  rw [run_bind (hread rest), h']

/-- The last part, after which the reader puts its result together. -/
theorem last (h : RoundTrips write read a) (f : α → γ) :
    RoundTrips write (read >>= fun x => pure (f x)) (f a) :=
  h.readOn fun _ => rfl

theorem append_take (symbols : List β) :
    RoundTrips (append symbols) (take symbols.length) symbols := by
  refine ⟨symbols, fun written => rfl, fun rest => ?_⟩
  have hle : symbols.length ≤ (symbols ++ rest).length := by
    rw [List.length_append]
    omega
  show (if symbols.length ≤ (symbols ++ rest).length then _ else _) = _
  rw [if_pos hle, List.take_left, List.drop_left]

/-- The elements of a list, one after another. -/
theorem forM_times {write : α → WireWriter β Unit} {xs : List α}
    (h : ∀ x ∈ xs, RoundTrips (write x) read x) :
    RoundTrips (xs.forM write) (times xs.length read) xs := by
  induction xs with
  | nil => exact .pure []
  | cons x xs ih =>
    have hrest := ih fun y hy => h y (List.mem_cons_of_mem x hy)
    exact (h x List.mem_cons_self).bind (hrest.last (x :: ·))

/-- A round trip from the start of a message to its end. -/
theorem output_eq (h : RoundTrips write read a) :
    ∃ symbols, output write = some symbols ∧
      ∀ rest, read.run (symbols ++ rest) = some (a, rest) := by
  obtain ⟨symbols, hwrite, hread⟩ := h
  exact ⟨symbols, by rw [output, hwrite]; rfl, hread⟩

end

end RoundTrips

/-! ### Whole messages -/

/-- When there is nothing but what `write` writes, `read` makes `result` of it. -/
def Yields (write : WireWriter β Unit) (read : WireReader β α) (result : Option α) : Prop :=
  ∃ symbols, (∀ written, write.run written = some ((), written ++ symbols)) ∧
    (read.run symbols).map Prod.fst = result

/-- A part in front of the end. -/
theorem RoundTrips.yields {write write' : WireWriter β Unit} {read : WireReader β α} {a : α}
    {read' : α → WireReader β γ} {result : Option γ} (h : RoundTrips write read a)
    (h' : Yields write' (read' a) result) :
    Yields (write >>= fun _ => write') (read >>= read') result := by
  obtain ⟨symbols, hwrite, hread⟩ := h
  obtain ⟨symbols', hwrite', hread'⟩ := h'
  refine ⟨symbols ++ symbols', fun written => ?_, ?_⟩
  · rw [run_write_bind (hwrite written), hwrite', List.append_assoc]
  · rw [run_bind (hread symbols'), hread']

theorem Yields.output_eq {write : WireWriter β Unit} {read : WireReader β α} {result : Option α}
    (h : Yields write read result) :
    ∃ symbols, output write = some symbols ∧ (read.run symbols).map Prod.fst = result := by
  obtain ⟨symbols, hwrite, hread⟩ := h
  exact ⟨symbols, by rw [output, hwrite]; rfl, hread⟩

end Wire

end PublicPool.Lib
