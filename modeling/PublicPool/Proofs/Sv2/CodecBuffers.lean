import PublicPool.Proofs.Sv2.MessageRoundTrip
import PublicPool.Sv2.CodecBuffers

/-!
# `PublicPool.Proofs.Sv2.CodecBuffers`: growing a buffer loses nothing

The writer that replaces its buffer when a value does not fit refines the one that appends
(`Simulates`), and the reader with an offset refines the one that takes bytes off the front
(`SimulatesRead`). What is written stands in front of the offset, and the rest of the buffer is
never looked at, so it may hold anything.

`writes_read_back`: from every initial size but zero, any sequence of write operations whose
values are in range gives the encodings one after the other, and the read operations that match
it give the values back and leave nothing.
-/

set_option autoImplicit false

namespace PublicPool.Sv2

open Lib Lib.Wire

/-! ### Copies -/

theorem length_copyInto {target : Bytes} (source : Bytes) {start : ℕ} (h : start ≤ target.length) :
    (copyInto target source start).length = target.length := by
  simp only [copyInto, List.length_append, List.length_take, List.length_drop]
  omega

/-- What is copied stands behind what was in front of it. -/
theorem take_copyInto {target source : Bytes} {start : ℕ}
    (h : start + source.length ≤ target.length) :
    (copyInto target source start).take (start + source.length) = target.take start ++ source := by
  have hsource : source.take (target.length - start) = source :=
    List.take_of_length_le (by omega)
  have hlength : (target.take start ++ source).length = start + source.length := by
    rw [List.length_append, List.length_take]
    omega
  rw [copyInto, hsource, List.take_left' hlength]

/-! ### The writer -/

namespace GrowingBuffer

/-- There is a buffer to double, and the offset is in it. -/
structure Fits (w : GrowingBuffer) : Prop where
  capacity_pos : 0 < w.buf.length
  offset_le : w.offset ≤ w.buf.length

theorem Fits.length_toBuffer {w : GrowingBuffer} (h : w.Fits) : w.toBuffer.length = w.offset := by
  rw [toBuffer, List.length_take, min_eq_left h.offset_le]

@[simp] theorem length_allocUnsafe (memory : Memory) (allocated size : ℕ) :
    (allocUnsafe memory allocated size).length = size := by
  rw [allocUnsafe, List.length_map, List.length_range]

theorem new_fits (memory : Memory) {initialSize : ℕ} (h : 1 ≤ initialSize) :
    (new memory initialSize).Fits := by
  refine ⟨?_, Nat.zero_le _⟩
  show 0 < (allocUnsafe memory 0 initialSize).length
  rwa [length_allocUnsafe]

/-- Doubling ends, at a power of two times the first size. -/
theorem doubleSize_ends (needed : ℕ) {newSize : ℕ} (hpos : 0 < newSize) :
    ∃ rounds, doubleSize needed newSize = some (newSize * 2 ^ rounds) ∧
      needed ≤ newSize * 2 ^ rounds := by
  let Inv := fun size => 0 < size ∧ ∃ rounds, size = newSize * 2 ^ rounds
  -- A size that is not zero comes closer to what is needed by doubling it.
  have hround : ∀ size, Inv size → decide (size < needed) = true →
      Inv (size * 2) ∧ needed - size * 2 < needed - size := by
    rintro size ⟨hsize, rounds, rfl⟩ htest
    have hless : newSize * 2 ^ rounds < needed := by simpa using htest
    exact ⟨⟨by omega, rounds + 1, by rw [pow_succ, mul_assoc]⟩, by omega⟩
  obtain ⟨size, hrun, ⟨-, rounds, rfl⟩, htest⟩ :=
    whileLoop_rule Inv (needed - ·) hround needed newSize (Nat.sub_le _ _) ⟨hpos, 0, by simp⟩
  exact ⟨rounds, hrun, by simpa using htest⟩

end GrowingBuffer

namespace GrowingWriter

open GrowingBuffer

/-- There is room for `n` bytes afterwards, and what was written is still there. -/
theorem ensureCapacity_run {w : GrowingBuffer} (h : w.Fits) (n : ℕ) :
    ∃ w', (ensureCapacity n).run w = some ((), w') ∧ w'.Fits ∧ w'.offset = w.offset ∧
      w'.toBuffer = w.toBuffer ∧ w'.offset + n ≤ w'.buf.length := by
  by_cases hfull : w.offset + n > w.buf.length
  · obtain ⟨rounds, hdouble, hneeded⟩ :=
      doubleSize_ends (w.offset + n) (Nat.mul_pos h.capacity_pos two_pos)
    generalize hsize : w.buf.length * 2 * 2 ^ rounds = newSize at hdouble hneeded
    let newBuf := allocUnsafe w.memory w.allocated newSize
    have hlength : (copyInto newBuf (w.buf.take w.offset) 0).length = newSize := by
      rw [length_copyInto _ (Nat.zero_le _), length_allocUnsafe]
    have hwritten : (w.buf.take w.offset).length = w.offset := h.length_toBuffer
    -- The old bytes fit, so all of them are copied to the front of the new buffer.
    have hfit : 0 + (w.buf.take w.offset).length ≤ newBuf.length := by
      rw [hwritten, length_allocUnsafe]
      omega
    have hfront := take_copyInto hfit
    rw [hwritten, Nat.zero_add, List.take_zero, List.nil_append] at hfront
    refine ⟨{ w with
      allocated := w.allocated + 1
      buf := copyInto newBuf (w.buf.take w.offset) 0 }, ?_, ⟨?_, ?_⟩, rfl, hfront, ?_⟩
    · show (if _ then _ else _) = _
      rw [if_pos hfull, hdouble]
      rfl
    · show 0 < (copyInto _ _ _).length
      rw [hlength]
      have hpos := h.capacity_pos
      omega
    · show w.offset ≤ (copyInto _ _ _).length
      rw [hlength]
      omega
    · show w.offset + n ≤ (copyInto _ _ _).length
      rwa [hlength]
  · refine ⟨w, ?_, h, rfl, rfl, Nat.not_lt.mp hfull⟩
    show (if _ then _ else _) = _
    rw [if_neg hfull]

/-- Bytes that there is room for are appended to what was written. -/
theorem put_run {w : GrowingBuffer} (h : w.Fits) {bytes : Bytes}
    (hroom : w.offset + bytes.length ≤ w.buf.length) :
    ∃ w', (put bytes).run w = some ((), w') ∧ w'.Fits ∧ w'.toBuffer = w.toBuffer ++ bytes := by
  have hlength := length_copyInto bytes h.offset_le
  refine ⟨_, rfl, ⟨?_, ?_⟩, take_copyInto hroom⟩
  · show 0 < (copyInto _ _ _).length
    rw [hlength]
    exact h.capacity_pos
  · show w.offset + bytes.length ≤ (copyInto _ _ _).length
    rwa [hlength]

/-! ### The writer refines appending -/

/-- Seen through what is written, the operation does what its specification does: it fails where
that fails. -/
def Simulates (write : GrowingWriter Unit) (spec : BufferWriter Unit) : Prop :=
  ∀ w : GrowingBuffer, w.Fits →
    (write.run w = none ∧ spec.run w.toBuffer = none) ∨
    ∃ w', write.run w = some ((), w') ∧ w'.Fits ∧ spec.run w.toBuffer = some ((), w'.toBuffer)

namespace Simulates

protected theorem failure : Simulates failure failure := fun _ _ => Or.inl ⟨rfl, rfl⟩

protected theorem pure : Simulates (pure ()) (pure ()) := fun w h => Or.inr ⟨w, rfl, h, rfl⟩

/-- One operation after another. -/
protected theorem bind {write write' : GrowingWriter Unit} {spec spec' : BufferWriter Unit}
    (h : Simulates write spec) (h' : Simulates write' spec') :
    Simulates (write >>= fun _ => write') (spec >>= fun _ => spec') := by
  intro w hfits
  rcases h w hfits with ⟨hrun, hspec⟩ | ⟨w', hrun, hfits', hspec⟩
  · left
    rw [StateT.run_bind, StateT.run_bind, hrun, hspec]
    exact ⟨rfl, rfl⟩
  · rw [StateT.run_bind, StateT.run_bind, hrun, hspec]
    exact h' w' hfits'

/-- Room first, and then the bytes. -/
theorem room_put {n : ℕ} {bytes : Bytes} (hlength : bytes.length = n) :
    Simulates (ensureCapacity n >>= fun _ => put bytes) (append bytes) := by
  intro w hfits
  right
  obtain ⟨w', hrun, hfits', -, hsame, hroom⟩ := ensureCapacity_run hfits n
  obtain ⟨w'', hput, hfits'', hbytes⟩ := put_run hfits' (by rw [hlength]; exact hroom)
  refine ⟨w'', ?_, hfits'', ?_⟩
  · rw [StateT.run_bind, hrun]
    exact hput
  · rw [hbytes, hsame]
    rfl

/-- Room first, and then a number, which may be too large. -/
theorem room_putUInt (n v : ℕ) :
    Simulates (ensureCapacity n >>= fun _ => putUInt n v)
      (if v < 256 ^ n then append (putLE n v) else failure) := by
  intro w hfits
  obtain ⟨w', hrun, hfits', -, hsame, hroom⟩ := ensureCapacity_run hfits n
  rw [StateT.run_bind, hrun]
  show ((putUInt n v).run w' = none ∧ _) ∨ ∃ w'', (putUInt n v).run w' = _ ∧ _
  by_cases hrange : v < 256 ^ n
  · right
    have hplace : w'.offset + (putLE n v).length ≤ w'.buf.length := by
      rw [length_putLE]
      exact hroom
    obtain ⟨w'', hput, hfits'', hbytes⟩ := put_run hfits' hplace
    refine ⟨w'', ?_, hfits'', ?_⟩
    · show (if _ then _ else _) = _
      rw [if_pos ⟨hrange, hroom⟩]
      exact hput
    · rw [if_pos hrange, hbytes, hsame]
      rfl
  · left
    rw [if_neg hrange]
    refine ⟨?_, rfl⟩
    show (if _ then _ else _) = _
    rw [if_neg fun h => hrange h.1]

theorem writeBool (v : Bool) : Simulates (writeBool v) (BufferWriter.writeBool v) := room_put rfl

theorem writeU8 (v : ℕ) : Simulates (writeU8 v) (BufferWriter.writeU8 v) := by
  have hbyte : putLE 1 v = [UInt8.ofNat v] := by
    rw [putLE_succ, ← UInt8.ofNat_mod_size (x := v)]
    rfl
  rw [BufferWriter.writeU8, hbyte]
  exact room_put rfl

theorem writeU16 (v : ℕ) : Simulates (writeU16 v) (BufferWriter.writeU16 v) := by
  have h := room_putUInt 2 v
  have hrange : v < 256 ^ 2 ↔ v ≤ 0xffff := by omega
  rwa [if_congr hrange rfl rfl] at h

theorem writeU24 (v : ℕ) : Simulates (writeU24 v) (BufferWriter.writeU24 v) := by
  have hbytes : putLE 3 v = [UInt8.ofNat v, UInt8.ofNat (v >>> 8), UInt8.ofNat (v >>> 16)] := by
    rw [putLE_natCast, ← UInt8.ofNat_mod_size (x := v), ← UInt8.ofNat_mod_size (x := v >>> 8),
      ← UInt8.ofNat_mod_size (x := v >>> 16)]
    simp [List.range_succ, Nat.shiftRight_eq_div_pow]
  rw [BufferWriter.writeU24, hbytes]
  exact room_put rfl

theorem writeU32 (v : ℕ) : Simulates (writeU32 v) (BufferWriter.writeU32 v) := by
  have h := room_putUInt 4 (v % 256 ^ 4)
  rwa [if_pos (Nat.mod_lt v (by norm_num)), putLE_mod] at h

theorem writeOptionU32 (v : Option ℕ) :
    Simulates (writeOptionU32 v) (BufferWriter.writeOptionU32 v) := by
  cases v with
  | none => exact writeU8 0
  | some n => exact (writeU8 1).bind (writeU32 n)

theorem writeU64 (v : ℕ) : Simulates (writeU64 v) (BufferWriter.writeU64 v) := by
  have h := room_putUInt 8 v
  have hrange : v < 256 ^ 8 ↔ v ≤ 0xffffffffffffffff := by omega
  rwa [if_congr hrange rfl rfl] at h

theorem writeU256 (v : Bytes) : Simulates (writeU256 v) (BufferWriter.writeU256 v) := by
  rw [GrowingWriter.writeU256, BufferWriter.writeU256]
  split
  · exact .failure
  · rename_i hlength
    exact room_put (not_not.mp hlength)

theorem writeF32 (v : F32) : Simulates (writeF32 v) (BufferWriter.writeF32 v) :=
  room_put v.length_eq

theorem writeBytes (v : Bytes) : Simulates (writeBytes v) (BufferWriter.writeBytes v) :=
  room_put rfl

theorem writePrefixed {limit : ℕ} {writeLength : ℕ → GrowingWriter Unit}
    {specLength : ℕ → BufferWriter Unit} (h : ∀ n, Simulates (writeLength n) (specLength n))
    (v : Bytes) :
    Simulates (writePrefixed limit writeLength v)
      (BufferWriter.writePrefixed limit specLength v) := by
  rw [GrowingWriter.writePrefixed, BufferWriter.writePrefixed]
  split
  · exact .failure
  · exact (h v.length).bind (writeBytes v)

end Simulates

end GrowingWriter

/-! ### The reader refines taking bytes off the front -/

namespace OffsetBuffer

/-- What is still to be read. -/
def rest (r : OffsetBuffer) : Bytes := r.buf.drop r.offset

/-- The offset is in the buffer. -/
def Within (r : OffsetBuffer) : Prop := r.offset ≤ r.buf.length

theorem Within.length_rest {r : OffsetBuffer} (h : r.Within) :
    r.offset + r.rest.length = r.buf.length := by
  rw [rest, List.length_drop]
  exact Nat.add_sub_cancel' h

theorem Within.remaining_eq {r : OffsetBuffer} (h : r.Within) : r.remaining = r.rest.length := by
  have hlength := h.length_rest
  rw [remaining]
  omega

end OffsetBuffer

namespace OffsetReader

/-- Seen through what is still to be read, the operation does what its specification does. -/
def SimulatesRead {α : Type} (read : OffsetReader α) (spec : BufferReader α) : Prop :=
  ∀ r : OffsetBuffer, r.Within →
    (read.run r = none ∧ spec.run r.rest = none) ∨
    ∃ a r', read.run r = some (a, r') ∧ r'.Within ∧ spec.run r.rest = some (a, r'.rest)

/-- Bytes are taken when there are enough of them. -/
theorem readBytes_run (r : OffsetBuffer) (n : ℕ) :
    (readBytes n).run r = if r.offset + n > r.buf.length then none
      else some ((r.buf.drop r.offset).take n, { r with offset := r.offset + n }) := by
  show ((ensure n >>= fun _ => bytesAt n).run r) = _
  rw [StateT.run_bind]
  show ((if r.offset + n > r.buf.length then none else some ((), r)) >>= _) = _
  split <;> rfl

/-- The shifts put three bytes together as their value does. -/
theorem leValue_shifts {b : Bytes} (h : 3 ≤ b.length) :
    leValue (b.take 1) ||| leValue ((b.drop 1).take 1) <<< 8 |||
      leValue ((b.drop 2).take 1) <<< 16 = leValue (b.take 3) := by
  rcases b with _ | ⟨x, _ | ⟨y, _ | ⟨z, b⟩⟩⟩
  · simp at h
  · simp at h
  · simp at h
  · have hx := x.toNat_lt
    have hy := y.toNat_lt
    have hlow : x.toNat ||| y.toNat <<< 8 = y.toNat <<< 8 + x.toNat := by
      rw [Nat.shiftLeft_add_eq_or_of_lt hx, Nat.or_comm]
    have hsmall : y.toNat <<< 8 + x.toNat < 2 ^ 16 := by
      rw [Nat.shiftLeft_eq]
      omega
    have hall : x.toNat ||| y.toNat <<< 8 ||| z.toNat <<< 16 =
        z.toNat <<< 16 + (y.toNat <<< 8 + x.toNat) := by
      rw [hlow, Nat.shiftLeft_add_eq_or_of_lt hsmall, Nat.or_comm]
    simp only [leValue, List.take_succ_cons, List.take_zero, List.drop_succ_cons, List.drop_zero,
      List.foldr_cons, List.foldr_nil, Nat.mul_zero, Nat.add_zero]
    rw [hall, Nat.shiftLeft_eq, Nat.shiftLeft_eq]
    omega

theorem readU24_eq : readU24 = readUInt 3 := by
  funext r
  by_cases hshort : r.offset + 3 > r.buf.length
  · have hensure : (ensure 3).run r = none := if_pos hshort
    have h24 : readU24.run r = none := by
      rw [readU24, StateT.run_bind, hensure]
      rfl
    have h3 : (readUInt 3).run r = none := by
      rw [readUInt, StateT.run_bind, hensure]
      rfl
    exact h24.trans h3.symm
  · have hensure : (ensure 3).run r = some ((), r) := if_neg hshort
    have henough : 3 ≤ (r.buf.drop r.offset).length := by
      rw [List.length_drop]
      omega
    have h24 : readU24.run r = some (leValue ((r.buf.drop r.offset).take 1) |||
        leValue ((r.buf.drop (r.offset + 1)).take 1) <<< 8 |||
        leValue ((r.buf.drop (r.offset + 2)).take 1) <<< 16,
          { r with offset := r.offset + 3 }) := by
      rw [readU24, StateT.run_bind, hensure]
      rfl
    have h3 : (readUInt 3).run r =
        some (leValue ((r.buf.drop r.offset).take 3), { r with offset := r.offset + 3 }) := by
      rw [readUInt, StateT.run_bind, hensure]
      rfl
    rw [← List.drop_drop, ← List.drop_drop, leValue_shifts henough] at h24
    exact h24.trans h3.symm

namespace SimulatesRead

variable {α β : Type}

protected theorem failure : SimulatesRead (failure : OffsetReader α) failure :=
  fun _ _ => Or.inl ⟨rfl, rfl⟩

protected theorem pure (a : α) : SimulatesRead (pure a) (pure a) :=
  fun r h => Or.inr ⟨a, r, rfl, h, rfl⟩

/-- One operation after another. -/
protected theorem bind {read : OffsetReader α} {spec : BufferReader α} {read' : α → OffsetReader β}
    {spec' : α → BufferReader β} (h : SimulatesRead read spec)
    (h' : ∀ a, SimulatesRead (read' a) (spec' a)) :
    SimulatesRead (read >>= read') (spec >>= spec') := by
  intro r hwithin
  rcases h r hwithin with ⟨hrun, hspec⟩ | ⟨a, r', hrun, hwithin', hspec⟩
  · left
    rw [StateT.run_bind, StateT.run_bind, hrun, hspec]
    exact ⟨rfl, rfl⟩
  · rw [StateT.run_bind, StateT.run_bind, hrun, hspec]
    exact h' a r' hwithin'

/-- An operation, and its result put into a form. -/
theorem map {read : OffsetReader α} {spec : BufferReader α} (h : SimulatesRead read spec)
    (f : α → β) : SimulatesRead (read >>= fun a => pure (f a)) (spec >>= fun a => pure (f a)) :=
  h.bind fun a => .pure (f a)

theorem readBytes (n : ℕ) : SimulatesRead (readBytes n) (BufferReader.readBytes n) := by
  intro r hwithin
  have hlength := hwithin.length_rest
  have hspec : (BufferReader.readBytes n).run r.rest =
      if n ≤ r.rest.length then some (r.rest.take n, r.rest.drop n) else none := rfl
  rw [readBytes_run, hspec]
  by_cases hshort : r.offset + n > r.buf.length
  · left
    rw [if_pos hshort, if_neg (by omega)]
    exact ⟨rfl, rfl⟩
  · right
    rw [if_neg hshort, if_pos (by omega)]
    refine ⟨_, _, rfl, Nat.not_lt.mp hshort, ?_⟩
    show some (_, (r.buf.drop r.offset).drop n) = some (_, r.buf.drop (r.offset + n))
    rw [List.drop_drop]
    rfl

theorem readUInt (n : ℕ) : SimulatesRead (readUInt n) (BufferReader.readLE n) := by
  have h := (readBytes n).map leValue
  rwa [OffsetReader.readBytes, bind_assoc] at h

theorem readBool : SimulatesRead readBool BufferReader.readBool :=
  (readUInt 1).map fun flag => decide (flag ≠ 0)

theorem readU24 : SimulatesRead readU24 BufferReader.readU24 := by
  rw [readU24_eq]
  exact readUInt 3

theorem readOptionU32 : SimulatesRead readOptionU32 BufferReader.readOptionU32 := by
  refine (readUInt 1).bind fun flag => ?_
  split
  · exact .pure none
  · exact (readUInt 4).map some

theorem readF32 : SimulatesRead readF32 BufferReader.readF32 := by
  intro r hwithin
  have hlength := hwithin.length_rest
  by_cases hshort : r.offset + 4 ≤ r.buf.length
  · right
    refine ⟨⟨r.rest.take 4, by rw [List.length_take]; omega⟩, { r with offset := r.offset + 4 }, ?_,
      hshort, ?_⟩
    · show (if h : r.offset + 4 ≤ r.buf.length then _ else none) = _
      rw [dif_pos hshort]
      rfl
    · show (if h : 4 ≤ r.rest.length then _ else none) = _
      rw [dif_pos (by omega)]
      show _ = some (_, r.buf.drop (r.offset + 4))
      rw [← List.drop_drop]
      rfl
  · left
    refine ⟨?_, ?_⟩
    · show (if h : r.offset + 4 ≤ r.buf.length then _ else none) = _
      rw [dif_neg hshort]
    · show (if h : 4 ≤ r.rest.length then _ else none) = _
      rw [dif_neg (by omega)]

theorem readStr0_255 : SimulatesRead readStr0_255 BufferReader.readStr0_255 := by
  rw [BufferReader.readStr0_255, BufferReader.readPrefixed, bind_assoc]
  exact (readUInt 1).bind fun len => (readBytes len).map utf8String

theorem readB0_32 : SimulatesRead readB0_32 BufferReader.readB0_32 := by
  refine (readUInt 1).bind fun len => ?_
  split
  · exact .failure
  · exact readBytes len

end SimulatesRead

end OffsetReader

/-! ### Operations on one value -/

/-- A value, with the wire type that it is written and read as. -/
inductive WireOp
  | bool (v : Bool)
  | u8 (v : ℕ)
  | optionU32 (v : Option ℕ)
  | u16 (v : ℕ)
  | u24 (v : ℕ)
  | u32 (v : ℕ)
  | u64 (v : ℕ)
  | u256 (v : Bytes)
  | f32 (v : F32)
  | bytes (v : Bytes)
  | str0_255 (v : String)
  | b0_32 (v : Bytes)
  | b0_255 (v : Bytes)
  | b0_64K (v : Bytes)
  | b0_16M (v : Bytes)
  deriving DecidableEq

namespace WireOp

abbrev Value : WireOp → Type
  | bool _ => Bool
  | u8 _ | u16 _ | u24 _ | u32 _ | u64 _ => ℕ
  | optionU32 _ => Option ℕ
  | f32 _ => F32
  | str0_255 _ => String
  | u256 _ | bytes _ | b0_32 _ | b0_255 _ | b0_64K _ | b0_16M _ => Bytes

def value : (op : WireOp) → op.Value
  | bool v => v
  | u8 v | u16 v | u24 v | u32 v | u64 v => v
  | optionU32 v => v
  | f32 v => v
  | str0_255 v => v
  | u256 v | bytes v | b0_32 v | b0_255 v | b0_64K v | b0_16M v => v

def InRange : WireOp → Prop
  | bool _ | f32 _ | bytes _ => True
  | u8 v => IsU8 v
  | optionU32 v => IsOptionU32 v
  | u16 v => IsU16 v
  | u24 v => v < 2 ^ 24
  | u32 v => IsU32 v
  | u64 v => IsU64 v
  | u256 v => IsU256 v
  | str0_255 v => IsStr0_255 v
  | b0_32 v => IsB0_32 v
  | b0_255 v => IsB0_255 v
  | b0_64K v => IsB0_64K v
  | b0_16M v => IsB0_16M v

/-- The bytes of the value. -/
def encoding : WireOp → Bytes
  | bool v => [if v then 1 else 0]
  | u8 v => putLE 1 v
  | optionU32 none => [0]
  | optionU32 (some v) => 1 :: putLE 4 v
  | u16 v => putLE 2 v
  | u24 v => putLE 3 v
  | u32 v => putLE 4 v
  | u64 v => putLE 8 v
  | u256 v | bytes v => v
  | f32 v => v.bytes
  | str0_255 v => putLE 1 (utf8Bytes v).length ++ utf8Bytes v
  | b0_32 v | b0_255 v => putLE 1 v.length ++ v
  | b0_64K v => putLE 2 v.length ++ v
  | b0_16M v => putLE 3 v.length ++ v

def write : WireOp → GrowingWriter Unit
  | bool v => GrowingWriter.writeBool v
  | u8 v => GrowingWriter.writeU8 v
  | optionU32 v => GrowingWriter.writeOptionU32 v
  | u16 v => GrowingWriter.writeU16 v
  | u24 v => GrowingWriter.writeU24 v
  | u32 v => GrowingWriter.writeU32 v
  | u64 v => GrowingWriter.writeU64 v
  | u256 v => GrowingWriter.writeU256 v
  | f32 v => GrowingWriter.writeF32 v
  | bytes v => GrowingWriter.writeBytes v
  | str0_255 v => GrowingWriter.writeStr0_255 v
  | b0_32 v => GrowingWriter.writeB0_32 v
  | b0_255 v => GrowingWriter.writeB0_255 v
  | b0_64K v => GrowingWriter.writeB0_64K v
  | b0_16M v => GrowingWriter.writeB0_16M v

/-- The operation that reads such a value. The number of plain bytes is known to the reader. -/
def read : (op : WireOp) → OffsetReader op.Value
  | bool _ => OffsetReader.readBool
  | u8 _ => OffsetReader.readU8
  | optionU32 _ => OffsetReader.readOptionU32
  | u16 _ => OffsetReader.readU16
  | u24 _ => OffsetReader.readU24
  | u32 _ => OffsetReader.readU32
  | u64 _ => OffsetReader.readU64
  | u256 _ => OffsetReader.readU256
  | f32 _ => OffsetReader.readF32
  | bytes v => OffsetReader.readBytes v.length
  | str0_255 _ => OffsetReader.readStr0_255
  | b0_32 _ => OffsetReader.readB0_32
  | b0_255 _ => OffsetReader.readB0_255
  | b0_64K _ => OffsetReader.readB0_64K
  | b0_16M _ => OffsetReader.readB0_16M

/-- Bytes after their length, from the start. -/
theorem run_writePrefixed {limit : ℕ} {writeLength : ℕ → BufferWriter Unit} {v length : Bytes}
    (hle : v.length ≤ limit) (hlength : (writeLength v.length).run [] = some ((), length)) :
    (BufferWriter.writePrefixed limit writeLength v).run [] = some ((), length ++ v) := by
  rw [BufferWriter.writePrefixed, if_neg (Nat.not_lt.mpr hle), StateT.run_bind, hlength]
  rfl

theorem run_writeU16 {v : ℕ} (h : IsU16 v) :
    (BufferWriter.writeU16 v).run [] = some ((), putLE 2 v) := by
  rw [BufferWriter.writeU16, if_pos (Nat.le_of_lt_succ h)]
  rfl

open GrowingWriter OffsetReader in
/-- The writer and the reader that the operations refine, which make a round trip. -/
theorem refines (op : WireOp) (h : op.InRange) :
    ∃ (write : BufferWriter Unit) (read : BufferReader op.Value),
      Simulates op.write write ∧ SimulatesRead op.read read ∧
        write.run [] = some ((), op.encoding) ∧ RoundTrips write read op.value := by
  cases op with
  | bool v => exact ⟨_, _, .writeBool v, .readBool, rfl, WireField.bool v⟩
  | u8 v => exact ⟨_, _, .writeU8 v, .readUInt 1, rfl, WireField.u8 h⟩
  | optionU32 v =>
    refine ⟨_, _, .writeOptionU32 v, .readOptionU32, ?_, WireField.optionU32 h⟩
    cases v with
    | none => rfl
    | some n => rfl
  | u16 v => exact ⟨_, _, .writeU16 v, .readUInt 2, run_writeU16 h, WireField.u16 h⟩
  | u24 v => exact ⟨_, _, .writeU24 v, .readU24, rfl, WireField.u24 h⟩
  | u32 v => exact ⟨_, _, .writeU32 v, .readUInt 4, rfl, WireField.u32 h⟩
  | u64 v =>
    refine ⟨_, _, .writeU64 v, .readUInt 8, ?_, WireField.u64 h⟩
    rw [BufferWriter.writeU64, if_pos (Nat.le_of_lt_succ h)]
    rfl
  | u256 v =>
    have hlength : v.length = 32 := h
    refine ⟨_, _, .writeU256 v, .readBytes 32, ?_, WireField.u256 h⟩
    rw [BufferWriter.writeU256, if_neg (not_not.mpr hlength)]
    rfl
  | f32 v => exact ⟨_, _, .writeF32 v, .readF32, rfl, WireField.f32 v⟩
  | bytes v => exact ⟨_, _, .writeBytes v, .readBytes v.length, rfl, WireField.bytes rfl⟩
  | str0_255 v =>
    exact ⟨_, _, .writePrefixed .writeU8 (utf8Bytes v), .readStr0_255,
      run_writePrefixed h rfl, WireField.str0_255 h⟩
  | b0_32 v =>
    exact ⟨_, _, .writePrefixed .writeU8 v, .readB0_32, run_writePrefixed h rfl,
      WireField.b0_32 h⟩
  | b0_255 v =>
    exact ⟨_, _, .writePrefixed .writeU8 v, (SimulatesRead.readUInt 1).bind .readBytes,
      run_writePrefixed h rfl, WireField.b0_255 h⟩
  | b0_64K v =>
    exact ⟨_, _, .writePrefixed .writeU16 v, (SimulatesRead.readUInt 2).bind .readBytes,
      run_writePrefixed h (run_writeU16 (Nat.lt_succ_of_le h)), WireField.b0_64K h⟩
  | b0_16M v =>
    exact ⟨_, _, .writePrefixed .writeU24 v, SimulatesRead.readU24.bind .readBytes,
      run_writePrefixed h rfl, WireField.b0_16M h⟩

end WireOp

/-! ### Sequences of operations -/

open GrowingWriter OffsetReader

/-- A sequence of write operations with values in range, and the encodings one after the other. -/
inductive Encodes : GrowingWriter Unit → Bytes → Prop
  | done : Encodes (pure ()) []
  | op (op : WireOp) (h : op.InRange) : Encodes op.write op.encoding
  | andThen {write write' : GrowingWriter Unit} {bytes bytes' : Bytes} :
      Encodes write bytes → Encodes write' bytes' →
        Encodes (write >>= fun _ => write') (bytes ++ bytes')
  | seq0_255 {α : Type} (items : List α) (writeFn : α → GrowingWriter Unit) (encoding : α → Bytes)
      (hcount : items.length ≤ 255) (hitems : ∀ x ∈ items, Encodes (writeFn x) (encoding x)) :
      Encodes (writeSeq0_255 items writeFn) (putLE 1 items.length ++ items.flatMap encoding)
  | seq0_64K {α : Type} (items : List α) (writeFn : α → GrowingWriter Unit) (encoding : α → Bytes)
      (hcount : items.length ≤ 65535) (hitems : ∀ x ∈ items, Encodes (writeFn x) (encoding x)) :
      Encodes (writeSeq0_64K items writeFn) (putLE 2 items.length ++ items.flatMap encoding)

/-- A sequence of write operations with values in range, the read operations that match it, and
what they return. A later read operation may depend on what was read before it. -/
inductive Matches : {α : Type} → GrowingWriter Unit → OffsetReader α → α → Prop
  | done {α : Type} (a : α) : Matches (pure ()) (pure a) a
  | op (op : WireOp) (h : op.InRange) : Matches op.write op.read op.value
  | andThen {α β : Type} {write write' : GrowingWriter Unit} {read : OffsetReader α}
      {read' : α → OffsetReader β} {a : α} {b : β} :
      Matches write read a → Matches write' (read' a) b →
        Matches (write >>= fun _ => write') (read >>= read') b
  | result {α β : Type} {write : GrowingWriter Unit} {read : OffsetReader α} {a : α}
      (f : α → β) : Matches write read a → Matches write (read >>= fun x => pure (f x)) (f a)
  | seq0_255 {α β : Type} (items : List α) (writeFn : α → GrowingWriter Unit)
      (readFn : OffsetReader β) (value : α → β) (hcount : items.length ≤ 255)
      (hitems : ∀ x ∈ items, Matches (writeFn x) readFn (value x)) :
      Matches (writeSeq0_255 items writeFn) (readSeq0_255 readFn) (items.map value)
  | seq0_64K {α β : Type} (items : List α) (writeFn : α → GrowingWriter Unit)
      (readFn : OffsetReader β) (value : α → β) (hcount : items.length ≤ 65535)
      (hitems : ∀ x ∈ items, Matches (writeFn x) readFn (value x)) :
      Matches (writeSeq0_64K items writeFn) (readSeq0_64K readFn) (items.map value)

/-- The operation succeeds, and appends the bytes to what was written. -/
def Appends (write : GrowingWriter Unit) (bytes : Bytes) : Prop :=
  ∀ w : GrowingBuffer, w.Fits →
    ∃ w', write.run w = some ((), w') ∧ w'.Fits ∧ w'.toBuffer = w.toBuffer ++ bytes

namespace Appends

protected theorem pure : Appends (pure ()) [] :=
  fun w h => ⟨w, rfl, h, (List.append_nil _).symm⟩

protected theorem bind {write write' : GrowingWriter Unit} {bytes bytes' : Bytes}
    (h : Appends write bytes) (h' : Appends write' bytes') :
    Appends (write >>= fun _ => write') (bytes ++ bytes') := by
  intro w hfits
  obtain ⟨w', hrun, hfits', hbytes⟩ := h w hfits
  obtain ⟨w'', hrun', hfits'', hbytes'⟩ := h' w' hfits'
  refine ⟨w'', ?_, hfits'', by rw [hbytes', hbytes, List.append_assoc]⟩
  rw [StateT.run_bind, hrun]
  exact hrun'

/-- An operation on one value, which refines one that appends. -/
theorem op (op : WireOp) (h : op.InRange) : Appends op.write op.encoding := by
  intro w hfits
  obtain ⟨spec, read, hsimulates, -, hstart, symbols, hwrite, -⟩ := op.refines h
  -- Appending does not look at what is there, so the bytes are those from the start.
  have hsymbols : symbols = op.encoding := by
    have hsame := (hwrite []).symm.trans hstart
    exact congrArg Prod.snd (Option.some.inj hsame)
  rcases hsimulates w hfits with ⟨-, hnone⟩ | ⟨w', hrun, hfits', hspec⟩
  · rw [hwrite] at hnone
    cases hnone
  · refine ⟨w', hrun, hfits', ?_⟩
    rw [hwrite, hsymbols] at hspec
    exact (congrArg Prod.snd (Option.some.inj hspec)).symm

/-- The items of a list, one after another. -/
theorem forM {α : Type} {items : List α} {writeFn : α → GrowingWriter Unit} {encoding : α → Bytes}
    (h : ∀ x ∈ items, Appends (writeFn x) (encoding x)) :
    Appends (items.forM writeFn) (items.flatMap encoding) := by
  induction items with
  | nil => exact .pure
  | cons x items ih =>
    obtain ⟨hx, hitems⟩ := List.forall_mem_cons.mp h
    exact hx.bind (ih hitems)

theorem seq {α : Type} {limit : ℕ} {writeCount : ℕ → GrowingWriter Unit} {items : List α}
    {writeFn : α → GrowingWriter Unit} {encoding : α → Bytes} {count : Bytes}
    (hle : items.length ≤ limit) (hcount : Appends (writeCount items.length) count)
    (h : ∀ x ∈ items, Appends (writeFn x) (encoding x)) :
    Appends (writeSeq limit writeCount items writeFn) (count ++ items.flatMap encoding) := by
  rw [writeSeq, if_neg (Nat.not_lt.mpr hle)]
  exact hcount.bind (forM h)

end Appends

theorem Encodes.appends {write : GrowingWriter Unit} {bytes : Bytes} (h : Encodes write bytes) :
    Appends write bytes := by
  induction h with
  | done => exact .pure
  | op op hrange => exact .op op hrange
  | andThen _ _ ih ih' => exact ih.bind ih'
  | seq0_255 items writeFn encoding hcount _ ih =>
    exact .seq hcount (.op (.u8 items.length) (Nat.lt_succ_of_le hcount)) ih
  | seq0_64K items writeFn encoding hcount _ ih =>
    exact .seq hcount (.op (.u16 items.length) (Nat.lt_succ_of_le hcount)) ih

/-- When the bytes come next, the operation takes just them and returns the value. -/
def Takes {α : Type} (read : OffsetReader α) (bytes : Bytes) (a : α) : Prop :=
  ∀ (r : OffsetBuffer) (rest : Bytes), r.Within → r.rest = bytes ++ rest →
    ∃ r', read.run r = some (a, r') ∧ r'.Within ∧ r'.rest = rest

namespace Takes

variable {α β : Type}

protected theorem pure (a : α) : Takes (pure a) [] a :=
  fun r _ h hrest => ⟨r, rfl, h, hrest⟩

protected theorem bind {read : OffsetReader α} {read' : α → OffsetReader β} {bytes bytes' : Bytes}
    {a : α} {b : β} (h : Takes read bytes a) (h' : Takes (read' a) bytes' b) :
    Takes (read >>= read') (bytes ++ bytes') b := by
  intro r rest hwithin hrest
  rw [List.append_assoc] at hrest
  obtain ⟨r', hrun, hwithin', hrest'⟩ := h r _ hwithin hrest
  obtain ⟨r'', hrun', hend⟩ := h' r' rest hwithin' hrest'
  refine ⟨r'', ?_, hend⟩
  rw [StateT.run_bind, hrun]
  exact hrun'

theorem result {read : OffsetReader α} {bytes : Bytes} {a : α} (h : Takes read bytes a)
    (f : α → β) : Takes (read >>= fun x => pure (f x)) bytes (f a) := by
  have hend : Takes (read >>= fun x => pure (f x)) (bytes ++ []) (f a) := h.bind (.pure (f a))
  rwa [List.append_nil] at hend

/-- An operation on one value, which refines one that takes bytes off the front. -/
theorem op (op : WireOp) (h : op.InRange) : Takes op.read op.encoding op.value := by
  intro r rest hwithin hrest
  obtain ⟨write, spec, -, hsimulates, hstart, htrip⟩ := op.refines h
  have hspec : spec.run (op.encoding ++ rest) = some (op.value, rest) :=
    @RoundTrips.run_written _ _ write spec op.value htrip [] op.encoding hstart rest
  rw [← hrest] at hspec
  rcases hsimulates r hwithin with ⟨-, hnone⟩ | ⟨a, r', hrun, hwithin', hread⟩
  · rw [hnone] at hspec
    cases hspec
  · have hsame := Option.some.inj (hread.symm.trans hspec)
    refine ⟨r', ?_, hwithin', congrArg Prod.snd hsame⟩
    have hvalue : a = op.value := congrArg Prod.fst hsame
    rw [hrun, hvalue]

theorem readItems {items : List α} {readFn : OffsetReader β} {value : α → β}
    {encoding : α → Bytes} (h : ∀ x ∈ items, Takes readFn (encoding x) (value x)) :
    Takes (readItems readFn items.length) (items.flatMap encoding) (items.map value) := by
  induction items with
  | nil => exact .pure []
  | cons x items ih =>
    obtain ⟨hx, hitems⟩ := List.forall_mem_cons.mp h
    exact hx.bind ((ih hitems).result _)

end Takes

/-- What is written is the concatenation of some encodings, and is read by the operations that
match. -/
theorem Matches.encodes {α : Type} {write : GrowingWriter Unit} {read : OffsetReader α} {a : α}
    (h : Matches write read a) : ∃ bytes, Encodes write bytes ∧ Takes read bytes a := by
  induction h with
  | done a => exact ⟨[], .done, .pure a⟩
  | op op hrange => exact ⟨op.encoding, .op op hrange, .op op hrange⟩
  | andThen _ _ ih ih' =>
    obtain ⟨bytes, hencodes, htakes⟩ := ih
    obtain ⟨bytes', hencodes', htakes'⟩ := ih'
    exact ⟨bytes ++ bytes', hencodes.andThen hencodes', htakes.bind htakes'⟩
  | result f _ ih =>
    obtain ⟨bytes, hencodes, htakes⟩ := ih
    exact ⟨bytes, hencodes, htakes.result f⟩
  | seq0_255 items writeFn readFn value hcount _ ih =>
    choose! encoding hencodes htakes using ih
    refine ⟨_, .seq0_255 items writeFn encoding hcount hencodes, ?_⟩
    exact (Takes.op (.u8 items.length) (Nat.lt_succ_of_le hcount)).bind (.readItems htakes)
  | seq0_64K items writeFn readFn value hcount _ ih =>
    choose! encoding hencodes htakes using ih
    refine ⟨_, .seq0_64K items writeFn encoding hcount hencodes, ?_⟩
    exact (Takes.op (.u16 items.length) (Nat.lt_succ_of_le hcount)).bind (.readItems htakes)

/-- A new writer holds nothing, so what it gives in the end is what was appended. -/
theorem Appends.written_eq {write : GrowingWriter Unit} {bytes : Bytes} (h : Appends write bytes)
    (memory : Memory) {initialSize : ℕ} (hsize : 1 ≤ initialSize) :
    written memory initialSize write = some bytes := by
  obtain ⟨w, hrun, -, hbytes⟩ := h _ (GrowingBuffer.new_fits memory hsize)
  rw [written, hrun]
  exact congrArg some hbytes

/-- Whatever is in the memory, and whatever the size to begin with, if it is not zero: doubling it
ends, `toBuffer` gives the encodings of what was written one after the other, and reading them
with the operations that match gives the values back and leaves nothing. -/
theorem writes_read_back (memory : Memory) {initialSize : ℕ} (hsize : 1 ≤ initialSize) :
    (∀ needed newSize, 0 < newSize → ∃ rounds,
      GrowingBuffer.doubleSize needed newSize = some (newSize * 2 ^ rounds) ∧
        needed ≤ newSize * 2 ^ rounds) ∧
    (∀ write bytes, Encodes write bytes → written memory initialSize write = some bytes) ∧
    ∀ (α : Type) (write : GrowingWriter Unit) (read : OffsetReader α) (a : α),
      Matches write read a → ∃ bytes r, Encodes write bytes ∧
        written memory initialSize write = some bytes ∧
        read.run (OffsetBuffer.new bytes) = some (a, r) ∧ r.remaining = 0 := by
  refine ⟨fun needed newSize hpos => GrowingBuffer.doubleSize_ends needed hpos,
    fun write bytes hencodes => hencodes.appends.written_eq memory hsize,
    fun α write read a hmatches => ?_⟩
  obtain ⟨bytes, hencodes, htakes⟩ := hmatches.encodes
  obtain ⟨r, hrun, hwithin, hrest⟩ :=
    htakes (OffsetBuffer.new bytes) [] (Nat.zero_le _) (List.append_nil bytes).symm
  refine ⟨bytes, r, hencodes, hencodes.appends.written_eq memory hsize, hrun, ?_⟩
  rw [hwithin.remaining_eq, hrest]
  rfl

/-- A writer of one byte, with a number and two items that are sequences themselves. -/
theorem writes_read_back_sample :
    ∃ bytes r,
      Encodes (writeU16 513 >>= fun _ =>
        writeSeq0_255 [[7, 8], []] fun item => writeSeq0_64K item writeU8) bytes ∧
      written (fun _ _ => 0xff) 1 (writeU16 513 >>= fun _ =>
        writeSeq0_255 [[7, 8], []] fun item => writeSeq0_64K item writeU8) = some bytes ∧
      (readU16 >>= fun first => readSeq0_255 (readSeq0_64K readU8) >>= fun items =>
        pure (first, items)).run (OffsetBuffer.new bytes) = some ((513, [[7, 8], []]), r) ∧
      r.remaining = 0 := by
  have hrange : ∀ item ∈ [[7, 8], []], item.length ≤ 65535 ∧ ∀ v ∈ item, v < 2 ^ 8 := by decide
  have hitem : ∀ item ∈ [[7, 8], []],
      Matches (writeSeq0_64K item writeU8) (readSeq0_64K readU8) item := by
    intro item hmem
    obtain ⟨hcount, hbytes⟩ := hrange item hmem
    have h := Matches.seq0_64K item writeU8 readU8 id hcount fun v hv => .op (.u8 v) (hbytes v hv)
    rwa [List.map_id] at h
  have hfirst : IsU16 513 := by norm_num [IsU16]
  have hitems := Matches.seq0_255 [[7, 8], []] (fun item => writeSeq0_64K item writeU8)
    (readSeq0_64K readU8) id (by decide) hitem
  exact (writes_read_back (fun _ _ => 0xff) (le_refl 1)).2.2 _ _ _ _
    ((Matches.op (.u16 513) hfirst).andThen (hitems.result fun items => (513, items)))

example : written (fun _ _ => 0xff) 1 (writeU16 513 >>= fun _ => writeB0_32 [7, 8, 9]) =
    some [1, 2, 3, 7, 8, 9] := by decide

end PublicPool.Sv2
