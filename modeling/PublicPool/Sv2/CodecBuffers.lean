import PublicPool.Lib.WhileLoop
import PublicPool.Sv2.BinaryCodec

/-!
# `PublicPool.Sv2.CodecBuffers`: the buffers behind the codec

`models/sv2/sv2-binary-codec.ts` again, with what `PublicPool.Sv2.BinaryCodec` leaves out: a
writer has a buffer of its own, larger than what it holds, and replaces it by one of twice the
size or more when a value does not fit; a reader has an offset.

`Buffer.allocUnsafe` gives whatever was in the memory. `none` is a `RangeError`, or a loop that
does not end: a buffer without any byte is doubled for ever.
-/

set_option autoImplicit false

namespace PublicPool.Sv2

open Lib

/-- What is in the memory of the buffers that will be allocated: the bytes of each one. -/
abbrev Memory := ℕ → ℕ → UInt8

/-- The state of a `BufferWriter`. -/
structure GrowingBuffer where
  memory : Memory
  /-- How many buffers were allocated. -/
  allocated : ℕ
  buf : Bytes
  offset : ℕ

abbrev GrowingWriter := StateT GrowingBuffer Option

/-- The state of a `BufferReader`. -/
structure OffsetBuffer where
  buf : Bytes
  offset : ℕ
  deriving DecidableEq

abbrev OffsetReader := StateT OffsetBuffer Option

/-- `source.copy(target, start)`: what goes past the end of the target is left out. -/
def copyInto (target source : Bytes) (start : ℕ) : Bytes :=
  target.take start ++ source.take (target.length - start) ++ target.drop (start + source.length)

/-! ### Writer -/

namespace GrowingBuffer

/-- `Buffer.allocUnsafe(size)`. -/
def allocUnsafe (memory : Memory) (allocated size : ℕ) : Bytes :=
  (List.range size).map (memory allocated)

/-- `new BufferWriter(initialSize)`. -/
def new (memory : Memory) (initialSize : ℕ) : GrowingBuffer where
  memory := memory
  allocated := 1
  buf := allocUnsafe memory 0 initialSize
  offset := 0

/-- `while (newSize < needed) newSize *= 2;`. As many rounds as bytes are needed are enough. -/
def doubleSize (needed newSize : ℕ) : Option ℕ :=
  whileLoop (fun size => decide (size < needed)) (fun size => size * 2) needed newSize

/-- `w.toBuffer()`. -/
def toBuffer (w : GrowingBuffer) : Bytes := w.buf.take w.offset

end GrowingBuffer

namespace GrowingWriter

open GrowingBuffer

def ensureCapacity (n : ℕ) : GrowingWriter Unit := fun w =>
  if w.offset + n > w.buf.length then
    (doubleSize (w.offset + n) (w.buf.length * 2)).map fun newSize =>
      let newBuf := allocUnsafe w.memory w.allocated newSize
      ((), { w with
        allocated := w.allocated + 1
        buf := copyInto newBuf (w.buf.take w.offset) 0 })
  else some ((), w)

/-- Put bytes at the offset, which moves behind them. -/
def put (bytes : Bytes) : GrowingWriter Unit := fun w =>
  some ((), { w with buf := copyInto w.buf bytes w.offset, offset := w.offset + bytes.length })

/-- `this.buf.writeUInt…LE(v, this.offset)`, and the offset moves behind the bytes. -/
def putUInt (bytes v : ℕ) : GrowingWriter Unit := fun w =>
  if v < 256 ^ bytes ∧ w.offset + bytes ≤ w.buf.length then (put (putLE bytes v)).run w
  else none

def writeBool (v : Bool) : GrowingWriter Unit := do
  ensureCapacity 1
  put [if v then 1 else 0]

/-- `v & 0xff`. -/
def writeU8 (v : ℕ) : GrowingWriter Unit := do
  ensureCapacity 1
  put [UInt8.ofNat v]

def writeU16 (v : ℕ) : GrowingWriter Unit := do
  ensureCapacity 2
  putUInt 2 v

def writeU24 (v : ℕ) : GrowingWriter Unit := do
  ensureCapacity 3
  put [UInt8.ofNat v, UInt8.ofNat (v >>> 8), UInt8.ofNat (v >>> 16)]

/-- `v >>> 0`. -/
def writeU32 (v : ℕ) : GrowingWriter Unit := do
  ensureCapacity 4
  putUInt 4 (v % 2 ^ 32)

def writeOptionU32 : Option ℕ → GrowingWriter Unit
  | none => writeU8 0
  | some v => do
    writeU8 1
    writeU32 v

def writeU64 (v : ℕ) : GrowingWriter Unit := do
  ensureCapacity 8
  putUInt 8 v

def writeU256 (v : Bytes) : GrowingWriter Unit :=
  if v.length ≠ 32 then failure
  else do
    ensureCapacity 32
    put v

def writeF32 (v : F32) : GrowingWriter Unit := do
  ensureCapacity 4
  put v.bytes

def writeBytes (v : Bytes) : GrowingWriter Unit := do
  ensureCapacity v.length
  put v

/-- Bytes after their length, which is bounded. -/
def writePrefixed (max : ℕ) (writeLength : ℕ → GrowingWriter Unit) (v : Bytes) :
    GrowingWriter Unit :=
  if v.length > max then failure
  else do
    writeLength v.length
    writeBytes v

def writeStr0_255 (v : String) : GrowingWriter Unit := writePrefixed 255 writeU8 (utf8Bytes v)

def writeB0_32 : Bytes → GrowingWriter Unit := writePrefixed 32 writeU8

def writeB0_255 : Bytes → GrowingWriter Unit := writePrefixed 255 writeU8

def writeB0_64K : Bytes → GrowingWriter Unit := writePrefixed 65535 writeU16

def writeB0_16M : Bytes → GrowingWriter Unit := writePrefixed 16777215 writeU24

/-- Items after their number, which is bounded. -/
def writeSeq {α : Type} (max : ℕ) (writeCount : ℕ → GrowingWriter Unit) (items : List α)
    (writeFn : α → GrowingWriter Unit) : GrowingWriter Unit :=
  if items.length > max then failure
  else do
    writeCount items.length
    items.forM writeFn

def writeSeq0_255 {α : Type} : List α → (α → GrowingWriter Unit) → GrowingWriter Unit :=
  writeSeq 255 writeU8

def writeSeq0_64K {α : Type} : List α → (α → GrowingWriter Unit) → GrowingWriter Unit :=
  writeSeq 65535 writeU16

/-- `toBuffer()` of a new writer after these writes. -/
def written (memory : Memory) (initialSize : ℕ) (write : GrowingWriter Unit) : Option Bytes :=
  (write.run (GrowingBuffer.new memory initialSize)).map fun result => result.2.toBuffer

end GrowingWriter

/-! ### Reader -/

namespace OffsetBuffer

/-- `new BufferReader(buf)`. -/
def new (buf : Bytes) : OffsetBuffer where
  buf := buf
  offset := 0

/-- `reader.remaining`. -/
def remaining (r : OffsetBuffer) : ℤ := r.buf.length - r.offset

end OffsetBuffer

namespace OffsetReader

def ensure (n : ℕ) : OffsetReader Unit := fun r =>
  if r.offset + n > r.buf.length then none else some ((), r)

/-- The `n` bytes at the offset, which moves behind them. -/
def bytesAt (n : ℕ) : OffsetReader Bytes := fun r =>
  some ((r.buf.drop r.offset).take n, { r with offset := r.offset + n })

/-- `ensure(n)`, and a number of `n` bytes. -/
def readUInt (n : ℕ) : OffsetReader ℕ := do
  ensure n
  return leValue (← bytesAt n)

def readBool : OffsetReader Bool := do return (← readUInt 1) ≠ 0

def readU8 : OffsetReader ℕ := readUInt 1

def readU16 : OffsetReader ℕ := readUInt 2

/-- Three bytes, put together by shifts. -/
def readU24 : OffsetReader ℕ := do
  ensure 3
  let first ← bytesAt 1
  let second ← bytesAt 1
  let third ← bytesAt 1
  return leValue first ||| leValue second <<< 8 ||| leValue third <<< 16

def readU32 : OffsetReader ℕ := readUInt 4

def readOptionU32 : OffsetReader (Option ℕ) := do
  let flag ← readUInt 1
  if flag = 0 then return none
  else return some (← readUInt 4)

def readU64 : OffsetReader ℕ := readUInt 8

def readBytes (n : ℕ) : OffsetReader Bytes := do
  ensure n
  bytesAt n

def readU256 : OffsetReader Bytes := readBytes 32

def readF32 : OffsetReader F32 := fun r =>
  if h : r.offset + 4 ≤ r.buf.length then
    some (⟨(r.buf.drop r.offset).take 4, by rw [List.length_take, List.length_drop]; omega⟩,
      { r with offset := r.offset + 4 })
  else none

def readStr0_255 : OffsetReader String := do
  let len ← readU8
  return utf8String (← readBytes len)

def readB0_32 : OffsetReader Bytes := do
  let len ← readU8
  if len > 32 then failure
  readBytes len

def readB0_255 : OffsetReader Bytes := do
  let len ← readU8
  readBytes len

def readB0_64K : OffsetReader Bytes := do
  let len ← readU16
  readBytes len

def readB0_16M : OffsetReader Bytes := do
  let len ← readU24
  readBytes len

/-- `for (let i = 0; i < count; i++) result.push(readFn(this))`. -/
def readItems {α : Type} (readFn : OffsetReader α) : ℕ → OffsetReader (List α)
  | 0 => return []
  | count + 1 => do
    let item ← readFn
    let items ← readItems readFn count
    return item :: items

def readSeq0_255 {α : Type} (readFn : OffsetReader α) : OffsetReader (List α) := do
  let count ← readU8
  readItems readFn count

def readSeq0_64K {α : Type} (readFn : OffsetReader α) : OffsetReader (List α) := do
  let count ← readU16
  readItems readFn count

end OffsetReader

end PublicPool.Sv2
