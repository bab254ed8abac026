import PublicPool.Bitcoin
import PublicPool.Lib.Utf8
import PublicPool.Lib.Wire

/-!
# `PublicPool.Sv2.BinaryCodec`: the fields of Stratum V2 messages

`models/sv2/sv2-binary-codec.ts`. A `BufferWriter` appends to the bytes written so far and a
`BufferReader` takes bytes off the front of what is left; the growth of the writer's buffer
and the reader's offset are not seen from outside. `none` is a `RangeError`.

Numbers are natural numbers, as wide as they come: the writer cuts `U8`, `U24` and `U32` off
and throws on a `U16` or a `U64` that is too large. `IsU8` to `IsSeq0_64K` are the ranges of
the wire types. A float is its four bytes.
-/

set_option autoImplicit false

namespace PublicPool.Sv2

open Lib Lib.Wire

abbrev BufferWriter := WireWriter UInt8

abbrev BufferReader := WireReader UInt8

/-- A 32-bit float, as its bytes. -/
structure F32 where
  bytes : Bytes
  length_eq : bytes.length = 4
  deriving DecidableEq

/-- `Buffer.from(s, 'utf8')`. -/
def utf8Bytes (s : String) : Bytes := Utf8.encode s.toList

/-- `buf.toString('utf8')`. -/
def utf8String (b : Bytes) : String := String.ofList (Utf8.decode b)

/-! ### Ranges -/

def IsU8 (v : ℕ) : Prop := v < 2 ^ 8

def IsU16 (v : ℕ) : Prop := v < 2 ^ 16

def IsU32 (v : ℕ) : Prop := v < 2 ^ 32

def IsU64 (v : ℕ) : Prop := v < 2 ^ 64

def IsOptionU32 (v : Option ℕ) : Prop := ∀ n ∈ v, IsU32 n

def IsU256 (v : Bytes) : Prop := v.length = 32

def IsStr0_255 (v : String) : Prop := (utf8Bytes v).length ≤ 255

def IsB0_32 (v : Bytes) : Prop := v.length ≤ 32

def IsB0_255 (v : Bytes) : Prop := v.length ≤ 255

def IsB0_64K (v : Bytes) : Prop := v.length ≤ 65535

def IsB0_16M (v : Bytes) : Prop := v.length ≤ 16777215

def IsSeq0_255 {α : Type} (item : α → Prop) (items : List α) : Prop :=
  items.length ≤ 255 ∧ ∀ x ∈ items, item x

def IsSeq0_64K {α : Type} (item : α → Prop) (items : List α) : Prop :=
  items.length ≤ 65535 ∧ ∀ x ∈ items, item x

/-! ### Writer -/

namespace BufferWriter

def writeBool (v : Bool) : BufferWriter Unit := append [if v then 1 else 0]

/-- `v & 0xff`. -/
def writeU8 (v : ℕ) : BufferWriter Unit := append (putLE 1 v)

def writeU16 (v : ℕ) : BufferWriter Unit := if v ≤ 0xffff then append (putLE 2 v) else failure

def writeU24 (v : ℕ) : BufferWriter Unit := append (putLE 3 v)

/-- `v >>> 0`. -/
def writeU32 (v : ℕ) : BufferWriter Unit := append (putLE 4 v)

def writeOptionU32 : Option ℕ → BufferWriter Unit
  | none => writeU8 0
  | some v => do
    writeU8 1
    writeU32 v

def writeU64 (v : ℕ) : BufferWriter Unit :=
  if v ≤ 0xffffffffffffffff then append (putLE 8 v) else failure

def writeU256 (v : Bytes) : BufferWriter Unit := if v.length ≠ 32 then failure else append v

def writeF32 (v : F32) : BufferWriter Unit := append v.bytes

def writeBytes (v : Bytes) : BufferWriter Unit := append v

/-- Bytes after their length, which is bounded. -/
def writePrefixed (max : ℕ) (writeLength : ℕ → BufferWriter Unit) (v : Bytes) :
    BufferWriter Unit :=
  if v.length > max then failure
  else do
    writeLength v.length
    writeBytes v

def writeStr0_255 (v : String) : BufferWriter Unit := writePrefixed 255 writeU8 (utf8Bytes v)

def writeB0_32 : Bytes → BufferWriter Unit := writePrefixed 32 writeU8

def writeB0_255 : Bytes → BufferWriter Unit := writePrefixed 255 writeU8

def writeB0_64K : Bytes → BufferWriter Unit := writePrefixed 65535 writeU16

def writeB0_16M : Bytes → BufferWriter Unit := writePrefixed 16777215 writeU24

/-- Items after their number, which is bounded. -/
def writeSeq {α : Type} (max : ℕ) (writeCount : ℕ → BufferWriter Unit) (items : List α)
    (writeFn : α → BufferWriter Unit) : BufferWriter Unit :=
  if items.length > max then failure
  else do
    writeCount items.length
    items.forM writeFn

def writeSeq0_255 {α : Type} : List α → (α → BufferWriter Unit) → BufferWriter Unit :=
  writeSeq 255 writeU8

def writeSeq0_64K {α : Type} : List α → (α → BufferWriter Unit) → BufferWriter Unit :=
  writeSeq 65535 writeU16

/-- `w.toBuffer()` after these writes to a new writer. -/
def toBuffer (write : BufferWriter Unit) : Option Bytes := output write

end BufferWriter

/-! ### Reader -/

namespace BufferReader

/-- A number of `n` bytes, the least significant one first. -/
def readLE (n : ℕ) : BufferReader ℕ := do return leValue (← take n)

def readBool : BufferReader Bool := do return (← readLE 1) ≠ 0

def readU8 : BufferReader ℕ := readLE 1

def readU16 : BufferReader ℕ := readLE 2

def readU24 : BufferReader ℕ := readLE 3

def readU32 : BufferReader ℕ := readLE 4

def readOptionU32 : BufferReader (Option ℕ) := do
  let flag ← readU8
  if flag = 0 then return none
  else return some (← readU32)

def readU64 : BufferReader ℕ := readLE 8

def readBytes (n : ℕ) : BufferReader Bytes := take n

def readU256 : BufferReader Bytes := readBytes 32

def readF32 : BufferReader F32 := fun buf =>
  if h : 4 ≤ buf.length then some (⟨buf.take 4, by simpa using h⟩, buf.drop 4) else none

/-- Bytes after their length. -/
def readPrefixed (readLength : BufferReader ℕ) : BufferReader Bytes := do
  readBytes (← readLength)

def readStr0_255 : BufferReader String := do return utf8String (← readPrefixed readU8)

def readB0_32 : BufferReader Bytes := do
  let len ← readU8
  if len > 32 then failure
  readBytes len

def readB0_255 : BufferReader Bytes := readPrefixed readU8

def readB0_64K : BufferReader Bytes := readPrefixed readU16

def readB0_16M : BufferReader Bytes := readPrefixed readU24

/-- Items after their number. -/
def readSeq {α : Type} (readCount : BufferReader ℕ) (readFn : BufferReader α) :
    BufferReader (List α) := do
  times (← readCount) readFn

def readSeq0_255 {α : Type} : BufferReader α → BufferReader (List α) := readSeq readU8

def readSeq0_64K {α : Type} : BufferReader α → BufferReader (List α) := readSeq readU16

end BufferReader

/-! ### Messages -/

/-- A message type that the pool both writes and reads. -/
structure MessageCodec where
  Message : Type
  /-- The fields are in the ranges of their wire types. -/
  InRange : Message → Prop
  serialize : Message → Option Bytes
  deserialize : BufferReader Message

end PublicPool.Sv2
