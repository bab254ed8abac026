import PublicPool.Bitcoin

/-!
# `PublicPool.Sv2.SipHash`: SipHash-2-4 on halves of words

`models/sv2/sv2-siphash.ts`. A 64-bit word is a pair of numbers, the high half first, and the
operators of JavaScript work on 32 bits, with a sign except for `>>>`.

Numbers are integers. An error is its text.
-/

set_option autoImplicit false

namespace PublicPool

/-! ### Operators -/

namespace Js

/-- `a << n`. -/
def shiftLeft (a : ℤ) (n : ℕ) : ℤ := (BitVec.ofInt 32 a <<< (n % 32)).toInt

/-- `a >>> n`. -/
def unsignedShiftRight (a : ℤ) (n : ℕ) : ℤ := (BitVec.ofInt 32 a >>> (n % 32)).toNat

/-- `a & b`. -/
def bitAnd (a b : ℤ) : ℤ := (BitVec.ofInt 32 a &&& BitVec.ofInt 32 b).toInt

/-- `a | b`. -/
def bitOr (a b : ℤ) : ℤ := (BitVec.ofInt 32 a ||| BitVec.ofInt 32 b).toInt

end Js

namespace Sv2

open Js

/-! ### Halves -/

/-- `[hi, lo]`. -/
abbrev Halves := ℤ × ℤ

def add64 (a b : Halves) : Halves :=
  let lo := unsignedShiftRight (a.2 + b.2) 0
  let hi := unsignedShiftRight (a.1 + b.1) 0 + if lo < a.2 then 1 else 0
  (unsignedShiftRight hi 0, lo)

def rotl64 (v : Halves) (n : ℕ) : Halves :=
  if n = 0 then v
  else if n = 32 then (v.2, v.1)
  else if n < 32 then
    (unsignedShiftRight (bitOr (shiftLeft v.1 n) (unsignedShiftRight v.2 (32 - n))) 0,
      unsignedShiftRight (bitOr (shiftLeft v.2 n) (unsignedShiftRight v.1 (32 - n))) 0)
  else
    let s := n - 32
    (unsignedShiftRight (bitOr (shiftLeft v.2 s) (unsignedShiftRight v.1 (32 - s))) 0,
      unsignedShiftRight (bitOr (shiftLeft v.1 s) (unsignedShiftRight v.2 (32 - s))) 0)

def xor64 (a b : Halves) : Halves :=
  (unsignedShiftRight (bitXor (some a.1) (some b.1)) 0,
    unsignedShiftRight (bitXor (some a.2) (some b.2)) 0)

/-- `v0` to `v3`. -/
structure SipState where
  v0 : Halves
  v1 : Halves
  v2 : Halves
  v3 : Halves
  deriving DecidableEq

def sipRound (s : SipState) : SipState :=
  let v0 := add64 s.v0 s.v1
  let v1 := rotl64 s.v1 13
  let v1 := xor64 v1 v0
  let v0 := rotl64 v0 32
  let v2 := add64 s.v2 s.v3
  let v3 := rotl64 s.v3 16
  let v3 := xor64 v3 v2
  let v2 := add64 v2 v1
  let v1 := rotl64 v1 17
  let v1 := xor64 v1 v2
  let v2 := rotl64 v2 32
  let v0 := add64 v0 v3
  let v3 := rotl64 v3 21
  let v3 := xor64 v3 v0
  { v0, v1, v2, v3 }

/-! ### The hash -/

/-- `buf.readUInt32LE(offset)`. -/
def readUInt32LEAt (buf : Bytes) (offset : ℕ) : Except String ℤ :=
  match readUInt32LE (buf.drop offset) with
  | some value => .ok value
  | none => .error "ERR_OUT_OF_RANGE"

def readU64LE (buf : Bytes) (offset : ℕ) : Except String Halves := do
  let lo ← readUInt32LEAt buf offset
  let hi ← readUInt32LEAt buf (offset + 4)
  return (hi, lo)

/-- The state that the key makes of the constants. -/
def sipInit (k0 k1 : Halves) : SipState where
  v0 := xor64 k0 (0x736f6d65, 0x70736575)
  v1 := xor64 k1 (0x646f7261, 0x6e646f6d)
  v2 := xor64 k0 (0x6c796765, 0x6e657261)
  v3 := xor64 k1 (0x74656462, 0x79746573)

/-- Two rounds for one word. -/
def sipCompress (s : SipState) (m : Halves) : SipState :=
  let s := { s with v3 := xor64 s.v3 m }
  let s := sipRound s
  let s := sipRound s
  { s with v0 := xor64 s.v0 m }

/-- `data[i]`, as a number. -/
def byteAt (data : Bytes) (i : ℕ) : ℤ := (data[i]?.getD 0).toNat

/-- The last word: the bytes that remain, and the length in the high byte. -/
def sipLast (data : Bytes) : Halves :=
  let blocks := data.length / 8
  let remaining := data.length - blocks * 8
  let offset := blocks * 8
  let hi := unsignedShiftRight (shiftLeft (bitAnd data.length 0xff) 24) 0
  let hi := if remaining ≥ 7 then
      bitOr hi (unsignedShiftRight (shiftLeft (byteAt data (offset + 6)) 16) 0) else hi
  let hi := if remaining ≥ 6 then
      bitOr hi (unsignedShiftRight (shiftLeft (byteAt data (offset + 5)) 8) 0) else hi
  let hi := if remaining ≥ 5 then bitOr hi (byteAt data (offset + 4)) else hi
  let lo := 0
  let lo := if remaining ≥ 4 then
      unsignedShiftRight
        (bitOr lo (unsignedShiftRight (shiftLeft (byteAt data (offset + 3)) 24) 0)) 0 else lo
  let lo := if remaining ≥ 3 then
      unsignedShiftRight
        (bitOr lo (unsignedShiftRight (shiftLeft (byteAt data (offset + 2)) 16) 0)) 0 else lo
  let lo := if remaining ≥ 2 then
      unsignedShiftRight
        (bitOr lo (unsignedShiftRight (shiftLeft (byteAt data (offset + 1)) 8) 0)) 0 else lo
  let lo := if remaining ≥ 1 then
      unsignedShiftRight (bitOr lo (byteAt data offset)) 0 else lo
  (hi, lo)

/-- Four rounds, and the four words in one. -/
def sipFinish (s : SipState) : Halves :=
  let s := { s with v2 := xor64 s.v2 (0, 0xff) }
  let s := sipRound (sipRound (sipRound (sipRound s)))
  xor64 (xor64 s.v0 s.v1) (xor64 s.v2 s.v3)

/-- `out.writeUInt32LE(value, offset)`. -/
def writeUInt32LEOut (value : ℤ) : Except String Bytes :=
  match Js.writeUInt32LE (some value) with
  | some bytes => .ok bytes
  | none => .error "ERR_OUT_OF_RANGE"

def sipHash24 (key data : Bytes) : Except String Bytes := do
  if key.length ≠ 16 then throw "SipHash key must be 16 bytes"
  let k0 ← readU64LE key 0
  let k1 ← readU64LE key 8
  let s ← (List.range (data.length / 8)).foldlM
    (fun s i => do return sipCompress s (← readU64LE data (i * 8))) (sipInit k0 k1)
  let result := sipFinish (sipCompress s (sipLast data))
  let lo ← writeUInt32LEOut result.2
  let hi ← writeUInt32LEOut result.1
  return lo ++ hi

/-- `shortTxId(key, txHash)`. -/
def shortTxId (key txHash : Bytes) : Except String Bytes := do
  return (← sipHash24 key txHash).take 6

end Sv2

end PublicPool
