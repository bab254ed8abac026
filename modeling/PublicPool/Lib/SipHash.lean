import Mathlib.Data.BitVec
import Mathlib.Logic.Function.Iterate
import Mathlib.Tactic.NormNum
import Mathlib.Tactic.Ring

/-!
# `PublicPool.Lib.SipHash`: the SipHash family over 64-bit words

`hash c d` is SipHash-c-d: `c` rounds for each word of the message and `d` rounds at the end, on
a state of four 64-bit words. A message is filled up with zeros and a last byte, its length modulo
256, to whole words, the least significant byte of a word first.

`words_pad` gives the words of a message: those of its whole blocks, and one more.
-/

set_option autoImplicit false

namespace PublicPool.Lib.SipHash

abbrev Word := BitVec 64

structure State where
  v0 : Word
  v1 : Word
  v2 : Word
  v3 : Word
  deriving DecidableEq

/-- The state that a key makes of the initial constants. -/
def init (k0 k1 : Word) : State where
  v0 := k0 ^^^ 0x736f6d6570736575
  v1 := k1 ^^^ 0x646f72616e646f6d
  v2 := k0 ^^^ 0x6c7967656e657261
  v3 := k1 ^^^ 0x7465646279746573

def round (s : State) : State :=
  let v0 := s.v0 + s.v1
  let v2 := s.v2 + s.v3
  let v1 := s.v1.rotateLeft 13 ^^^ v0
  let v3 := s.v3.rotateLeft 16 ^^^ v2
  let v0 := v0.rotateLeft 32
  let v2 := v2 + v1
  let v0 := v0 + v3
  let v1 := v1.rotateLeft 17 ^^^ v2
  let v3 := v3.rotateLeft 21 ^^^ v0
  let v2 := v2.rotateLeft 32
  { v0, v1, v2, v3 }

/-- Take one word of the message in. -/
def compress (c : ℕ) (s : State) (m : Word) : State :=
  let s := round^[c] { s with v3 := s.v3 ^^^ m }
  { s with v0 := s.v0 ^^^ m }

def finish (d : ℕ) (s : State) : Word :=
  let s := round^[d] { s with v2 := s.v2 ^^^ 0xff }
  s.v0 ^^^ s.v1 ^^^ s.v2 ^^^ s.v3

/-- The number that bytes encode, the least significant one first. -/
def leNat (bytes : List UInt8) : ℕ := bytes.foldr (fun x n => x.toNat + 256 * n) 0

def leWord (bytes : List UInt8) : Word := BitVec.ofNat 64 (leNat bytes)

/-- The message with zeros and its length, in whole words. -/
def pad (msg : List UInt8) : List UInt8 :=
  msg ++ List.replicate (7 - msg.length % 8) 0 ++ [UInt8.ofNat msg.length]

/-- The eight bytes of a block. -/
def block (bytes : List UInt8) (i : ℕ) : List UInt8 := (bytes.drop (8 * i)).take 8

def words (bytes : List UInt8) : List Word :=
  (List.range (bytes.length / 8)).map fun i => leWord (block bytes i)

/-- SipHash-c-d of a message, with the two words of a key. -/
def hash (c d : ℕ) (k0 k1 : Word) (msg : List UInt8) : Word :=
  finish d ((words (pad msg)).foldl (compress c) (init k0 k1))

example : hash 2 4 0x0706050403020100 0x0f0e0d0c0b0a0908 ((List.range 15).map UInt8.ofNat) =
    0xa129ca6149be45e5 := by decide +kernel

/-! ### The words of a message -/

theorem leNat_append (a b : List UInt8) : leNat (a ++ b) = leNat a + 256 ^ a.length * leNat b := by
  induction a with
  | nil => simp [leNat]
  | cons x a ih =>
    show x.toNat + 256 * leNat (a ++ b) = x.toNat + 256 * leNat a + _
    rw [ih, List.length_cons, pow_succ']
    ring

@[simp] theorem leNat_replicate_zero (n : ℕ) : leNat (List.replicate n 0) = 0 := by
  induction n with
  | zero => rfl
  | succ n ih =>
    show 0 + 256 * leNat (List.replicate n 0) = 0
    rw [ih]

theorem leNat_lt (bytes : List UInt8) : leNat bytes < 256 ^ bytes.length := by
  induction bytes with
  | nil => exact Nat.one_pos
  | cons x bytes ih =>
    have hx := x.toNat_lt
    show x.toNat + 256 * leNat bytes < 256 ^ (bytes.length + 1)
    rw [pow_succ']
    omega

/-- The bytes behind the whole blocks. -/
def tail (msg : List UInt8) : List UInt8 := msg.drop (8 * (msg.length / 8))

theorem length_tail (msg : List UInt8) : (tail msg).length = msg.length % 8 := by
  rw [tail, List.length_drop]
  omega

theorem length_pad (msg : List UInt8) : (pad msg).length = 8 * (msg.length / 8 + 1) := by
  simp only [pad, List.length_append, List.length_replicate, List.length_singleton]
  omega

/-- The word that the padding ends: the tail, zeros, and the length in the highest byte. -/
def lastWord (msg : List UInt8) : Word :=
  BitVec.ofNat 64 (leNat (tail msg) + 2 ^ 56 * (msg.length % 256))

/-- The words of the whole blocks, and the last one. -/
theorem words_pad (msg : List UInt8) :
    words (pad msg) =
      (List.range (msg.length / 8)).map (fun i => leWord (block msg i)) ++ [lastWord msg] := by
  have hcount : (pad msg).length / 8 = msg.length / 8 + 1 := by
    rw [length_pad]
    omega
  rw [words, hcount, List.range_succ, List.map_append, List.map_singleton]
  congr 1
  · refine List.map_congr_left fun i hi => ?_
    have hi := List.mem_range.mp hi
    -- The padding starts behind a whole block.
    have hblock : block (pad msg) i = block msg i := by
      have hle : 8 * i ≤ msg.length := by omega
      have hfit : 8 ≤ (msg.drop (8 * i)).length := by
        rw [List.length_drop]
        omega
      rw [block, block, pad, List.append_assoc, List.drop_append_of_le_length hle,
        List.take_append_of_le_length hfit]
    rw [hblock]
  · have hle : 8 * (msg.length / 8) ≤ msg.length := by omega
    have hlast : block (pad msg) (msg.length / 8) =
        tail msg ++ List.replicate (7 - msg.length % 8) 0 ++ [UInt8.ofNat msg.length] := by
      have hlength : (tail msg ++
          (List.replicate (7 - msg.length % 8) 0 ++ [UInt8.ofNat msg.length])).length = 8 := by
        simp only [List.length_append, length_tail, List.length_replicate, List.length_singleton]
        omega
      rw [block, pad, List.append_assoc, List.drop_append_of_le_length hle, List.append_assoc]
      exact List.take_of_length_le hlength.le
    have hexponent : msg.length % 8 + (7 - msg.length % 8) = 7 := by omega
    have hvalue : leNat [UInt8.ofNat msg.length] = msg.length % 256 := by
      show (UInt8.ofNat msg.length).toNat + 256 * 0 = _
      rw [UInt8.toNat_ofNat', Nat.mul_zero, Nat.add_zero]
    rw [hlast, leWord, leNat_append, leNat_append, leNat_replicate_zero, hvalue,
      List.length_append, length_tail, List.length_replicate, hexponent, Nat.mul_zero,
      Nat.add_zero, lastWord]
    norm_num

end PublicPool.Lib.SipHash
