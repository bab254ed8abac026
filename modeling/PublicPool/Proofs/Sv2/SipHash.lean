import PublicPool.Lib.SipHash
import PublicPool.Sv2.SipHash

/-!
# `PublicPool.Proofs.Sv2.SipHash`: halves of words compute SipHash-2-4

`word` puts two halves together, whatever their signs, so that the operators of JavaScript are
operators on bits. Exclusive or and rotation agree with those of words on all halves. Addition
takes its carry from a comparison, and agrees on halves without a sign, which every operation of a
round returns (`sipRound_word`).

`sipHash24_eq`: the hash is SipHash-2-4 of the message under the two words of the key, least
significant byte first.
-/

set_option autoImplicit false

namespace PublicPool.Sv2

open Lib Js

/-! ### Operators on bits -/

theorem ofInt_shiftLeft (a : ℤ) (n : ℕ) :
    BitVec.ofInt 32 (shiftLeft a n) = BitVec.ofInt 32 a <<< (n % 32) := BitVec.ofInt_toInt

theorem ofInt_unsignedShiftRight (a : ℤ) (n : ℕ) :
    BitVec.ofInt 32 (unsignedShiftRight a n) = BitVec.ofInt 32 a >>> (n % 32) := by
  rw [unsignedShiftRight, BitVec.ofInt_natCast, BitVec.ofNat_toNat, BitVec.setWidth_eq]

theorem ofInt_unsigned (a : ℤ) : BitVec.ofInt 32 (unsignedShiftRight a 0) = BitVec.ofInt 32 a := by
  rw [ofInt_unsignedShiftRight, Nat.zero_mod, BitVec.ushiftRight_zero]

theorem ofInt_bitAnd (a b : ℤ) :
    BitVec.ofInt 32 (bitAnd a b) = BitVec.ofInt 32 a &&& BitVec.ofInt 32 b := BitVec.ofInt_toInt

theorem ofInt_bitOr (a b : ℤ) :
    BitVec.ofInt 32 (bitOr a b) = BitVec.ofInt 32 a ||| BitVec.ofInt 32 b := BitVec.ofInt_toInt

theorem ofInt_bitXor (a b : ℤ) :
    BitVec.ofInt 32 (bitXor (some a) (some b)) = BitVec.ofInt 32 a ^^^ BitVec.ofInt 32 b := by
  have hbmod : ∀ n : ℤ, BitVec.ofInt 32 (toInt32 (some n)) = BitVec.ofInt 32 n := by
    intro n
    apply BitVec.eq_of_toInt_eq
    rw [BitVec.toInt_ofInt, BitVec.toInt_ofInt]
    exact Int.bmod_bmod
  rw [bitXor, BitVec.ofInt_toInt, hbmod, hbmod]

/-! ### Words -/

/-- The word that two halves make, the sign of a half being its highest bit. -/
def word (v : Halves) : SipHash.Word := BitVec.ofInt 32 v.1 ++ BitVec.ofInt 32 v.2

/-- Both halves are numbers of 32 bits without a sign. -/
structure IsUnsigned (v : Halves) : Prop where
  hi_nonneg : 0 ≤ v.1
  hi_lt : v.1 < 2 ^ 32
  lo_nonneg : 0 ≤ v.2
  lo_lt : v.2 < 2 ^ 32

theorem unsignedShiftRight_bounds (a : ℤ) (n : ℕ) :
    0 ≤ unsignedShiftRight a n ∧ unsignedShiftRight a n < 2 ^ 32 := by
  have hlt := (BitVec.ofInt 32 a >>> (n % 32)).isLt
  rw [unsignedShiftRight]
  omega

/-- `>>>` leaves no sign. -/
theorem isUnsigned_shifted (a b : ℤ) (m n : ℕ) :
    IsUnsigned (unsignedShiftRight a m, unsignedShiftRight b n) :=
  ⟨(unsignedShiftRight_bounds a m).1, (unsignedShiftRight_bounds a m).2,
    (unsignedShiftRight_bounds b n).1, (unsignedShiftRight_bounds b n).2⟩

theorem word_natCast (hi lo : ℕ) (hlo : lo < 2 ^ 32) :
    word ((hi : ℤ), (lo : ℤ)) = BitVec.ofNat 64 (hi * 2 ^ 32 + lo) := by
  apply BitVec.eq_of_toNat_eq
  rw [word, BitVec.ofInt_natCast, BitVec.ofInt_natCast, BitVec.toNat_append, BitVec.toNat_ofNat,
    BitVec.toNat_ofNat, BitVec.toNat_ofNat, Nat.mod_eq_of_lt hlo,
    ← Nat.shiftLeft_add_eq_or_of_lt hlo, Nat.shiftLeft_eq]
  omega

theorem unsignedShiftRight_natCast (n : ℕ) : unsignedShiftRight n 0 = (n % 2 ^ 32 : ℕ) := by
  rw [unsignedShiftRight, Nat.zero_mod, BitVec.ushiftRight_zero, BitVec.ofInt_natCast,
    BitVec.toNat_ofNat]

/-- Addition with the carry of the low halves. -/
theorem word_add64 {a b : Halves} (ha : IsUnsigned a) (hb : IsUnsigned b) :
    word (add64 a b) = word a + word b := by
  obtain ⟨a1, a0⟩ := a
  obtain ⟨b1, b0⟩ := b
  obtain ⟨ha1, -, ha0, halt⟩ := ha
  obtain ⟨hb1, -, hb0, hblt⟩ := hb
  lift a1 to ℕ using ha1
  lift a0 to ℕ using ha0
  lift b1 to ℕ using hb1
  lift b0 to ℕ using hb0
  replace halt : (a0 : ℤ) < 2 ^ 32 := halt
  replace hblt : (b0 : ℤ) < 2 ^ 32 := hblt
  have halt : a0 < 2 ^ 32 := by omega
  have hblt : b0 < 2 ^ 32 := by omega
  -- The low half is smaller than a summand exactly when the sum does not fit.
  have hsum : add64 ((a1 : ℤ), (a0 : ℤ)) ((b1 : ℤ), (b0 : ℤ)) =
      (((((a1 + b1) % 2 ^ 32 + if (a0 + b0) % 2 ^ 32 < a0 then 1 else 0) % 2 ^ 32 : ℕ) : ℤ),
        (((a0 + b0) % 2 ^ 32 : ℕ) : ℤ)) := by
    have hcarry : (if (((a0 + b0) % 2 ^ 32 : ℕ) : ℤ) < a0 then (1 : ℤ) else 0) =
        ((if (a0 + b0) % 2 ^ 32 < a0 then 1 else 0 : ℕ) : ℤ) := by
      split <;> split <;> first | rfl | omega
    simp only [add64]
    rw [← Nat.cast_add, ← Nat.cast_add, unsignedShiftRight_natCast, unsignedShiftRight_natCast,
      hcarry, ← Nat.cast_add, unsignedShiftRight_natCast]
  rw [hsum, word_natCast _ _ (Nat.mod_lt _ (by norm_num)), word_natCast _ _ halt,
    word_natCast _ _ hblt, ← BitVec.ofNat_add]
  apply BitVec.eq_of_toNat_eq
  rw [BitVec.toNat_ofNat, BitVec.toNat_ofNat]
  split <;> omega

theorem word_xor64 (a b : Halves) : word (xor64 a b) = word a ^^^ word b := by
  simp only [word, xor64]
  rw [ofInt_unsigned, ofInt_unsigned, ofInt_bitXor, ofInt_bitXor, BitVec.xor_append]

section
variable {hi lo : BitVec 32} {n x : ℕ} {v : Halves} {s : SipState} {data : Bytes}

/-- By less than a half, the bits that leave one half come in at the bottom of the other. -/
theorem rotateLeft_append (h : n < 32) :
    (hi <<< n ||| lo >>> (32 - n)) ++ (lo <<< n ||| hi >>> (32 - n)) =
      (hi ++ lo).rotateLeft n := by
  ext i hlt
  have hmod : n % (32 + 32) = n := Nat.mod_eq_of_lt (by omega)
  simp only [BitVec.getElem_rotateLeft, BitVec.getElem_append, BitVec.getElem_or,
    BitVec.getElem_shiftLeft, BitVec.getElem_ushiftRight, hmod]
  grind

/-- By half a word, the halves change places. -/
theorem rotateLeft_append_swap (h : n < 32) :
    (hi ++ lo).rotateLeft (n + 32) = (lo ++ hi).rotateLeft n := by
  ext i hlt
  have hmod : n % (32 + 32) = n := Nat.mod_eq_of_lt (by omega)
  have hmod' : (n + 32) % (32 + 32) = n + 32 := Nat.mod_eq_of_lt (by omega)
  simp only [BitVec.getElem_rotateLeft, BitVec.getElem_append, hmod, hmod']
  grind

/-- The two halves of a rotation by less than a half. -/
theorem word_shifted (hi lo : ℤ) (hpos : 0 < n) (h : n < 32) :
    word (unsignedShiftRight (bitOr (shiftLeft hi n) (unsignedShiftRight lo (32 - n))) 0,
      unsignedShiftRight (bitOr (shiftLeft lo n) (unsignedShiftRight hi (32 - n))) 0) =
      (word (hi, lo)).rotateLeft n := by
  have hmod : n % 32 = n := Nat.mod_eq_of_lt h
  have hmod' : (32 - n) % 32 = 32 - n := Nat.mod_eq_of_lt (by omega)
  simp only [word, ofInt_bitOr, ofInt_shiftLeft, ofInt_unsignedShiftRight, hmod, hmod']
  exact rotateLeft_append h

theorem word_rotl64 (v : Halves) (h : n < 64) : word (rotl64 v n) = (word v).rotateLeft n := by
  have hzero : ∀ x : SipHash.Word, x.rotateLeft 0 = x := fun x => by
    ext i hlt
    simp
  unfold rotl64
  split
  · rename_i hn
    rw [hn, hzero]
  · rename_i hn
    split
    · rename_i hhalf
      rw [hhalf]
      exact ((rotateLeft_append_swap (n := 0) (by norm_num)).trans (hzero _)).symm
    · rename_i hhalf
      split
      · rename_i hless
        exact word_shifted v.1 v.2 (by omega) hless
      · rename_i hmore
        have hback : n - 32 + 32 = n := by omega
        have hswap : (word v).rotateLeft (n - 32 + 32) = (word (v.2, v.1)).rotateLeft (n - 32) :=
          rotateLeft_append_swap (by omega)
        rw [hback] at hswap
        exact (word_shifted v.2 v.1 (by omega) (by omega)).trans hswap.symm

/-! ### Rounds -/

/-- The state that the halves stand for. -/
def wordState (s : SipState) : SipHash.State where
  v0 := word s.v0
  v1 := word s.v1
  v2 := word s.v2
  v3 := word s.v3

/-- No half in the state has a sign. -/
structure SipState.IsUnsigned (s : SipState) : Prop where
  v0 : Sv2.IsUnsigned s.v0
  v1 : Sv2.IsUnsigned s.v1
  v2 : Sv2.IsUnsigned s.v2
  v3 : Sv2.IsUnsigned s.v3

theorem isUnsigned_xor64 (a b : Halves) : IsUnsigned (xor64 a b) := isUnsigned_shifted _ _ _ _

theorem isUnsigned_add64 (a b : Halves) : IsUnsigned (add64 a b) := isUnsigned_shifted _ _ _ _

theorem IsUnsigned.rotl64 (h : IsUnsigned v) (n : ℕ) : IsUnsigned (rotl64 v n) := by
  unfold Sv2.rotl64
  split
  · exact h
  · split
    · exact ⟨h.lo_nonneg, h.lo_lt, h.hi_nonneg, h.hi_lt⟩
    · split
      · exact isUnsigned_shifted _ _ _ _
      · exact isUnsigned_shifted _ _ _ _

/-- A round on halves is a round on words. The last four steps of the source come in another
order, but each half of the state only waits for its own. -/
theorem sipRound_word (h : s.IsUnsigned) :
    wordState (sipRound s) = SipHash.round (wordState s) ∧ (sipRound s).IsUnsigned := by
  have hv0 := isUnsigned_add64 s.v0 s.v1
  have hv2 := isUnsigned_add64 s.v2 s.v3
  have hv1 := isUnsigned_xor64 (rotl64 s.v1 13) (add64 s.v0 s.v1)
  have hv3 := isUnsigned_xor64 (rotl64 s.v3 16) (add64 s.v2 s.v3)
  have hturned := hv0.rotl64 32
  refine ⟨?_, ⟨isUnsigned_add64 _ _, isUnsigned_xor64 _ _, (isUnsigned_add64 _ _).rotl64 32,
    isUnsigned_xor64 _ _⟩⟩
  simp only [wordState, sipRound, SipHash.round]
  rw [word_xor64, word_xor64, word_rotl64 _ (by norm_num), word_rotl64 _ (by norm_num),
    word_rotl64 _ (by norm_num), word_add64 hturned hv3, word_add64 hv2 hv1, word_xor64,
    word_xor64, word_rotl64 _ (by norm_num), word_rotl64 _ (by norm_num),
    word_rotl64 _ (by norm_num), word_add64 h.v0 h.v1, word_add64 h.v2 h.v3]

theorem sipInit_word (k0 k1 : Halves) :
    wordState (sipInit k0 k1) = SipHash.init (word k0) (word k1) ∧
      (sipInit k0 k1).IsUnsigned := by
  refine ⟨?_, ⟨isUnsigned_xor64 _ _, isUnsigned_xor64 _ _, isUnsigned_xor64 _ _,
    isUnsigned_xor64 _ _⟩⟩
  simp only [wordState, sipInit, SipHash.init, word_xor64]
  rfl

theorem sipRounds_word (n : ℕ) (h : s.IsUnsigned) :
    wordState (sipRound^[n] s) = SipHash.round^[n] (wordState s) ∧
      (sipRound^[n] s).IsUnsigned := by
  induction n generalizing s with
  | zero => exact ⟨rfl, h⟩
  | succ n ih =>
    obtain ⟨hround, hunsigned⟩ := sipRound_word h
    rw [Function.iterate_succ_apply, Function.iterate_succ_apply, ← hround]
    exact ih hunsigned

/-- Taking a word in, which may come with a sign. -/
theorem sipCompress_word (h : s.IsUnsigned) (m : Halves) :
    wordState (sipCompress s m) = SipHash.compress 2 (wordState s) (word m) ∧
      (sipCompress s m).IsUnsigned := by
  have hmixed : SipState.IsUnsigned { s with v3 := xor64 s.v3 m } :=
    ⟨h.v0, h.v1, h.v2, isUnsigned_xor64 _ _⟩
  have hstate : wordState { s with v3 := xor64 s.v3 m } =
      { wordState s with v3 := (wordState s).v3 ^^^ word m } := by
    simp only [wordState, word_xor64]
  obtain ⟨hrounds, hunsigned⟩ := sipRounds_word 2 hmixed
  have hend : ∀ t : SipState, wordState { t with v0 := xor64 t.v0 m } =
      { wordState t with v0 := (wordState t).v0 ^^^ word m } := by
    intro t
    simp only [wordState, word_xor64]
  refine ⟨(hend (sipRound^[2] { s with v3 := xor64 s.v3 m })).trans ?_,
    ⟨isUnsigned_xor64 _ _, hunsigned.v1, hunsigned.v2, hunsigned.v3⟩⟩
  rw [hrounds, hstate]
  rfl

theorem sipFinish_word (h : s.IsUnsigned) :
    word (sipFinish s) = SipHash.finish 4 (wordState s) ∧ IsUnsigned (sipFinish s) := by
  have hmarked : SipState.IsUnsigned { s with v2 := xor64 s.v2 (0, 0xff) } :=
    ⟨h.v0, h.v1, isUnsigned_xor64 _ _, h.v3⟩
  have hstate : wordState { s with v2 := xor64 s.v2 (0, 0xff) } =
      { wordState s with v2 := (wordState s).v2 ^^^ 0xff } := by
    simp only [wordState, word_xor64]
    rfl
  obtain ⟨hrounds, -⟩ := sipRounds_word 4 hmarked
  have hmerge : ∀ t : SipState, word (xor64 (xor64 t.v0 t.v1) (xor64 t.v2 t.v3)) =
      (wordState t).v0 ^^^ (wordState t).v1 ^^^ (wordState t).v2 ^^^ (wordState t).v3 := by
    intro t
    rw [word_xor64, word_xor64, word_xor64, ← BitVec.xor_assoc]
    rfl
  refine ⟨(hmerge (sipRound^[4] { s with v2 := xor64 s.v2 (0, 0xff) })).trans ?_,
    isUnsigned_xor64 _ _⟩
  rw [hrounds, hstate]
  rfl

/-! ### The words of a message -/

theorem leValue_eq_leNat (b : Bytes) : leValue b = SipHash.leNat b := rfl

/-- Eight bytes at an offset are read as the word that they encode. -/
theorem readU64LE_word (b : Bytes) (offset : ℕ) (h : offset + 8 ≤ b.length) :
    ∃ m, readU64LE b offset = .ok m ∧ word m = SipHash.leWord ((b.drop offset).take 8) ∧
      IsUnsigned m := by
  have hlow : 4 ≤ (b.drop offset).length := by
    rw [List.length_drop]
    omega
  have hhigh : 4 ≤ (b.drop (offset + 4)).length := by
    rw [List.length_drop]
    omega
  have hbound : ∀ {part : Bytes}, 4 ≤ part.length → leValue (part.take 4) < 2 ^ 32 := by
    intro part hpart
    have hlt := SipHash.leNat_lt (part.take 4)
    rw [List.length_take, min_eq_left hpart] at hlt
    exact lt_of_lt_of_le hlt (by norm_num)
  refine ⟨(leValue ((b.drop (offset + 4)).take 4), leValue ((b.drop offset).take 4)), ?_, ?_, ?_⟩
  · simp only [readU64LE, readUInt32LEAt, readUInt32LE, if_pos hlow, if_pos hhigh]
    rfl
  · -- The first four bytes are the low half.
    have hsplit : (b.drop offset).take 8 =
        (b.drop offset).take 4 ++ (b.drop (offset + 4)).take 4 := by
      rw [← List.drop_drop, ← List.take_add]
    have hlength : ((b.drop offset).take 4).length = 4 := by
      rw [List.length_take, min_eq_left hlow]
    rw [word_natCast _ _ (hbound hlow), SipHash.leWord, hsplit, SipHash.leNat_append, hlength,
      leValue_eq_leNat, leValue_eq_leNat, Nat.add_comm, Nat.mul_comm]
    rfl
  · have hhi := hbound hhigh
    have hlo := hbound hlow
    exact ⟨Int.natCast_nonneg _, by show (leValue _ : ℤ) < _; omega, Int.natCast_nonneg _,
      by show (leValue _ : ℤ) < _; omega⟩

/-- The loop over the whole blocks. -/
theorem foldlM_blocks (h : s.IsUnsigned) {indices : List ℕ}
    (hindices : ∀ i ∈ indices, i < data.length / 8) :
    ∃ s', indices.foldlM
        (fun s i => do return sipCompress s (← readU64LE data (i * 8))) s = .ok s' ∧
      s'.IsUnsigned ∧ wordState s' =
        (indices.map fun i => SipHash.leWord (SipHash.block data i)).foldl (SipHash.compress 2)
          (wordState s) := by
  induction indices generalizing s with
  | nil => exact ⟨s, rfl, h, rfl⟩
  | cons i indices ih =>
    obtain ⟨hi, hindices⟩ := List.forall_mem_cons.mp hindices
    obtain ⟨m, hread, hword, -⟩ := readU64LE_word data (i * 8) (by omega)
    obtain ⟨hstate, hunsigned⟩ := sipCompress_word h m
    obtain ⟨s', hrun, hunsigned', hstate'⟩ := ih hunsigned hindices
    refine ⟨s', ?_, hunsigned', ?_⟩
    · rw [List.foldlM_cons, hread]
      exact hrun
    · rw [hstate', hstate, hword, Nat.mul_comm i 8]
      rfl

/-! ### The last word -/

/-- A byte behind the whole blocks, or zero. -/
def tailByte (data : Bytes) (i : ℕ) : ℕ := ((SipHash.tail data)[i]?.getD 0).toNat

theorem tailByte_lt (data : Bytes) (i : ℕ) : tailByte data i < 256 := UInt8.toNat_lt _

theorem byteAt_tail (data : Bytes) (i : ℕ) :
    byteAt data (data.length / 8 * 8 + i) = tailByte data i := by
  rw [byteAt, tailByte, SipHash.tail, List.getElem?_drop, Nat.mul_comm 8]

theorem tailByte_of_not {i : ℕ} (h : ¬ data.length - data.length / 8 * 8 ≥ i + 1) :
    tailByte data i = 0 := by
  have hnone : (SipHash.tail data)[i]? = none := by
    rw [List.getElem?_eq_none_iff, SipHash.length_tail]
    omega
  rw [tailByte, hnone]
  rfl

theorem ofNat_shiftLeft (b n : ℕ) : BitVec.ofNat 32 b <<< n = BitVec.ofNat 32 (b * 2 ^ n) := by
  apply BitVec.eq_of_toNat_eq
  rw [BitVec.toNat_shiftLeft, BitVec.toNat_ofNat, BitVec.toNat_ofNat, Nat.shiftLeft_eq,
    Nat.mod_mul_mod]

/-- A byte moved below bits that end above it is added. -/
theorem ofNat_or_byte {b : ℕ} (hb : b < 256) (hn : n < 32) :
    BitVec.ofNat 32 (x * 2 ^ (n + 8)) ||| BitVec.ofInt 32 (b : ℤ) <<< (n % 32) =
      BitVec.ofNat 32 ((x * 256 + b) * 2 ^ n) := by
  have hbelow : b * 2 ^ n < 2 ^ (n + 8) := by
    rw [pow_add, Nat.mul_comm]
    exact Nat.mul_lt_mul_of_pos_left hb (Nat.two_pow_pos n)
  have hsum : (x * 256 + b) * 2 ^ n = x * 2 ^ (n + 8) + b * 2 ^ n := by
    rw [pow_add]
    ring
  rw [Nat.mod_eq_of_lt hn, BitVec.ofInt_natCast, ofNat_shiftLeft, ← BitVec.ofNat_or, hsum,
    ← Nat.shiftLeft_eq x, Nat.shiftLeft_add_eq_or_of_lt hbelow]

/-- One line of the source: the byte is put in if it is there. -/
theorem nextByte (data : Bytes) (i : ℕ) {half joined : ℤ} (hn : n < 32)
    (hhalf : BitVec.ofInt 32 half = BitVec.ofNat 32 (x * 2 ^ (n + 8)))
    (hjoined : BitVec.ofInt 32 joined = BitVec.ofInt 32 half |||
      BitVec.ofInt 32 (byteAt data (data.length / 8 * 8 + i)) <<< (n % 32)) :
    BitVec.ofInt 32 (if data.length - data.length / 8 * 8 ≥ i + 1 then joined else half) =
      BitVec.ofNat 32 ((x * 256 + tailByte data i) * 2 ^ n) := by
  split
  · rw [hjoined, hhalf, byteAt_tail, ofNat_or_byte (tailByte_lt data i) hn]
  · rename_i hnone
    rw [hhalf, tailByte_of_not hnone, Nat.add_zero, pow_add]
    congr 1
    ring

theorem ofInt_bitOr_shifted (half part : ℤ) (n : ℕ) :
    BitVec.ofInt 32 (bitOr half (unsignedShiftRight (shiftLeft part n) 0)) =
      BitVec.ofInt 32 half ||| BitVec.ofInt 32 part <<< (n % 32) := by
  rw [ofInt_bitOr, ofInt_unsigned, ofInt_shiftLeft]

theorem ofInt_bitOr_unshifted (half part : ℤ) :
    BitVec.ofInt 32 (bitOr half part) =
      BitVec.ofInt 32 half ||| BitVec.ofInt 32 part <<< (0 % 32) := by
  rw [ofInt_bitOr, Nat.zero_mod, BitVec.shiftLeft_zero]

/-- The length on top of the high half. -/
theorem ofInt_length (n : ℕ) :
    BitVec.ofInt 32 (unsignedShiftRight (shiftLeft (bitAnd n 0xff) 24) 0) =
      BitVec.ofNat 32 (n % 256 * 2 ^ (16 + 8)) := by
  have hand : n &&& 0xff = n % 256 := Nat.and_two_pow_sub_one_eq_mod n 8
  have hmask : BitVec.ofInt 32 (bitAnd n 0xff) = BitVec.ofNat 32 (n % 256) := by
    rw [ofInt_bitAnd, BitVec.ofInt_natCast, ← hand, BitVec.ofNat_and]
    rfl
  rw [ofInt_unsigned, ofInt_shiftLeft, hmask, ofNat_shiftLeft]

/-- The high half, which may come out with a sign. -/
theorem sipLast_hi (data : Bytes) :
    BitVec.ofInt 32 (sipLast data).1 = BitVec.ofNat 32
      (((data.length % 256 * 256 + tailByte data 6) * 256 + tailByte data 5) * 256 +
        tailByte data 4) := by
  have h6 := nextByte data 6 (by norm_num) (ofInt_length data.length) (ofInt_bitOr_shifted _ _ 16)
  have h5 := nextByte (n := 8) data 5 (by norm_num) h6 (ofInt_bitOr_shifted _ _ 8)
  have h4 := nextByte (n := 0) data 4 (by norm_num) h5 (ofInt_bitOr_unshifted _ _)
  rw [pow_zero, mul_one] at h4
  exact h4

theorem sipLast_lo (data : Bytes) :
    BitVec.ofInt 32 (sipLast data).2 = BitVec.ofNat 32
      (((tailByte data 3 * 256 + tailByte data 2) * 256 + tailByte data 1) * 256 +
        tailByte data 0) := by
  have hzero : BitVec.ofInt 32 0 = BitVec.ofNat 32 (0 * 2 ^ (24 + 8)) := by decide
  have h3 := nextByte data 3 (by norm_num) hzero
    ((ofInt_unsigned _).trans (ofInt_bitOr_shifted _ _ 24))
  have h2 := nextByte (n := 16) data 2 (by norm_num) h3
    ((ofInt_unsigned _).trans (ofInt_bitOr_shifted _ _ 16))
  have h1 := nextByte (n := 8) data 1 (by norm_num) h2
    ((ofInt_unsigned _).trans (ofInt_bitOr_shifted _ _ 8))
  have h0 := nextByte (n := 0) data 0 (by norm_num) h1
    ((ofInt_unsigned _).trans (ofInt_bitOr_unshifted _ _))
  simp only [pow_zero, mul_one, Nat.zero_mul, Nat.zero_add, Nat.add_zero] at h0
  exact h0

/-- The number that the tail encodes, byte by byte. -/
theorem leNat_tail (data : Bytes) :
    SipHash.leNat (SipHash.tail data) =
      tailByte data 0 + 256 * (tailByte data 1 + 256 * (tailByte data 2 + 256 * (tailByte data 3 +
        256 * (tailByte data 4 + 256 * (tailByte data 5 + 256 * tailByte data 6))))) := by
  have hstep : ∀ i, SipHash.leNat ((SipHash.tail data).drop i) =
      tailByte data i + 256 * SipHash.leNat ((SipHash.tail data).drop (i + 1)) := by
    intro i
    by_cases hi : i < (SipHash.tail data).length
    · rw [List.drop_eq_getElem_cons hi, tailByte, List.getElem?_eq_getElem hi]
      rfl
    · rw [tailByte, List.getElem?_eq_none (by omega), List.drop_of_length_le (by omega),
        List.drop_of_length_le (by omega)]
      rfl
  have hlength := SipHash.length_tail data
  have hend : (SipHash.tail data).drop 7 = [] := List.drop_of_length_le (by omega)
  have h6 : SipHash.leNat ((SipHash.tail data).drop 6) = tailByte data 6 := by
    rw [hstep 6, hend]
    rfl
  rw [← h6, ← hstep 5, ← hstep 4, ← hstep 3, ← hstep 2, ← hstep 1, ← hstep 0, List.drop_zero]

theorem sipLast_word (data : Bytes) : word (sipLast data) = SipHash.lastWord data := by
  have h0 := tailByte_lt data 0
  have h1 := tailByte_lt data 1
  have h2 := tailByte_lt data 2
  have h3 := tailByte_lt data 3
  have hlow : ((tailByte data 3 * 256 + tailByte data 2) * 256 + tailByte data 1) * 256 +
      tailByte data 0 < 2 ^ 32 := by omega
  have hnat := word_natCast (((data.length % 256 * 256 + tailByte data 6) * 256 +
    tailByte data 5) * 256 + tailByte data 4) _ hlow
  rw [word, BitVec.ofInt_natCast, BitVec.ofInt_natCast] at hnat
  rw [word, sipLast_hi, sipLast_lo, hnat, SipHash.lastWord, leNat_tail]
  congr 1
  omega

/-! ### The hash -/

/-- The bytes of two halves without a sign are those of their word. -/
theorem le32_halves (h : IsUnsigned v) : le32 v.2 ++ le32 v.1 = putLE 8 (word v).toNat := by
  obtain ⟨hi, lo⟩ := v
  obtain ⟨hhi, hhilt, hlo, hlolt⟩ := h
  lift hi to ℕ using hhi
  lift lo to ℕ using hlo
  replace hhilt : (hi : ℤ) < 2 ^ 32 := hhilt
  replace hlolt : (lo : ℤ) < 2 ^ 32 := hlolt
  have hvalue : leValue (le32 lo ++ le32 hi) = hi * 2 ^ 32 + lo := by
    rw [leValue_eq_leNat, SipHash.leNat_append, ← leValue_eq_leNat, ← leValue_eq_leNat,
      leValue_le32, leValue_le32, length_le32]
    omega
  have hword : (word ((hi : ℤ), (lo : ℤ))).toNat = hi * 2 ^ 32 + lo := by
    rw [word_natCast _ _ (by omega), BitVec.toNat_ofNat, Nat.mod_eq_of_lt (by omega)]
  have hbytes := putLE_leValue (le32 lo ++ le32 hi)
  rw [hvalue] at hbytes
  rw [hword]
  exact hbytes.symm

end

/-- A half without a sign is written. -/
theorem writeUInt32LEOut_eq {value : ℤ} (hnonneg : 0 ≤ value) (hlt : value < 2 ^ 32) :
    writeUInt32LEOut value = .ok (le32 value) := by
  have hwrite : Js.writeUInt32LE (some value) = some (le32 value) :=
    if_pos ⟨hnonneg, Int.le_of_lt_add_one hlt⟩
  rw [writeUInt32LEOut, hwrite]

/-- The hash is SipHash-2-4 of the message, under the two words of the key. -/
theorem sipHash24_eq {key : Bytes} (hkey : key.length = 16) (data : Bytes) :
    sipHash24 key data = .ok (putLE 8 (SipHash.hash 2 4 (SipHash.leWord (key.take 8))
      (SipHash.leWord (key.drop 8)) data).toNat) := by
  obtain ⟨k0, hread0, hk0, -⟩ := readU64LE_word key 0 (by omega)
  obtain ⟨k1, hread1, hk1, -⟩ := readU64LE_word key 8 (by omega)
  obtain ⟨hinit, hunsigned⟩ := sipInit_word k0 k1
  obtain ⟨s, hloop, hunsigned', hblocks⟩ :=
    foldlM_blocks hunsigned fun i (hi : i ∈ List.range (data.length / 8)) => List.mem_range.mp hi
  obtain ⟨hlast, hunsigned''⟩ := sipCompress_word hunsigned' (sipLast data)
  obtain ⟨hfinish, hresult⟩ := sipFinish_word hunsigned''
  -- The words are those of the padded message, the last one coming after the loop.
  have hhash : word (sipFinish (sipCompress s (sipLast data))) =
      SipHash.hash 2 4 (SipHash.leWord (key.take 8)) (SipHash.leWord (key.drop 8)) data := by
    have hfirst : (key.drop 0).take 8 = key.take 8 := rfl
    have hsecond : (key.drop 8).take 8 = key.drop 8 :=
      List.take_of_length_le (by rw [List.length_drop]; omega)
    rw [hfinish, hlast, hblocks, sipLast_word, hinit, hk0, hk1, hfirst, hsecond, SipHash.hash,
      SipHash.words_pad, List.foldl_append, List.foldl_cons, List.foldl_nil]
  have hlength : ¬ key.length ≠ 16 := not_not.mpr hkey
  have hlo := writeUInt32LEOut_eq hresult.lo_nonneg hresult.lo_lt
  have hhi := writeUInt32LEOut_eq hresult.hi_nonneg hresult.hi_lt
  rw [← hhash, ← le32_halves hresult]
  have hok : ∀ {α β : Type} (a : α) (next : α → Except String β), (.ok a >>= next) = next a :=
    fun _ _ => rfl
  unfold sipHash24
  simp only [if_neg hlength, hread0, hread1, hok]
  rw [hloop]
  simp only [hok, hlo, hhi]
  rfl

/-- A message of one block and seven more bytes. -/
theorem sipHash24_eq_sample :
    sipHash24 ((List.range 16).map UInt8.ofNat) ((List.range 15).map UInt8.ofNat) =
      .ok (putLE 8 (SipHash.hash 2 4
        (SipHash.leWord (((List.range 16).map UInt8.ofNat).take 8))
        (SipHash.leWord (((List.range 16).map UInt8.ofNat).drop 8))
        ((List.range 15).map UInt8.ofNat)).toNat) :=
  sipHash24_eq (by decide) _

end PublicPool.Sv2
