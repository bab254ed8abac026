import Mathlib.Data.Nat.Log
import Mathlib.Data.Nat.Bitwise

/-!
# `PublicPool.Lib.BitSmear`: smearing the highest bit of a number

A number or-ed with itself shifted right by 1, 2, 4 and so on has every bit below its highest one
set. `Smeared n x y` says where this stands: each bit of `y` is set when one of the `n` bits of `x`
from it on is. A shift by `n` doubles the reach (`Smeared.or_shift`).

Bits are read through `signedBit`, which goes on with the sign beyond the width, so that an
arithmetic shift only moves them.
-/

set_option autoImplicit false

namespace PublicPool.Lib

/-! ### Reach -/

/-- Each bit of `y` is set when one of the `n` bits of `x` from it on is. -/
def Smeared (n : ℕ) (x y : ℕ → Bool) : Prop :=
  ∀ i, y i = true ↔ ∃ j < n, x (i + j) = true

theorem Smeared.one (x : ℕ → Bool) : Smeared 1 x x := by
  intro i
  constructor
  · intro hbit
    exact ⟨0, Nat.one_pos, hbit⟩
  · rintro ⟨j, hj, hbit⟩
    rwa [Nat.lt_one_iff.mp hj] at hbit

theorem Smeared.or_shift {n : ℕ} {x y : ℕ → Bool} (h : Smeared n x y) :
    Smeared (n + n) x fun i => y i || y (n + i) := by
  intro i
  rw [Bool.or_eq_true, h i, h (n + i)]
  constructor
  · rintro (⟨j, hj, hbit⟩ | ⟨j, hj, hbit⟩)
    · exact ⟨j, by omega, hbit⟩
    · refine ⟨n + j, by omega, ?_⟩
      rwa [← Nat.add_assoc, Nat.add_comm i n]
  · rintro ⟨j, hj, hbit⟩
    by_cases hlow : j < n
    · exact .inl ⟨j, hlow, hbit⟩
    · refine .inr ⟨j - n, by omega, ?_⟩
      have hindex : n + i + (j - n) = i + j := by omega
      rwa [hindex]

/-! ### Words -/

variable {w : ℕ}

/-- A bit of a two's complement number. -/
def signedBit (x : BitVec w) (i : ℕ) : Bool := if i < w then x.getLsbD i else x.msb

theorem signedBit_or (x y : BitVec w) :
    signedBit (x ||| y) = fun i => signedBit x i || signedBit y i := by
  funext i
  rw [signedBit, signedBit, signedBit, BitVec.getLsbD_or, BitVec.msb_or]
  split <;> rfl

theorem signedBit_sshiftRight (x : BitVec w) (s : ℕ) :
    signedBit (x.sshiftRight s) = fun i => signedBit x (s + i) := by
  funext i
  rw [signedBit, signedBit, BitVec.getLsbD_sshiftRight, BitVec.msb_sshiftRight]
  by_cases hi : i < w
  · rw [if_pos hi, decide_eq_false (by omega)]
    rfl
  · rw [if_neg hi, if_neg (by omega)]

/-- One step of the smearing. -/
theorem Smeared.or_sshiftRight {n : ℕ} {x : ℕ → Bool} {y : BitVec w}
    (h : Smeared n x (signedBit y)) :
    Smeared (n + n) x (signedBit (y ||| y.sshiftRight n)) := by
  rw [signedBit_or, signedBit_sshiftRight]
  exact h.or_shift

/-- A negative number becomes minus one. -/
theorem eq_allOnes_of_smeared {x y : BitVec w} (h : Smeared w (signedBit x) (signedBit y))
    (hneg : x.msb = true) : y = BitVec.allOnes w := by
  refine BitVec.eq_of_getLsbD_eq fun i hi => ?_
  have hbit : signedBit y i = true := by
    have hsign : signedBit x (i + (w - 1)) = true := by
      rw [signedBit]
      split
      · -- Only the sign itself is that far up within the width.
        have hzero : i + (w - 1) = w - 1 := by omega
        rwa [hzero, ← BitVec.msb_eq_getLsbD_last]
      · exact hneg
    exact (h i).mpr ⟨w - 1, by omega, hsign⟩
  rw [signedBit, if_pos hi] at hbit
  rw [hbit, BitVec.getLsbD_allOnes, decide_eq_true hi]

/-- A positive number becomes the number whose bits up to its highest one are set. -/
theorem toNat_of_smeared {x y : BitVec w} (h : Smeared w (signedBit x) (signedBit y))
    (hpos : x.msb = false) (hx : x ≠ 0) : y.toNat = 2 ^ (Nat.log2 x.toNat + 1) - 1 := by
  have hne : x.toNat ≠ 0 := fun hzero => hx (BitVec.eq_of_toNat_eq hzero)
  have hlog : Nat.log2 x.toNat < w := (Nat.log2_lt hne).mpr x.isLt
  have hbits (k : ℕ) : signedBit x k = x.toNat.testBit k := by
    rw [signedBit]
    split
    · rfl
    · rename_i hk
      rw [hpos, Nat.testBit_lt_two_pow (x.isLt.trans_le (Nat.pow_le_pow_right (by omega)
        (not_lt.mp hk)))]
  refine Nat.eq_of_testBit_eq fun i => ?_
  rw [Nat.testBit_two_pow_sub_one]
  by_cases hi : i < w
  · have hread : y.toNat.testBit i = signedBit y i := (if_pos hi).symm
    rw [hread, Bool.eq_iff_iff, h i, decide_eq_true_iff]
    constructor
    · rintro ⟨j, -, hbit⟩
      rw [hbits] at hbit
      have hle := Nat.ge_two_pow_of_testBit hbit
      have hlog2 := (Nat.le_log2 hne).mpr hle
      omega
    · intro hle
      refine ⟨Nat.log2 x.toNat - i, by omega, ?_⟩
      have hindex : i + (Nat.log2 x.toNat - i) = Nat.log2 x.toNat := by omega
      rw [hbits, hindex]
      exact Nat.testBit_log2 hne
  · have hy : y.toNat.testBit i = false :=
      Nat.testBit_lt_two_pow (y.isLt.trans_le (Nat.pow_le_pow_right (by omega) (not_lt.mp hi)))
    rw [hy, decide_eq_false (by omega)]

end PublicPool.Lib
