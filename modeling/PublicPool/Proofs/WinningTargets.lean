import Mathlib.Data.Nat.Cast.Order.Field
import PublicPool.Proofs.Targets
import PublicPool.TemplateProvider

/-!
# `PublicPool.Proofs.WinningTargets`: targets that leave out no winning hash

A template's `nBits` encode a target. The pool makes a difficulty of them, and from the difficulty
it makes targets of its own: one rounds the difficulty to millionths, the other rounds it down to a
whole number of at least one. Rounding down makes a target larger, so nothing is lost by it; the
target of millionths is too small whenever it rounded up.

`containsTarget_iff` and `announcesTarget_iff` say exactly when a target of the pool contains that of
`nBits`. Both are statements about numbers: `nBits` may have any mantissa and any exponent.
-/

set_option autoImplicit false

namespace PublicPool.DifficultyUtils

/-- The hashes that win are the ones at or below the target of `nBits`. -/
def Wins (nBits : ℤ) (hash : Digest) : Prop := leValue hash.bytes ≤ networkTarget nBits

instance (nBits : ℤ) (hash : Digest) : Decidable (Wins nBits hash) :=
  inferInstanceAs (Decidable (_ ≤ _))

/-- A difficulty, rounded to millionths, is not above the one that `nBits` encode. -/
def RoundsBelow (nBits : ℤ) (difficulty : Option ℚ) : Prop :=
  ∀ d ∈ difficulty, round (d * 1000000) * networkTarget nBits ≤ trueDiffOne * 1000000

instance (nBits : ℤ) (difficulty : Option ℚ) : Decidable (RoundsBelow nBits difficulty) :=
  inferInstanceAs (Decidable (∀ _ ∈ _, _))

theorem leValue_ofNat {n : ℕ} (hn : n < 256 ^ 32) : leValue (Digest.ofNat n).bytes = n := by
  show leValue (bigIntToLe256 n) = n
  rw [bigIntToLe256_eq, leValue_putLE, Nat.mod_eq_of_lt hn]

/-- Zero always wins. -/
theorem wins_zero (nBits : ℤ) : Wins nBits (Digest.ofNat 0) := by
  show leValue (Digest.ofNat 0).bytes ≤ _
  rw [leValue_ofNat (by norm_num)]
  exact Nat.zero_le _

/-- A target below `2 ^ 244` contains the winning hashes when it is not below the target of
`nBits`. -/
theorem forall_wins_iff {nBits : ℤ} {target : Bytes} (htarget : target.length = 32)
    (hbound : leValue target + 1 < 256 ^ 32) :
    (∀ hash, Wins nBits hash → meetsTarget hash.bytes target = true)
      ↔ networkTarget nBits ≤ leValue target := by
  constructor
  · intro h
    by_contra hlt
    -- the first hash above the target still wins
    have hvalue := leValue_ofNat hbound
    have hwins : Wins nBits (Digest.ofNat (leValue target + 1)) := by
      show leValue (Digest.ofNat (leValue target + 1)).bytes ≤ _
      omega
    have hmeets := (meetsTarget_iff (Digest.length_eq _) htarget).mp (h _ hwins)
    omega
  · intro hle hash hwins
    rw [meetsTarget_iff hash.length_eq htarget]
    exact hwins.trans hle

/-- A target of the pool contains the winning hashes exactly when its difficulty is not rounded
above the one of `nBits`. -/
theorem containsTarget_iff (nBits : ℤ) (difficulty : Option ℚ) :
    (∀ hash, Wins nBits hash → meetsTarget hash.bytes (difficultyToTarget difficulty) = true)
      ↔ RoundsBelow nBits difficulty := by
  have hmax : ∀ hash : Digest, meetsTarget hash.bytes maxTarget = true := by
    intro hash
    rw [meetsTarget_iff hash.length_eq rfl]
    exact leValue_le_maxTarget hash.length_eq
  cases difficulty with
  | none =>
    constructor
    · intro _ d hd
      cases hd
    · intro _ hash _
      exact hmax hash
  | some d =>
    have hbelow : RoundsBelow nBits (some d)
        ↔ round (d * 1000000) * networkTarget nBits ≤ trueDiffOne * 1000000 := by
      simp [RoundsBelow]
    rw [hbelow]
    by_cases hpos : 0 < round (d * 1000000)
    · have hd : 0 < d := by
        by_contra hneg
        have hle : d * 1000000 + 1 / 2 < 1 := by linarith
        have hfloor : round (d * 1000000) < 1 := Int.floor_lt.mpr (by exact_mod_cast hle)
        omega
      obtain ⟨scaled, hscaled⟩ : ∃ n : ℕ, round (d * 1000000) = n :=
        ⟨_, (Int.toNat_of_nonneg hpos.le).symm⟩
      have hvalue := leValue_difficultyToTarget hpos hd
      rw [hscaled, Int.toNat_natCast] at hvalue
      have hsmall : leValue (difficultyToTarget (some d)) + 1 < 256 ^ 32 := by
        have hdiv := Nat.div_le_self (trueDiffOne * 1000000) scaled
        have hnumber : trueDiffOne * 1000000 + 1 < 256 ^ 32 := by decide +kernel
        omega
      rw [forall_wins_iff (length_difficultyToTarget _) hsmall, hvalue, hscaled,
        Nat.le_div_iff_mul_le (by omega), mul_comm]
      norm_cast
    · have hround : round (d * 1000000) ≤ 0 := not_lt.mp hpos
      have hnone : difficultyToTarget (some d) = maxTarget := by
        simp only [difficultyToTarget]
        split
        · rfl
        · rename_i hd
          have hnonneg : 0 ≤ round (d * 1000000) := by
            refine Int.floor_nonneg.mpr ?_
            have hd := not_le.mp hd
            positivity
          rw [if_pos (le_antisymm hround hnonneg)]
      rw [hnone]
      constructor
      · intro _
        have hproduct : round (d * 1000000) * (networkTarget nBits : ℤ) ≤ 0 :=
          mul_nonpos_of_nonpos_of_nonneg hround (Int.natCast_nonneg _)
        exact hproduct.trans (by positivity)
      · intro _ hash _
        exact hmax hash

/-! ### The announced target -/

/-- The target of `nBits` is the number that the pool divides by, cut off to a whole one, and zero
where the pool overlooks a sign. -/
theorem networkTarget_le (nBits : ℤ) :
    (networkTarget nBits : ℚ)
      ≤ ((uint32 nBits).toNat % 2 ^ 23 : ℕ)
        * (256 : ℚ) ^ (((uint32 nBits).toNat / 2 ^ 24 : ℕ) - 3 : ℤ) := by
  unfold networkTarget
  simp only
  generalize (uint32 nBits).toNat / 2 ^ 24 = exponent
  generalize (uint32 nBits).toNat % 2 ^ 23 = mantissa
  split
  · rw [Nat.cast_zero]
    exact mul_nonneg (Nat.cast_nonneg _) (zpow_nonneg (by norm_num) _)
  · split
    · rename_i hsmall
      have hexponent : ((exponent : ℤ) - 3) = -((3 - exponent : ℕ) : ℤ) := by omega
      rw [hexponent, zpow_neg, zpow_natCast, ← div_eq_mul_inv]
      have hdiv : ((mantissa / 256 ^ (3 - exponent) : ℕ) : ℚ)
          ≤ (mantissa : ℚ) / ((256 ^ (3 - exponent) : ℕ) : ℚ) := Nat.cast_div_le
      rwa [Nat.cast_pow] at hdiv
    · rename_i hlarge
      have hexponent : ((exponent : ℤ) - 3) = ((exponent - 3 : ℕ) : ℤ) := by omega
      rw [hexponent, zpow_natCast]
      push_cast
      exact le_refl _

theorem trueDiffOne_eq : (trueDiffOne : ℚ) = 2 ^ 208 * 65535 := by
  rw [trueDiffOne]
  norm_num

/-- The network difficulty is at most that of the target of `nBits`. -/
theorem networkDifficulty_mul_le {nBits : ℤ} {d : ℚ}
    (h : calculateNetworkDifficulty nBits = some d) :
    d * networkTarget nBits ≤ trueDiffOne := by
  unfold calculateNetworkDifficulty at h
  simp only at h
  split at h
  · cases h
  · rename_i htarget
    have hle := networkTarget_le nBits
    push_cast at hle
    obtain rfl := Option.some.inj h
    have hnonneg : (0 : ℚ) ≤ ((uint32 nBits).toNat % 2 ^ 23 : ℕ)
        * (256 : ℚ) ^ (((uint32 nBits).toNat / 2 ^ 24 : ℕ) - 3 : ℤ) :=
      mul_nonneg (Nat.cast_nonneg _) (zpow_nonneg (by norm_num) _)
    push_cast at htarget hnonneg ⊢
    have hpos := lt_of_le_of_ne hnonneg (Ne.symm htarget)
    rw [trueDiffOne_eq, div_mul_eq_mul_div, div_le_iff₀ hpos]
    exact mul_le_mul_of_nonneg_left hle (by norm_num)

theorem announcedMaxTarget_eq : 0xffff <<< (8 * (0x1d - 3)) = trueDiffOne := by decide +kernel

/-- The announced target contains the winning hashes exactly when the network difficulty is finite
and the target of `nBits` is at most the one of difficulty one. -/
theorem announcesTarget_iff (nBits : ℤ) :
    (∀ hash, Wins nBits hash → ∃ target ∈ targetFromDifficulty (calculateNetworkDifficulty nBits),
        meetsTarget hash.bytes target = true)
      ↔ (calculateNetworkDifficulty nBits).isSome ∧ networkTarget nBits ≤ trueDiffOne := by
  cases hdifficulty : calculateNetworkDifficulty nBits with
  | none =>
    constructor
    · intro h
      obtain ⟨target, htarget, -⟩ := h _ (wins_zero nBits)
      cases htarget
    · rintro ⟨hsome, -⟩
      cases hsome
  | some d =>
    have hbits := networkDifficulty_mul_le hdifficulty
    obtain ⟨divisor, hdivisor, hone, hfloor⟩ : ∃ n : ℕ, (max 1 ⌊d⌋).toNat = n ∧ 1 ≤ n ∧
        (n = 1 ∨ (n : ℚ) ≤ d) := by
      refine ⟨_, rfl, by omega, ?_⟩
      rcases le_total ⌊d⌋ 1 with hle | hge
      · left
        rw [max_eq_left hle]
        rfl
      · right
        have hcast : (((max 1 ⌊d⌋).toNat : ℤ) : ℚ) = (⌊d⌋ : ℚ) := by
          rw [max_eq_right hge, Int.toNat_of_nonneg (by omega)]
        rw [← Int.cast_natCast, hcast]
        exact Int.floor_le d
    obtain ⟨quotient, hquotient⟩ : ∃ q, trueDiffOne / divisor = q := ⟨_, rfl⟩
    have hquotientLe : quotient ≤ trueDiffOne := hquotient ▸ Nat.div_le_self _ _
    have hannounced : targetFromDifficulty (some d) = some (bigIntToLe256 quotient) := by
      simp only [targetFromDifficulty, announcedMaxTarget_eq, hdivisor, hquotient]
    have hnumber : trueDiffOne + 1 < 256 ^ 32 := by decide +kernel
    have hvalue : leValue (bigIntToLe256 quotient) = quotient := by
      rw [bigIntToLe256_eq, leValue_putLE, Nat.mod_eq_of_lt (by omega)]
    have hcontains := @forall_wins_iff nBits _ (length_bigIntToLe256 quotient) (by omega)
    simp only [hannounced, Option.mem_def, Option.some.injEq, exists_eq_left', Option.isSome_some,
      true_and]
    rw [hcontains, hvalue, ← hquotient]
    constructor
    · intro hle
      exact hle.trans (Nat.div_le_self _ _)
    · intro hle
      rw [Nat.le_div_iff_mul_le hone]
      rcases hfloor with rfl | hle'
      · rwa [mul_one]
      · -- the divisor is not above the difficulty, whose product with the target is bounded
        have hproduct : (networkTarget nBits : ℚ) * divisor ≤ trueDiffOne :=
          calc (networkTarget nBits : ℚ) * divisor
              ≤ networkTarget nBits * d := mul_le_mul_of_nonneg_left hle' (Nat.cast_nonneg _)
            _ = d * networkTarget nBits := mul_comm _ _
            _ ≤ trueDiffOne := hbits
        have hcast : ((networkTarget nBits * divisor : ℕ) : ℚ) ≤ (trueDiffOne : ℕ) := by
          rw [Nat.cast_mul]
          exact hproduct
        exact Nat.cast_le.mp hcast

end PublicPool.DifficultyUtils
