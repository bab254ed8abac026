import Mathlib.Tactic.Linarith
import Mathlib.Tactic.NormNum
import PublicPool.Utils.Difficulty

/-!
# `PublicPool.Proofs.Targets`: a lower difficulty has a larger target

`meetsTarget_iff` reads the comparison of two buffers as the one of their numbers, and
`meetsTarget_of_le` is what it is for: whoever meets the target of a difficulty meets that of every
lower one. `target_arithmetic` has both next to the number that a target encodes.
-/

set_option autoImplicit false

namespace PublicPool.DifficultyUtils

theorem leValue_append (a b : Bytes) : leValue (a ++ b) = leValue a + 256 ^ a.length * leValue b := by
  induction a with
  | nil => simp [leValue]
  | cons x a ih =>
    show x.toNat + 256 * leValue (a ++ b) = x.toNat + 256 * leValue a + _
    rw [ih, List.length_cons, pow_succ']
    ring

theorem leValue_lt (b : Bytes) : leValue b < 256 ^ b.length := by
  induction b with
  | nil => simp [leValue]
  | cons x b ih =>
    have hx := x.toNat_lt
    show x.toNat + 256 * leValue b < 256 ^ (b.length + 1)
    rw [pow_succ']
    omega

/-- The `i` low bytes are compared as numbers. -/
theorem compareLe256_go {left right : Bytes} (i : ℕ) (hleft : i ≤ left.length)
    (hright : i ≤ right.length) :
    ∃ diff, compareLe256.go left right i = some diff ∧
      (diff ≤ 0 ↔ leValue (left.take i) ≤ leValue (right.take i)) := by
  induction i with
  | zero => exact ⟨0, rfl, by simp⟩
  | succ i ih =>
    obtain ⟨diff, hdiff, hiff⟩ := ih (by omega) (by omega)
    have hl : left[i]? = some left[i] := List.getElem?_eq_getElem (by omega)
    have hr : right[i]? = some right[i] := List.getElem?_eq_getElem (by omega)
    have hvalue (b : Bytes) (hb : i < b.length) :
        leValue (b.take (i + 1)) = leValue (b.take i) + 256 ^ i * b[i].toNat := by
      rw [List.take_succ_eq_append_getElem hb, leValue_append, List.length_take_of_le hb.le]
      simp [leValue]
    have hlow (b : Bytes) (hb : i < b.length) : leValue (b.take i) < 256 ^ i := by
      have hlt := leValue_lt (b.take i)
      rwa [List.length_take_of_le hb.le] at hlt
    rw [hvalue left (by omega), hvalue right (by omega), compareLe256.go, hl, hr]
    dsimp only
    by_cases hsame : left[i] = right[i]
    · refine ⟨diff, (if_pos hsame).trans hdiff, ?_⟩
      rw [hiff, hsame, Nat.add_le_add_iff_right]
    · -- The byte that differs decides, whatever is below it.
      refine ⟨_, if_neg hsame, ?_⟩
      have hne : left[i].toNat ≠ right[i].toNat := fun h => hsame (UInt8.toNat_inj.mp h)
      have hleftLow := hlow left (by omega)
      have hrightLow := hlow right (by omega)
      have hstep {a b x y : ℕ} (hab : a < b) (hx : x < 256 ^ i) :
          x + 256 ^ i * a < y + 256 ^ i * b := by
        have hmul : 256 ^ i * (a + 1) ≤ 256 ^ i * b := Nat.mul_le_mul_left _ hab
        rw [Nat.mul_succ] at hmul
        omega
      rcases Nat.lt_or_gt_of_ne hne with hlt | hgt
      · have hsum := hstep (y := leValue (right.take i)) hlt hleftLow
        constructor
        · intro _
          omega
        · intro _
          omega
      · have hsum := hstep (y := leValue (left.take i)) hgt hrightLow
        constructor
        · intro hle
          omega
        · intro hle
          omega

section
variable {hash target : Bytes} {difficulty a b : ℚ}

theorem meetsTarget_iff (hhash : hash.length = 32) (htarget : target.length = 32) :
    meetsTarget hash target = true ↔ leValue hash ≤ leValue target := by
  obtain ⟨diff, hdiff, hiff⟩ := @compareLe256_go hash target 32 hhash.ge htarget.ge
  rw [meetsTarget, compareLe256, hdiff]
  rw [List.take_of_length_le hhash.le, List.take_of_length_le htarget.le] at hiff
  simpa using hiff

theorem bigIntToLe256_eq (value : ℕ) : bigIntToLe256 value = putLE 32 value := by
  rw [putLE_natCast, bigIntToLe256]
  refine List.map_congr_left fun i _ => ?_
  apply UInt8.toNat_inj.mp
  simp [UInt8.toNat_ofNat']

@[simp] theorem length_difficultyToTarget (difficulty : Option ℚ) :
    (difficultyToTarget difficulty).length = 32 := by
  cases difficulty with
  | none => rfl
  | some difficulty =>
    simp only [difficultyToTarget]
    split
    · rfl
    · split
      · rfl
      · exact length_bigIntToLe256 _

theorem leValue_maxTarget : leValue maxTarget = 256 ^ 32 - 1 := by decide +kernel

/-- Every target is below the largest one. -/
theorem leValue_le_maxTarget (h : target.length = 32) : leValue target ≤ leValue maxTarget := by
  have hlt := leValue_lt target
  rw [h] at hlt
  rw [leValue_maxTarget]
  omega

theorem leValue_difficultyToTarget (hpos : 0 < round (difficulty * 1000000))
    (hdifficulty : 0 < difficulty) : leValue (difficultyToTarget (some difficulty)) =
      trueDiffOne * 1000000 / (round (difficulty * 1000000)).toNat := by
  have hlt : trueDiffOne * 1000000 / (round (difficulty * 1000000)).toNat < 256 ^ 32 :=
    (Nat.div_le_self _ _).trans_lt (by decide +kernel)
  simp only [difficultyToTarget]
  rw [if_neg (not_le.mpr hdifficulty), if_neg hpos.ne', bigIntToLe256_eq, leValue_putLE,
    Nat.mod_eq_of_lt hlt]

theorem round_le_round (h : a ≤ b) : round a ≤ round b :=
  Int.floor_le_floor (by linarith)

/-- A lower difficulty has a larger target. -/
theorem leValue_difficultyToTarget_le (h : a ≤ b) :
    leValue (difficultyToTarget (some b)) ≤ leValue (difficultyToTarget (some a)) := by
  have hmax {difficulty : ℚ} (hd : difficulty ≤ 0 ∨ round (difficulty * 1000000) = 0) :
      difficultyToTarget (some difficulty) = maxTarget := by
    simp only [difficultyToTarget]
    rcases hd with hd | hd
    · rw [if_pos hd]
    · rw [if_pos hd, ite_self]
  by_cases hnone : a ≤ 0 ∨ round (a * 1000000) = 0
  · rw [hmax hnone]
    exact leValue_le_maxTarget (length_difficultyToTarget _)
  · obtain ⟨hapos, hround⟩ := not_or.mp hnone
    have ha : 0 < a := not_le.mp hapos
    have hanonneg : 0 ≤ round (a * 1000000) := Int.floor_nonneg.mpr (by positivity)
    have hscaled : round (a * 1000000) ≤ round (b * 1000000) := round_le_round (by linarith)
    rw [leValue_difficultyToTarget (by omega) ha,
      leValue_difficultyToTarget (by omega) (ha.trans_le h)]
    exact Nat.div_le_div_left (by omega) (by omega)

/-- The difficulty as a number: `null` sets no bound. -/
theorem difficultyToTarget_getD (difficulty : Option ℚ) :
    difficultyToTarget (some (difficulty.getD 0)) = difficultyToTarget difficulty := by
  cases difficulty <;> rfl

/-- Whoever meets a difficulty meets every lower one. -/
theorem meetsTarget_of_le {a b : Option ℚ} (h : a.getD 0 ≤ b.getD 0) (hhash : hash.length = 32)
    (hmeets : meetsTarget hash (difficultyToTarget b) = true) :
    meetsTarget hash (difficultyToTarget a) = true := by
  rw [meetsTarget_iff hhash (length_difficultyToTarget _), ← difficultyToTarget_getD] at hmeets ⊢
  exact hmeets.trans (leValue_difficultyToTarget_le h)

/-! ### The target as a number -/

/-- The number that the target of a difficulty is: the target of difficulty one over the difficulty,
which is rounded to millionths first. What rounds to zero has the largest target. -/
def targetValue (difficulty : ℚ) : ℤ :=
  if 1 ≤ round (1000000 * difficulty) then
    ⌊(trueDiffOne * 1000000 : ℚ) / round (1000000 * difficulty)⌋
  else 2 ^ 256 - 1

theorem leValue_difficultyToTarget_eq (hdifficulty : 0 < difficulty) :
    (leValue (difficultyToTarget (some difficulty)) : ℤ) = targetValue difficulty := by
  have hnonneg : 0 ≤ round (difficulty * 1000000) := Int.floor_nonneg.mpr (by positivity)
  rw [targetValue, mul_comm (1000000 : ℚ)]
  split
  · rename_i hround
    obtain ⟨scaled, hscaled⟩ := Int.eq_ofNat_of_zero_le hnonneg
    rw [leValue_difficultyToTarget (by omega) hdifficulty, hscaled, Int.toNat_natCast]
    have hdiv : ((trueDiffOne * 1000000 : ℚ) / ((scaled : ℤ) : ℚ))
        = ((trueDiffOne * 1000000 : ℕ) : ℚ) / (scaled : ℚ) := by push_cast; rfl
    rw [hdiv, Rat.floor_natCast_div_natCast]
    push_cast
    rfl
  · rename_i hround
    have hzero : round (difficulty * 1000000) = 0 := by omega
    have htarget : difficultyToTarget (some difficulty) = maxTarget := by
      simp only [difficultyToTarget]
      rw [if_neg (not_le.mpr hdifficulty), if_pos hzero]
    rw [htarget, leValue_maxTarget]
    norm_num

/-- No target is past 256 bits, so that the encoder drops nothing. -/
theorem targetValue_lt (hdifficulty : 0 < difficulty) : targetValue difficulty < 2 ^ 256 := by
  have hlt := leValue_lt (difficultyToTarget (some difficulty))
  rw [length_difficultyToTarget] at hlt
  rw [← leValue_difficultyToTarget_eq hdifficulty]
  exact_mod_cast hlt

end

/-- The arithmetic of targets: what the 32 bytes of a target encode, that a higher difficulty has a
smaller target, that hashes and targets are compared as numbers, and what follows for the hashes
that are accepted. -/
theorem target_arithmetic :
    (∀ difficulty : ℚ, 0 < difficulty →
      (difficultyToTarget (some difficulty)).length = 32 ∧
        (leValue (difficultyToTarget (some difficulty)) : ℤ) = targetValue difficulty ∧
        targetValue difficulty < 2 ^ 256) ∧
      (∀ lower higher : ℚ, 0 < lower → lower ≤ higher →
        leValue (difficultyToTarget (some higher))
          ≤ leValue (difficultyToTarget (some lower))) ∧
      (∀ hash target : Bytes, hash.length = 32 → target.length = 32 →
        (meetsTarget hash target = true ↔ leValue hash ≤ leValue target)) ∧
      ∀ (lower higher : ℚ) (hash : Bytes), 0 < lower → lower ≤ higher → hash.length = 32 →
        meetsTarget hash (difficultyToTarget (some higher)) = true →
          meetsTarget hash (difficultyToTarget (some lower)) = true := by
  refine ⟨?_, ?_, ?_, ?_⟩
  · intro difficulty hdifficulty
    exact ⟨length_difficultyToTarget _, leValue_difficultyToTarget_eq hdifficulty,
      targetValue_lt hdifficulty⟩
  · intro lower higher _ hle
    exact leValue_difficultyToTarget_le hle
  · intro hash target hhash htarget
    exact meetsTarget_iff hhash htarget
  · intro lower higher hash _ hle hhash hmeets
    exact meetsTarget_of_le (a := some lower) (b := some higher) hle hhash hmeets

theorem target_arithmetic_one :
    (leValue (difficultyToTarget (some 1)) : ℤ) = targetValue 1 ∧
      (meetsTarget (bigIntToLe256 7) (difficultyToTarget (some 2)) = true →
        meetsTarget (bigIntToLe256 7) (difficultyToTarget (some 1)) = true) := by
  have hone : (0 : ℚ) < 1 := one_pos
  refine ⟨(target_arithmetic.1 1 hone).2.1, ?_⟩
  exact target_arithmetic.2.2.2 1 2 (bigIntToLe256 7) hone one_le_two (length_bigIntToLe256 7)

end PublicPool.DifficultyUtils
