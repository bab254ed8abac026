import PublicPool.ClientStatistics
import PublicPool.Lib.BitSmear
import Mathlib.Algebra.Order.Archimedean.Basic
import Mathlib.Tactic.Linarith
import Mathlib.Tactic.FieldSimp
import Mathlib.Tactic.Positivity

/-!
# `PublicPool.Proofs.ClientStatistics`: when a difficulty is suggested, and which

`nearestPowerOfTwo` looks at the low 32 bits of the integer part only. It stops at the first value
`100 ^ k * t` for which they are a positive number (`Lands`), and gives the highest power of two in
them, over `100 ^ k` (`nearestPowerOfTwo_eq_some_iff`).

Below `2 ^ 31` this is the first value from 1 on (`exists_lands`). Above it may never come: an
infinite target has no bits at all, and the bits of `2 ^ 32` are zero for every `k`. So
`suggestion_returns_iff` has the targets for which the recursion ends.

The power of two is taken after the scaling by `100 ^ k`, and the minimum is not looked at again.
So a target above the minimum may give less than the minimum, and one from `2 ^ 31` on gives
`2 ^ 30` at most. `suggestion_in_range_iff` has the targets for which the result is in range.
-/

set_option autoImplicit false

namespace PublicPool

open Lib

/-! ### The bits -/

theorem smeared_smearBits (val : BitVec 32) :
    Smeared 32 (signedBit val) (signedBit (smearBits val)) := by
  have hsmeared : Smeared 32 (signedBit val) _ :=
    (((((Smeared.one (signedBit val)).or_sshiftRight).or_sshiftRight).or_sshiftRight).or_sshiftRight
      ).or_sshiftRight
  rw [smearBits, BitVec.sshiftRight_zero, BitVec.or_self]
  exact hsmeared

/-- The highest bit, as `nearestPowerOfTwo` finds it. -/
def highestBit (val : BitVec 32) : ℤ :=
  (smearBits val).toInt - ((smearBits val).sshiftRight 1).toInt

section
variable {val : BitVec 32} {v minDifficulty : ℚ} {k : ℕ}

theorem highestBit_of_neg (hneg : val.msb = true) : highestBit val = 0 := by
  rw [highestBit, eq_allOnes_of_smeared (smeared_smearBits val) hneg]
  decide

theorem highestBit_zero : highestBit 0 = 0 := by decide

theorem highestBit_of_pos (hpos : val.msb = false) (hne : val ≠ 0) :
    highestBit val = 2 ^ Nat.log2 val.toNat := by
  have hzero : val.toNat ≠ 0 := fun h => hne (BitVec.eq_of_toNat_eq h)
  have hhalf := BitVec.msb_eq_false_iff_two_mul_lt.mp hpos
  have hlog : Nat.log2 val.toNat < 31 := (Nat.log2_lt hzero).mpr (by omega)
  have hsmall : 2 ^ (Nat.log2 val.toNat + 1) ≤ 2 ^ 31 := Nat.pow_le_pow_right two_pos hlog
  have hone : 0 < 2 ^ Nat.log2 val.toNat := Nat.two_pow_pos _
  have hnat := toNat_of_smeared (smeared_smearBits val) hpos hne
  have hcast : (2 : ℤ) ^ Nat.log2 val.toNat = ((2 ^ Nat.log2 val.toNat : ℕ) : ℤ) := by push_cast; rfl
  rw [pow_succ] at hsmall hnat
  rw [hcast]
  generalize 2 ^ Nat.log2 val.toNat = power at *
  have hmsb : (smearBits val).msb = false := BitVec.msb_eq_false_iff_two_mul_lt.mpr (by omega)
  have hshift : ((smearBits val).sshiftRight 1).toInt = power - 1 := by
    rw [BitVec.sshiftRight_eq_of_msb_false hmsb, BitVec.toInt_ushiftRight_of_lt one_pos,
      Nat.shiftRight_eq_div_pow, hnat]
    omega
  rw [highestBit, hshift, BitVec.toInt_eq_toNat_of_msb hmsb, hnat]
  omega

/-! ### One step -/

/-- The low 32 bits of the integer part are a positive number. -/
def Lands (v : ℚ) : Prop := 0 < ⌊v⌋ % 2 ^ 32 ∧ ⌊v⌋ % 2 ^ 32 < 2 ^ 31

instance (v : ℚ) : Decidable (Lands v) := inferInstanceAs (Decidable (_ ∧ _))

/-- The highest power of two in them. -/
def powerIn (v : ℚ) : ℚ := 2 ^ Nat.log2 (⌊v⌋ % 2 ^ 32).toNat

theorem toNat_toInt32 (hv : 0 ≤ v) : (Number.toInt32 (.finite v)).toNat = (⌊v⌋ % 2 ^ 32).toNat := by
  have hpart : v.num.tdiv v.den = ⌊v⌋ := by
    rw [Int.tdiv_eq_ediv_of_nonneg (Rat.num_nonneg.mpr hv)]
    exact Rat.floor_def'.symm
  rw [Number.toInt32, hpart, BitVec.toNat_ofInt]
  rfl

theorem highestBit_toInt32 (hv : 0 ≤ v) :
    (highestBit (Number.toInt32 (.finite v)) : ℚ) = if Lands v then powerIn v else 0 := by
  have hnat := toNat_toInt32 hv
  split
  · rename_i hlands
    have hpos : (Number.toInt32 (.finite v)).msb = false := by
      refine BitVec.msb_eq_false_iff_two_mul_lt.mpr ?_
      have := hlands.2
      omega
    have hne : Number.toInt32 (.finite v) ≠ 0 := by
      intro hzero
      have := hlands.1
      rw [hzero] at hnat
      have hz : (0 : BitVec 32).toNat = 0 := rfl
      omega
    rw [highestBit_of_pos hpos hne, hnat, powerIn]
    push_cast
    rfl
  · rename_i hlands
    by_cases hzero : ⌊v⌋ % 2 ^ 32 = 0
    · have hval : Number.toInt32 (.finite v) = 0 := BitVec.eq_of_toNat_eq (by rw [hnat, hzero]; rfl)
      rw [hval, highestBit_zero]
      rfl
    · have hneg : (Number.toInt32 (.finite v)).msb = true := by
        refine BitVec.msb_eq_true_iff_two_mul_ge.mpr ?_
        have hlow := Int.emod_nonneg ⌊v⌋ (show (2 ^ 32 : ℤ) ≠ 0 by norm_num)
        have hhigh : ¬ ⌊v⌋ % 2 ^ 32 < 2 ^ 31 := fun h => hlands ⟨by omega, h⟩
        omega
      rw [highestBit_of_neg hneg]
      rfl

theorem nearestPowerOfTwo_of_lt (hzero : v ≠ 0) (hlt : v < minDifficulty) (depth : ℕ) :
    nearestPowerOfTwo minDifficulty (depth + 1) (.finite v) = some (some minDifficulty) := by
  have hne : Number.finite v ≠ .finite 0 := fun h => hzero (Number.finite.inj h)
  have hless : (Number.finite v).lt (.finite minDifficulty) = true := decide_eq_true hlt
  rw [nearestPowerOfTwo, if_neg hne, if_pos hless]

/-- A value of the minimum or above lands, or is scaled up. -/
theorem nearestPowerOfTwo_succ (hmin : 0 < minDifficulty) (hle : minDifficulty ≤ v) (depth : ℕ) :
    nearestPowerOfTwo minDifficulty (depth + 1) (.finite v) =
      if Lands v then some (some (powerIn v))
      else (nearestPowerOfTwo minDifficulty depth (.finite (v * 100))).map fun nearest =>
        some (nearest.getD 0 / 100) := by
  have hpos : 0 < v := hmin.trans_le hle
  have hne : Number.finite v ≠ .finite 0 := fun h => hpos.ne' (Number.finite.inj h)
  have hless : ¬ (Number.finite v).lt (.finite minDifficulty) = true := by
    simpa [Number.lt] using hle
  have hscaled : ¬ ((Number.finite v).times 100).lt (.finite minDifficulty) = true := by
    have hmore : minDifficulty ≤ v * 100 := by linarith
    simpa [Number.lt, Number.times] using hmore
  have hbit := highestBit_toInt32 hpos.le
  have hres : ∀ res : ℤ, (res : ℚ) = (if Lands v then powerIn v else 0) →
      (res = 0 ↔ ¬ Lands v) := by
    intro res hres
    rw [← Int.cast_eq_zero (α := ℚ), hres]
    split
    · rename_i hlands
      have hpower : powerIn v ≠ 0 := pow_ne_zero _ two_ne_zero
      exact ⟨fun h => absurd h hpower, fun h => absurd hlands h⟩
    · rename_i hlands
      exact ⟨fun _ => hlands, fun _ => rfl⟩
  have hzero := hres _ hbit
  rw [nearestPowerOfTwo, if_neg hne, if_neg hless]
  dsimp only
  rw [← highestBit]
  rw [if_neg (fun h => hscaled h.2)]
  by_cases hlands : Lands v
  · rw [if_neg (fun h => hzero.mp h hlands), if_pos hlands, hbit, if_pos hlands]
  · rw [if_pos (hzero.mpr hlands), if_neg hlands]
    rfl

/-! ### The recursion -/

/-- The recursion ends at the first value that lands. -/
theorem nearestPowerOfTwo_eq_some_iff (hmin : 0 < minDifficulty) (hle : minDifficulty ≤ v)
    (depth : ℕ) (nearest : Option ℚ) :
    nearestPowerOfTwo minDifficulty depth (.finite v) = some nearest ↔
      ∃ k < depth, (∀ i < k, ¬ Lands (v * 100 ^ i)) ∧ Lands (v * 100 ^ k) ∧
        nearest = some (powerIn (v * 100 ^ k) / 100 ^ k) := by
  induction depth generalizing v nearest with
  | zero =>
    constructor
    · intro h
      cases h
    · rintro ⟨k, hk, -⟩
      exact absurd hk (Nat.not_lt_zero k)
  | succ depth ih =>
    have hscale (i : ℕ) : v * 100 * 100 ^ i = v * 100 ^ (i + 1) := by rw [pow_succ']; ring
    rw [nearestPowerOfTwo_succ hmin hle]
    by_cases hlands : Lands v
    · rw [if_pos hlands]
      constructor
      · intro h
        refine ⟨0, Nat.succ_pos depth, fun i hi => absurd hi (Nat.not_lt_zero i), ?_, ?_⟩
        · rwa [pow_zero, mul_one]
        · rw [pow_zero, mul_one, div_one]
          exact (Option.some.inj h).symm
      · rintro ⟨k, hk, hbefore, -, rfl⟩
        cases k with
        | zero => rw [pow_zero, mul_one, div_one]
        | succ k =>
          have hfirst := hbefore 0 (Nat.succ_pos k)
          rw [pow_zero, mul_one] at hfirst
          exact absurd hlands hfirst
    · rw [if_neg hlands, Option.map_eq_some_iff]
      have hmore : minDifficulty ≤ v * 100 := by linarith
      constructor
      · rintro ⟨inner, hinner, rfl⟩
        obtain ⟨k, hk, hbefore, hland, rfl⟩ := (ih hmore inner).mp hinner
        refine ⟨k + 1, Nat.succ_lt_succ hk, ?_, ?_, ?_⟩
        · intro i hi
          cases i with
          | zero => rwa [pow_zero, mul_one]
          | succ i =>
            rw [← hscale]
            exact hbefore i (Nat.lt_of_succ_lt_succ hi)
        · rwa [← hscale]
        · rw [hscale, Option.getD_some, pow_succ (100 : ℚ) k, div_div]
      · rintro ⟨k, hk, hbefore, hland, rfl⟩
        cases k with
        | zero =>
          rw [pow_zero, mul_one] at hland
          exact absurd hland hlands
        | succ k =>
          refine ⟨_, (ih hmore _).mpr ⟨k, Nat.lt_of_succ_lt_succ hk, ?_, ?_, rfl⟩, ?_⟩
          · intro i hi
            rw [hscale]
            exact hbefore (i + 1) (Nat.succ_lt_succ hi)
          · rwa [hscale]
          · rw [hscale, Option.getD_some, pow_succ (100 : ℚ) k, div_div]

/-- A value that scaling does not change, and that has no bits, never lands. -/
theorem nearestPowerOfTwo_stuck {val : Number} (hzero : val ≠ .finite 0)
    (hless : val.lt (.finite minDifficulty) = false) (htimes : val.times 100 = val)
    (hbits : val.toInt32 = 0) (depth : ℕ) : nearestPowerOfTwo minDifficulty depth val = none := by
  induction depth with
  | zero => rfl
  | succ depth ih =>
    have hres : highestBit val.toInt32 = 0 := by rw [hbits, highestBit_zero]
    rw [nearestPowerOfTwo, if_neg hzero, hless, if_neg Bool.false_ne_true, htimes, hless]
    dsimp only
    rw [← highestBit, if_neg (fun h => Bool.false_ne_true h.2), if_pos hres, ih]
    rfl

theorem nearestPowerOfTwo_infinity (minDifficulty : ℚ) (depth : ℕ) :
    nearestPowerOfTwo minDifficulty depth .infinity = none :=
  nearestPowerOfTwo_stuck (by decide) rfl rfl rfl depth

/-- A value below `2 ^ 31` lands as soon as it is scaled up to 1. -/
theorem lands_of_one_le (hone : 1 ≤ v) (hlt : v < 2 ^ 31) : Lands v := by
  have hlow : 1 ≤ ⌊v⌋ := Int.le_floor.mpr (by exact_mod_cast hone)
  have hhigh : ⌊v⌋ < 2 ^ 31 := Int.floor_lt.mpr (by exact_mod_cast hlt)
  rw [Lands, Int.emod_eq_of_lt (by omega) (by omega)]
  omega

theorem not_lands_of_lt_one (hpos : 0 ≤ v) (hlt : v < 1) : ¬ Lands v := by
  have hfloor : ⌊v⌋ = 0 := Int.floor_eq_zero_iff.mpr ⟨hpos, hlt⟩
  rw [Lands, hfloor]
  decide

/-- Every positive number is scaled up to 1 at some point, and is below 100 when it was below 1
before. -/
theorem exists_scale (hpos : 0 < v) : ∃ k : ℕ, 1 ≤ v * 100 ^ k ∧ ∀ i < k, v * 100 ^ i < 1 := by
  obtain ⟨n, hn⟩ := pow_unbounded_of_one_lt (1 / v) (show (1 : ℚ) < 100 by norm_num)
  have hex : ∃ k : ℕ, 1 ≤ v * 100 ^ k := by
    refine ⟨n, ?_⟩
    rw [div_lt_iff₀ hpos] at hn
    linarith
  exact ⟨Nat.find hex, Nat.find_spec hex, fun i hi => not_le.mp (Nat.find_min hex hi)⟩

theorem scaled_lt (hlt : v < 2 ^ 31) (hbefore : ∀ i < k, v * 100 ^ i < 1) :
    v * 100 ^ k < 2 ^ 31 := by
  cases k with
  | zero => rwa [pow_zero, mul_one]
  | succ k =>
    have hlast := hbefore k (Nat.lt_succ_self k)
    calc v * 100 ^ (k + 1) = v * 100 ^ k * 100 := by rw [pow_succ]; ring
      _ < 2 ^ 31 := by linarith

theorem lands_of_scale (hlt : v < 2 ^ 31) (hone : 1 ≤ v * 100 ^ k)
    (hbefore : ∀ i < k, v * 100 ^ i < 1) : Lands (v * 100 ^ k) :=
  lands_of_one_le hone (scaled_lt hlt hbefore)

theorem not_lands_before (hpos : 0 < v) (hbefore : ∀ i < k, v * 100 ^ i < 1) :
    ∀ i < k, ¬ Lands (v * 100 ^ i) :=
  fun i hi => not_lands_of_lt_one (by positivity) (hbefore i hi)

/-- A value returns when it is below the minimum or lands at some point. -/
theorem nearestPowerOfTwo_returns_iff (hmin : 0 < minDifficulty) (hle : minDifficulty ≤ v) :
    (∃ depth, (nearestPowerOfTwo minDifficulty depth (.finite v)).isSome) ↔
      ∃ k : ℕ, Lands (v * 100 ^ k) := by
  constructor
  · rintro ⟨depth, hsome⟩
    obtain ⟨nearest, hnearest⟩ := Option.isSome_iff_exists.mp hsome
    obtain ⟨k, -, -, hlands, -⟩ :=
      (nearestPowerOfTwo_eq_some_iff hmin hle depth nearest).mp hnearest
    exact ⟨k, hlands⟩
  · intro hex
    have hfirst := (nearestPowerOfTwo_eq_some_iff hmin hle (Nat.find hex + 1) _).mpr
      ⟨Nat.find hex, Nat.lt_succ_self _, fun i hi => Nat.find_min hex hi, Nat.find_spec hex, rfl⟩
    exact ⟨_, Option.isSome_iff_exists.mpr ⟨_, hfirst⟩⟩

end

/-! ### What is asked for -/

namespace StratumV1ClientStatistics

/-- The difficulty with which the shares that are kept would have come every thirty seconds. -/
def targetDifficulty (statistics : StratumV1ClientStatistics) : Number :=
  (Number.divide (statistics.submissionCache.foldl (fun pre cur => pre + cur.difficulty) 0)
    (((lastTime statistics.submissionCache - firstTime statistics.submissionCache : ℤ) : ℚ) /
      1000)).times statistics.targetSubmitShareEveryNSeconds

/-- The target that a suggestion is computed from. There is none while few shares were sent in
little time, and while the target is within a factor of two of what the client has. -/
def target? (statistics : StratumV1ClientStatistics) (now : ℤ) (clientDifficulty : ℚ) :
    Option Number :=
  if statistics.submissionCache.length < 5 then
    if ((now - statistics.submissionCacheStart : ℤ) : ℚ) / 5000 > 60 then
      some (.finite (clientDifficulty / 6))
    else none
  else if (Number.finite (clientDifficulty * 2)).lt statistics.targetDifficulty ∨
      statistics.targetDifficulty.lt (.finite (clientDifficulty / 2)) then
    some statistics.targetDifficulty
  else none

section
variable (statistics : StratumV1ClientStatistics)

theorem getSuggestedDifficulty_eq (depth : ℕ) (now : ℤ) (clientDifficulty : ℚ) :
    statistics.getSuggestedDifficulty depth now clientDifficulty =
      (statistics.target? now clientDifficulty).elim (some none)
        (nearestPowerOfTwo statistics.minDifficulty depth) := by
  rw [getSuggestedDifficulty, target?]
  dsimp only
  split
  · split <;> rfl
  · rw [← targetDifficulty]
    split <;> rfl

/-! ### Histories of shares -/

/-- A share, with the two looks at the clock that adding it takes. -/
structure Share where
  date : ℤ
  now : ℤ
  difficulty : ℚ
  deriving DecidableEq

/-- A client's statistics after some shares. -/
def submitted (minDifficulty : ℚ) (start : ℤ) (shares : List Share) : StratumV1ClientStatistics :=
  shares.foldl (fun statistics share =>
      statistics.addShares share.date share.now share.difficulty)
    { minDifficulty, submissionCacheStart := start }

@[simp] theorem minDifficulty_addShares (date now : ℤ) (targetDifficulty : ℚ) :
    (statistics.addShares date now targetDifficulty).minDifficulty = statistics.minDifficulty :=
  rfl

end

@[simp] theorem minDifficulty_submitted (minDifficulty : ℚ) (start : ℤ) (shares : List Share) :
    (submitted minDifficulty start shares).minDifficulty = minDifficulty := by
  rw [submitted]
  induction shares using List.reverseRecOn with
  | nil => rfl
  | append_singleton shares share ih =>
    rw [List.foldl_append]
    exact ih

end StratumV1ClientStatistics

open StratumV1ClientStatistics

/-! ### Which targets settle -/

/-- The recursion ends for this target. -/
def Settles (minDifficulty : ℚ) : Number → Prop
  | .finite t => t < minDifficulty ∨ t < 2 ^ 31 ∨ ∃ k : ℕ, Lands (t * 100 ^ k)
  | .negInfinity => True
  | .infinity => False
  | .nan => False

section
variable {minDifficulty v t : ℚ}

theorem settles_iff (hmin : 0 < minDifficulty) (val : Number) :
    (∃ depth, (nearestPowerOfTwo minDifficulty depth val).isSome) ↔
      Settles minDifficulty val := by
  cases val with
  | finite t =>
    by_cases hzero : t = 0
    · rw [hzero]
      exact ⟨fun _ => .inl hmin, fun _ => ⟨1, rfl⟩⟩
    · by_cases hlt : t < minDifficulty
      · refine ⟨fun _ => .inl hlt, fun _ => ⟨1, ?_⟩⟩
        rw [nearestPowerOfTwo_of_lt hzero hlt]
        rfl
      · have hle := not_lt.mp hlt
        rw [nearestPowerOfTwo_returns_iff hmin hle]
        constructor
        · exact fun hlands => .inr (.inr hlands)
        · rintro (hless | hsmall | hlands)
          · exact absurd hless hlt
          · obtain ⟨k, hone, hbefore⟩ := exists_scale (hmin.trans_le hle)
            exact ⟨k, lands_of_scale hsmall hone hbefore⟩
          · exact hlands
  | infinity =>
    refine ⟨?_, False.elim⟩
    rintro ⟨depth, hsome⟩
    rw [nearestPowerOfTwo_infinity] at hsome
    cases hsome
  | negInfinity => exact ⟨fun _ => trivial, fun _ => ⟨1, rfl⟩⟩
  | nan =>
    refine ⟨?_, False.elim⟩
    rintro ⟨depth, hsome⟩
    rw [nearestPowerOfTwo_stuck (by decide) rfl rfl rfl] at hsome
    cases hsome

/-- `getSuggestedDifficulty` returns, on whatever history, if and only if the target it computes
from, where there is one, settles. -/
theorem suggestion_returns_iff {minDifficulty : ℚ} (hmin : 0 < minDifficulty) (start : ℤ)
    (shares : List Share) (now : ℤ) (clientDifficulty : ℚ) :
    (∃ depth, ((submitted minDifficulty start shares).getSuggestedDifficulty depth now
        clientDifficulty).isSome) ↔
      ∀ val, (submitted minDifficulty start shares).target? now clientDifficulty = some val →
        Settles minDifficulty val := by
  simp only [getSuggestedDifficulty_eq, minDifficulty_submitted]
  cases htarget : (submitted minDifficulty start shares).target? now clientDifficulty with
  | none => exact ⟨fun _ val h => (by cases h), fun _ => ⟨0, rfl⟩⟩
  | some val =>
    refine (settles_iff hmin val).trans ?_
    constructor
    · intro hsettles other hother
      cases hother
      exact hsettles
    · exact fun h => h val rfl

/-- A share every second. -/
def steadyShares : List Share :=
  (List.range 5).map fun i => { date := 1000 * i, now := 1000 * i, difficulty := 64 }

theorem suggestion_returns_iff_sample :
    (∃ depth, ((submitted (1 / 1000) 0 steadyShares).getSuggestedDifficulty depth 5000
        64).isSome) ↔
      ∀ val, (submitted (1 / 1000) 0 steadyShares).target? 5000 64 = some val →
        Settles (1 / 1000) val :=
  suggestion_returns_iff (by norm_num) 0 steadyShares 5000 64

/-- Five shares within one millisecond. -/
def burstShares : List Share := List.replicate 5 { date := 7, now := 7, difficulty := 64 }

theorem not_suggestion_returns :
    ¬ ∀ (minDifficulty : ℚ) (start : ℤ) (shares : List Share) (now : ℤ) (clientDifficulty : ℚ),
      0 < minDifficulty → (∀ share ∈ shares, 0 < share.difficulty) →
        ∃ depth, ((submitted minDifficulty start shares).getSuggestedDifficulty depth now
          clientDifficulty).isSome := by
  intro h
  obtain ⟨depth, hsome⟩ := h (1 / 1000) 0 burstShares 5000 64 (by norm_num) (by decide +kernel)
  have htarget : (submitted (1 / 1000) 0 burstShares).target? 5000 64 = some .infinity := by
    decide +kernel
  rw [getSuggestedDifficulty_eq, htarget, Option.elim_some, nearestPowerOfTwo_infinity] at hsome
  cases hsome

/-! ### The size of the result -/

theorem powerIn_le (hlands : Lands v) : powerIn v ≤ 2 ^ 30 := by
  have hne : (⌊v⌋ % 2 ^ 32).toNat ≠ 0 := by
    have := hlands.1
    omega
  have hlog : Nat.log2 (⌊v⌋ % 2 ^ 32).toNat < 31 := by
    have := hlands.2
    exact (Nat.log2_lt hne).mpr (by omega)
  exact pow_le_pow_right₀ (by norm_num) (by omega)

/-- Between 1 and `2 ^ 31`, it is the highest power of two that is not above the value. -/
theorem powerIn_bounds (hone : 1 ≤ v) (hlt : v < 2 ^ 31) :
    powerIn v ≤ v ∧ v < 2 * powerIn v ∧ ∀ j : ℕ, (2 : ℚ) ^ j ≤ v → (2 : ℚ) ^ j ≤ powerIn v := by
  have hpos : 0 ≤ ⌊v⌋ := Int.floor_nonneg.mpr (by linarith)
  obtain ⟨n, hn⟩ := Int.eq_ofNat_of_zero_le hpos
  have hhigh : ⌊v⌋ < 2 ^ 31 := Int.floor_lt.mpr (by exact_mod_cast hlt)
  have hlow : 1 ≤ ⌊v⌋ := Int.le_floor.mpr (by exact_mod_cast hone)
  have hbits : (⌊v⌋ % 2 ^ 32).toNat = n := by omega
  have hne : n ≠ 0 := by omega
  have hfloor : (n : ℚ) ≤ v := by
    have := Int.floor_le v
    rw [hn] at this
    exact_mod_cast this
  have hceil : v < n + 1 := by
    have := Int.lt_floor_add_one v
    rw [hn] at this
    exact_mod_cast this
  rw [powerIn, hbits]
  refine ⟨?_, ?_, ?_⟩
  · have hself : (2 ^ Nat.log2 n : ℚ) ≤ n := by exact_mod_cast Nat.log2_self_le hne
    linarith
  · have hnext : ((n + 1 : ℕ) : ℚ) ≤ ((2 ^ (Nat.log2 n + 1) : ℕ) : ℚ) :=
      Nat.cast_le.mpr Nat.lt_log2_self
    rw [pow_succ] at hnext
    push_cast at hnext
    linarith
  · intro j hj
    have hfit : 2 ^ j ≤ n := by
      have hlt : (2 ^ j : ℚ) < n + 1 := by linarith
      have hnat : 2 ^ j < n + 1 := by exact_mod_cast hlt
      omega
    exact pow_le_pow_right₀ (by norm_num) ((Nat.le_log2 hne).mpr hfit)

/-- What a target from the minimum to `2 ^ 31` gives. -/
theorem nearestPowerOfTwo_of_scale {k : ℕ} (hmin : 0 < minDifficulty) (hle : minDifficulty ≤ t)
    (hlt : t < 2 ^ 31) (hone : 1 ≤ t * 100 ^ k) (hbefore : ∀ i < k, t * 100 ^ i < 1) (depth : ℕ)
    (nearest : Option ℚ) :
    nearestPowerOfTwo minDifficulty depth (.finite t) = some nearest ↔
      k < depth ∧ nearest = some (powerIn (t * 100 ^ k) / 100 ^ k) := by
  have hpos := hmin.trans_le hle
  have hlands := lands_of_scale hlt hone hbefore
  rw [nearestPowerOfTwo_eq_some_iff hmin hle]
  constructor
  · rintro ⟨first, hdepth, hearlier, hland, rfl⟩
    have hsame : first = k := by
      rcases lt_trichotomy first k with hless | hsame | hmore
      · exact absurd hland (not_lands_before hpos hbefore first hless)
      · exact hsame
      · exact absurd hlands (hearlier k hmore)
    rw [hsame] at hdepth ⊢
    exact ⟨hdepth, rfl⟩
  · rintro ⟨hdepth, rfl⟩
    exact ⟨k, hdepth, not_lands_before hpos hbefore, hlands, rfl⟩

/-! ### Suggestions in range -/

/-- A suggestion computed from `t` is the minimum where `t` is below it, and otherwise is not below
the minimum, and above half of `t` and not above `t`. -/
structure SuggestsInRange (statistics : StratumV1ClientStatistics) (now : ℤ)
    (clientDifficulty t : ℚ) : Prop where
  between : statistics.minDifficulty ≤ t → ∀ depth r,
    statistics.getSuggestedDifficulty depth now clientDifficulty = some (some r) →
      statistics.minDifficulty ≤ r ∧ t / 2 < r ∧ r ≤ t
  minimum : 0 < t → t < statistics.minDifficulty → ∀ depth,
    statistics.getSuggestedDifficulty (depth + 1) now clientDifficulty =
      some (some statistics.minDifficulty)

/-- The target is below the minimum. Or it is below `2 ^ 31`, and over the power of 100 that scales
it up to 1, some power of two lies between the minimum and the target. Or it is `2 ^ 31` at least,
and never lands. -/
def HasPower (minDifficulty t : ℚ) : Prop :=
  t < minDifficulty ∨
    (t < 2 ^ 31 ∧ ∃ k j : ℕ, (1 ≤ t * 100 ^ k ∧ ∀ i < k, t * 100 ^ i < 1) ∧
      minDifficulty ≤ 2 ^ j / 100 ^ k ∧ (2 : ℚ) ^ j / 100 ^ k ≤ t) ∨
    (2 ^ 31 ≤ t ∧ ∀ k : ℕ, ¬ Lands (t * 100 ^ k))

/-- The part of it below `2 ^ 31`. -/
theorem between_iff_of_lt (hmin : 0 < minDifficulty) (hle : minDifficulty ≤ t) (hlt : t < 2 ^ 31) :
    (∀ depth r, nearestPowerOfTwo minDifficulty depth (.finite t) = some (some r) →
        minDifficulty ≤ r ∧ t / 2 < r ∧ r ≤ t) ↔
      ∃ k j : ℕ, (1 ≤ t * 100 ^ k ∧ ∀ i < k, t * 100 ^ i < 1) ∧
        minDifficulty ≤ 2 ^ j / 100 ^ k ∧ (2 : ℚ) ^ j / 100 ^ k ≤ t := by
  constructor
  · intro h
    obtain ⟨k, hone, hbefore⟩ := exists_scale (hmin.trans_le hle)
    obtain ⟨hlow, -, hhigh⟩ := h (k + 1) _
      ((nearestPowerOfTwo_of_scale hmin hle hlt hone hbefore (k + 1) _).mpr
        ⟨Nat.lt_succ_self k, rfl⟩)
    exact ⟨k, _, ⟨hone, hbefore⟩, hlow, hhigh⟩
  · rintro ⟨k, j, ⟨hone, hbefore⟩, hlow, hhigh⟩ depth r hr
    have hscale : (0 : ℚ) < 100 ^ k := by positivity
    obtain ⟨hself, htwice, hmost⟩ := powerIn_bounds hone (scaled_lt hlt hbefore)
    obtain ⟨-, hr⟩ := (nearestPowerOfTwo_of_scale hmin hle hlt hone hbefore depth _).mp hr
    rw [Option.some.inj hr]
    refine ⟨?_, ?_, ?_⟩
    · -- The power of two that lies in between is not above the one that is found.
      have hfound := hmost j ((div_le_iff₀ hscale).mp hhigh)
      exact hlow.trans (div_le_div_of_nonneg_right hfound hscale.le)
    · rw [lt_div_iff₀ hscale]
      linarith
    · exact (div_le_iff₀ hscale).mpr hself

/-- The part of it from `2 ^ 31` on: whatever is returned is too low. -/
theorem between_iff_of_ge (hmin : 0 < minDifficulty) (hle : minDifficulty ≤ t) (hge : 2 ^ 31 ≤ t) :
    (∀ depth r, nearestPowerOfTwo minDifficulty depth (.finite t) = some (some r) →
        minDifficulty ≤ r ∧ t / 2 < r ∧ r ≤ t) ↔ ∀ k : ℕ, ¬ Lands (t * 100 ^ k) := by
  constructor
  · intro h k hlands
    have hreturns := (nearestPowerOfTwo_returns_iff hmin hle).mpr ⟨k, hlands⟩
    obtain ⟨depth, hsome⟩ := hreturns
    obtain ⟨nearest, hnearest⟩ := Option.isSome_iff_exists.mp hsome
    obtain ⟨first, -, -, hland, rfl⟩ :=
      (nearestPowerOfTwo_eq_some_iff hmin hle depth nearest).mp hnearest
    obtain ⟨-, hhalf, -⟩ := h depth _ hnearest
    have hone : (1 : ℚ) ≤ 100 ^ first := one_le_pow₀ (by norm_num)
    have hsmall : powerIn (t * 100 ^ first) / 100 ^ first ≤ 2 ^ 30 :=
      (div_le_self (by rw [powerIn]; positivity) hone).trans (powerIn_le hland)
    linarith
  · intro h depth r hr
    obtain ⟨k, -, -, hlands, -⟩ := (nearestPowerOfTwo_eq_some_iff hmin hle depth _).mp hr
    exact absurd hlands (h k)

end

/-- On whatever history, the suggestion for a finite target is in range if and only if there is such
a power of two. -/
theorem suggestion_in_range_iff {minDifficulty : ℚ} (hmin : 0 < minDifficulty) (start : ℤ)
    (shares : List Share) (now : ℤ) (clientDifficulty t : ℚ)
    (htarget : (submitted minDifficulty start shares).target? now clientDifficulty =
      some (.finite t)) :
    SuggestsInRange (submitted minDifficulty start shares) now clientDifficulty t ↔
      HasPower minDifficulty t := by
  have hsuggests (depth : ℕ) : (submitted minDifficulty start shares).getSuggestedDifficulty depth
      now clientDifficulty = nearestPowerOfTwo minDifficulty depth (.finite t) := by
    rw [getSuggestedDifficulty_eq, htarget, minDifficulty_submitted, Option.elim_some]
  have hsame := minDifficulty_submitted minDifficulty start shares
  by_cases hless : t < minDifficulty
  · refine ⟨fun _ => .inl hless, fun _ => ⟨fun hle => ?_, fun hpos _ depth => ?_⟩⟩
    · rw [hsame] at hle
      exact absurd hless (not_lt.mpr hle)
    · rw [hsuggests, hsame]
      exact nearestPowerOfTwo_of_lt hpos.ne' hless depth
  · have hle := not_lt.mp hless
    have hbetween : SuggestsInRange (submitted minDifficulty start shares) now clientDifficulty t ↔
        ∀ depth r, nearestPowerOfTwo minDifficulty depth (.finite t) = some (some r) →
          minDifficulty ≤ r ∧ t / 2 < r ∧ r ≤ t := by
      constructor
      · intro h depth r hr
        have hin := h.between (by rwa [hsame]) depth r (by rwa [hsuggests])
        rwa [hsame] at hin
      · refine fun h => ⟨fun _ depth r hr => ?_, fun _ hbelow => ?_⟩
        · rw [hsuggests] at hr
          rw [hsame]
          exact h depth r hr
        · rw [hsame] at hbelow
          exact absurd hbelow hless
    rw [hbetween]
    by_cases hlt : t < 2 ^ 31
    · rw [between_iff_of_lt hmin hle hlt]
      constructor
      · exact fun h => .inr (.inl ⟨hlt, h⟩)
      · rintro (hbelow | ⟨-, hpower⟩ | ⟨hge, -⟩)
        · exact absurd hbelow hless
        · exact hpower
        · exact absurd hlt (not_lt.mpr hge)
    · have hge := not_lt.mp hlt
      rw [between_iff_of_ge hmin hle hge]
      constructor
      · exact fun h => .inr (.inr ⟨hge, h⟩)
      · rintro (hbelow | ⟨hsmall, -⟩ | ⟨-, hnever⟩)
        · exact absurd hbelow hless
        · exact absurd hsmall hlt
        · exact hnever

theorem suggestion_in_range_iff_sample :
    SuggestsInRange (submitted (1 / 1000) 0 steadyShares) 5000 64 2400 ↔
      HasPower (1 / 1000) 2400 :=
  suggestion_in_range_iff (by norm_num) 0 steadyShares 5000 64 2400 (by decide +kernel)

/-- A share of the minimum every 25 seconds. -/
def slowShares : List Share :=
  (List.range 5).map fun i => { date := 25000 * i, now := 25000 * i, difficulty := 1 / 1000 }

/-- The target `0.0015` is above the minimum of `0.001`, and `0.0008` is suggested. -/
theorem not_suggestion_in_range :
    ¬ ∀ (minDifficulty : ℚ) (start : ℤ) (shares : List Share) (now : ℤ) (clientDifficulty t : ℚ),
      0 < minDifficulty → (∀ share ∈ shares, 0 < share.difficulty) →
        shares.Pairwise (fun share other => share.date < other.date) →
          (submitted minDifficulty start shares).target? now clientDifficulty = some (.finite t) →
            SuggestsInRange (submitted minDifficulty start shares) now clientDifficulty t := by
  intro h
  have hrange := h (1 / 1000) 0 slowShares 100000 (8 / 1000) (15 / 10000) (by norm_num)
    (by decide +kernel) (by decide +kernel) (by decide +kernel)
  have hlow := (hrange.between (by decide +kernel) 3 (8 / 10000) (by decide +kernel)).1
  revert hlow
  decide +kernel

end PublicPool
