import PublicPool.Bitcoin

/-!
# `PublicPool.Utils.Difficulty`: difficulties, targets and hashes

The model of `utils/difficulty.utils.ts`. A hash and a target are 32-byte buffers read as
little-endian numbers; a share is good when its hash is at most the target.

Difficulties are exact rationals, with `none` for `Infinity` and `NaN`. `difficultyToTarget`
rounds the difficulty to millionths and divides the difficulty-one target by it, so the
target of the network difficulty is near, but not equal to, the target that `nBits` encodes;
`networkTarget` is the latter, as consensus has it.
-/

set_option autoImplicit false

namespace PublicPool

namespace DifficultyUtils

/-- `TRUE_DIFF_ONE_BIGINT`: the target of difficulty one. -/
def trueDiffOne : ℕ := 26959535291011309493156476344723991336010898738574164086137773096960

/-- `Math.round(x)`. -/
def round (x : ℚ) : ℤ := ⌊x + 1 / 2⌋

/-- `bigIntToLe256`: the low 256 bits, least significant byte first. -/
def bigIntToLe256 (value : ℕ) : Bytes :=
  (List.range 32).map fun i => UInt8.ofNat (value / 256 ^ i)

@[simp] theorem length_bigIntToLe256 (value : ℕ) : (bigIntToLe256 value).length = 32 := by
  simp [bigIntToLe256]

/-- The target that every hash meets. -/
def maxTarget : Bytes := List.replicate 32 0xff

/-- `difficultyToTarget`. -/
def difficultyToTarget : Option ℚ → Bytes
  | none => maxTarget
  | some difficulty =>
    if difficulty ≤ 0 then maxTarget
    else
      let diffScaled := round (difficulty * 1000000)
      if diffScaled = 0 then maxTarget
      else bigIntToLe256 (trueDiffOne * 1000000 / diffScaled.toNat)

/-- The sign of `compareLe256`: the bytes are compared from the most significant down, and a
byte missing on either side makes the difference `NaN`, which is above nothing and below
nothing. -/
def compareLe256 (left right : Bytes) : Option ℤ :=
  let rec go : ℕ → Option ℤ
    | 0 => some 0
    | i + 1 =>
      match left[i]?, right[i]? with
      | some l, some r => if l = r then go i else some ((l.toNat : ℤ) - r.toNat)
      | _, _ => none
  go 32

/-- `meetsTarget`: `compareLe256(hash, target) <= 0`, which `NaN` is not. -/
def meetsTarget (hashBuffer target : Bytes) : Bool :=
  match compareLe256 hashBuffer target with
  | some diff => decide (diff ≤ 0)
  | none => false

/-- `calculateDifficulty`: the difficulty a header's hash shows, `none` for `Infinity`. -/
def calculateDifficulty (host : Externals) (header : Bytes) : Option ℚ × Digest :=
  let hashResult := host.hash256 header
  let target := leValue hashResult.bytes
  (if target = 0 then none else some (trueDiffOne / target), hashResult)

/-- `targetToDifficulty`, `none` for `Infinity`. -/
def targetToDifficulty (target : Bytes) : Option ℚ :=
  if leValue target = 0 then none else some (trueDiffOne / leValue target)

/-- `hashRateToTarget`. Hash rates come in as 32-bit floats, so the hashes of one share stay
below `2 ^ 256`. -/
def hashRateToTarget (hashRate sharesPerMinute : ℚ) : Bytes :=
  if hashRate ≤ 0 ∨ sharesPerMinute ≤ 0 then maxTarget
  else
    let hashesPerShare := (round (hashRate * (60 / sharesPerMinute))).toNat
    if hashesPerShare = 0 then maxTarget
    else bigIntToLe256 ((2 ^ 256 - hashesPerShare) / (hashesPerShare + 1))

/-- `hashRateToDifficulty`. -/
def hashRateToDifficulty (hashRate sharesPerMinute : ℚ) : Option ℚ :=
  targetToDifficulty (hashRateToTarget hashRate sharesPerMinute)

/-- `clampDifficultyToMaxTarget`: a target above the largest one the miner takes is lowered to
that. -/
def clampDifficultyToMaxTarget (difficulty : Option ℚ) (maxTarget : Bytes) : Option ℚ :=
  if maxTarget.length ≠ 32 ∨ maxTarget.all (· = 0) then difficulty
  else if meetsTarget (difficultyToTarget difficulty) maxTarget then difficulty
  else match targetToDifficulty maxTarget with
    | some clamped => if 0 < clamped then some clamped else difficulty
    | none => difficulty

end DifficultyUtils

/-- The digest that encodes a number. -/
def Digest.ofNat (value : ℕ) : Digest :=
  ⟨DifficultyUtils.bigIntToLe256 value, DifficultyUtils.length_bigIntToLe256 value⟩

/-- The target a block header's `nBits` encodes. A negative mantissa encodes no target. -/
def networkTarget (nBits : ℤ) : ℕ :=
  let bits := (uint32 nBits).toNat
  let exponent := bits / 2 ^ 24
  let mantissa := bits % 2 ^ 23
  if bits / 2 ^ 23 % 2 = 1 then 0
  else if exponent ≤ 3 then mantissa / 256 ^ (3 - exponent)
  else mantissa * 256 ^ (exponent - 3)

/-- The `nBits` field of an 80-byte header. -/
def headerBits (header : Bytes) : ℤ := leValue ((header.drop 72).take 4)

/-- A header whose hash is at or below the target its own `nBits` encode is a block. -/
def meetsNetworkTarget (host : Externals) (header : Bytes) : Bool :=
  decide (leValue (host.hash256 header).bytes ≤ networkTarget (headerBits header))

/-- `calculateNetworkDifficulty`: the difficulty of `nBits`, `none` for `Infinity`. The shift
is a signed one, and only the low eight bits of it are kept. -/
def calculateNetworkDifficulty (nBits : ℤ) : Option ℚ :=
  let bits := (uint32 nBits).toNat
  let mantissa := bits % 2 ^ 23
  let exponent : ℤ := bits / 2 ^ 24
  let target : ℚ := (mantissa : ℕ) * (256 : ℚ) ^ (exponent - 3)
  if target = 0 then none else some (2 ^ 208 * 65535 / target)

end PublicPool
