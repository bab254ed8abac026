import PublicPool.Js
import Mathlib.Algebra.Order.Field.Rat
import Mathlib.Data.BitVec

/-!
# `PublicPool.ClientStatistics`: the difficulty that a client's shares suggest

`models/StratumV1ClientStatistics.ts`. Difficulties and quotients are exact rationals. A division
by zero gives what it gives in the source (`Number.divide`); this happens when all shares that are
kept came within one millisecond.

`nearestPowerOfTwo` calls itself with a hundred times its value until the low 32 bits of the
value's integer part are a positive number. It has a bound on the depth of these calls, and is
`none` where the bound does not suffice.

A call of `Date` is an argument, in milliseconds.
-/

set_option autoImplicit false

namespace PublicPool

/-! ### Numbers -/

/-- A number of the source: a rational, or what a division by zero gives. -/
inductive Number
  | finite (value : ℚ)
  | infinity
  | negInfinity
  | nan
  deriving DecidableEq

namespace Number

/-- `a / b`. -/
def divide (a b : ℚ) : Number :=
  if b ≠ 0 then .finite (a / b)
  else if 0 < a then .infinity
  else if a < 0 then .negInfinity
  else .nan

/-- A multiple, with a positive factor. -/
def times (number : Number) (factor : ℚ) : Number :=
  match number with
  | .finite value => .finite (value * factor)
  | other => other

/-- `a < b`. -/
def lt : Number → Number → Bool
  | .finite a, .finite b => a < b
  | .finite _, .infinity => true
  | .negInfinity, .finite _ => true
  | .negInfinity, .infinity => true
  | _, _ => false

/-- The operand of a bit operator: the low 32 bits of the integer part. -/
def toInt32 : Number → BitVec 32
  | .finite value => BitVec.ofInt 32 (value.num.tdiv value.den)
  | _ => 0

end Number

/-! ### The power of two -/

/-- `x`, with every bit below its highest one set. A shift by 32 is a shift by 0. -/
def smearBits (val : BitVec 32) : BitVec 32 :=
  let x := val ||| val.sshiftRight 1
  let x := x ||| x.sshiftRight 2
  let x := x ||| x.sshiftRight 4
  let x := x ||| x.sshiftRight 8
  let x := x ||| x.sshiftRight 16
  x ||| x.sshiftRight (32 % 32)

def nearestPowerOfTwo (minDifficulty : ℚ) : ℕ → Number → Option (Option ℚ)
  | 0, _ => none
  | depth + 1, val =>
    if val = .finite 0 then some none
    else if val.lt (.finite minDifficulty) then some (some minDifficulty)
    else
      let x := smearBits val.toInt32
      let res := x.toInt - (x.sshiftRight 1).toInt
      if res = 0 ∧ (val.times 100).lt (.finite minDifficulty) then some (some minDifficulty)
      else if res = 0 then
        -- `null / 100` is `0`.
        (nearestPowerOfTwo minDifficulty depth (val.times 100)).map fun nearest =>
          some (nearest.getD 0 / 100)
      else some (some res)

/-! ### The statistics of a client -/

structure Submission where
  time : ℤ
  difficulty : ℚ
  deriving DecidableEq

/-- `CACHE_SIZE`. -/
def cacheSize : ℕ := 30

structure StratumV1ClientStatistics where
  minDifficulty : ℚ := 1 / 1000
  targetSubmitShareEveryNSeconds : ℚ := 30
  hashRate : ℚ := 0
  submissionCacheStart : ℤ
  submissionCache : List Submission := []
  submissionCacheDifficultySum : ℚ := 0
  deriving DecidableEq

namespace StratumV1ClientStatistics

/-- The time of the first share that is kept. -/
def firstTime (cache : List Submission) : ℤ := (cache.head?.map (·.time)).getD 0

/-- The time of the last share. -/
def lastTime (cache : List Submission) : ℤ := (cache.getLast?.map (·.time)).getD 0

/-- A share at `date`; `now` is the second look at the clock. -/
def addShares (statistics : StratumV1ClientStatistics) (date now : ℤ) (targetDifficulty : ℚ) :
    StratumV1ClientStatistics :=
  let (sum, cache) :=
    match statistics.submissionCache with
    | first :: rest =>
      if (first :: rest).length > cacheSize then
        (statistics.submissionCacheDifficultySum - first.difficulty, rest)
      else (statistics.submissionCacheDifficultySum, first :: rest)
    | [] => (statistics.submissionCacheDifficultySum, [])
  let cache := cache ++ [{ time := date, difficulty := targetDifficulty }]
  let sum := sum + targetDifficulty
  let time := now - firstTime cache
  { statistics with
    submissionCache := cache
    submissionCacheDifficultySum := sum
    hashRate :=
      if time > 60000 ∧ cache.length > 2 then (sum * 4294967296) / ((time : ℚ) / 1000)
      else statistics.hashRate }

/-- What is suggested at `now`, with a bound on the depth of `nearestPowerOfTwo`. -/
def getSuggestedDifficulty (statistics : StratumV1ClientStatistics) (depth : ℕ) (now : ℤ)
    (clientDifficulty : ℚ) : Option (Option ℚ) :=
  let cache := statistics.submissionCache
  if cache.length < 5 then
    if ((now - statistics.submissionCacheStart : ℤ) : ℚ) / 5000 > 60 then
      nearestPowerOfTwo statistics.minDifficulty depth (.finite (clientDifficulty / 6))
    else some none
  else
    let sum := cache.foldl (fun pre cur => pre + cur.difficulty) 0
    let diffSeconds := ((lastTime cache - firstTime cache : ℤ) : ℚ) / 1000
    let difficultyPerSecond := Number.divide sum diffSeconds
    let targetDifficulty := difficultyPerSecond.times statistics.targetSubmitShareEveryNSeconds
    if (Number.finite (clientDifficulty * 2)).lt targetDifficulty ∨
        targetDifficulty.lt (.finite (clientDifficulty / 2)) then
      nearestPowerOfTwo statistics.minDifficulty depth targetDifficulty
    else some none

end StratumV1ClientStatistics

end PublicPool
