import PublicPool.Utils.Difficulty

/-!
# `PublicPool.CustomWork`: judging a share of a miner-built job

The model of `services/custom-work.service.ts`. `validateShare` puts the coinbase together
from the parts a miner sent, hashes it up its merkle path, builds the header and compares the
header's hash with the targets of the share and of the network.

A throw is `none`: the target byte lies outside the coinbase, only one half of the target byte
is given, or the version does not fit a signed 32-bit field.
-/

set_option autoImplicit false

namespace PublicPool

/-- `CustomWorkShareValidationInput`. -/
structure ShareValidationInput where
  coinbasePrefix : Bytes
  coinbaseSuffix : Bytes
  coinbaseTargetByteIndex : Option ℕ
  coinbaseTargetByte : Option ℕ
  merklePath : List Bytes
  extranoncePrefix : Bytes
  extranonce : Bytes
  prevHash : Bytes
  nBits : ℤ
  version : ℤ
  ntime : ℤ
  nonce : ℤ
  shareDifficulty : Option ℚ
  networkDifficulty : Option ℚ

/-- `CustomWorkShareValidationResult`. -/
structure ShareValidationResult where
  header : Bytes
  hashBuffer : Digest
  submissionDifficulty : Option ℚ
  accepted : Bool
  isBlockCandidate : Bool

/-- The coinbase of a share with its target byte set, or `none` for the `RangeError`s. -/
def patchTargetByte (coinbaseTx : Bytes) (index targetByte : Option ℕ) : Option Bytes :=
  match index, targetByte with
  | none, none => some coinbaseTx
  | some index, some targetByte =>
    if index < coinbaseTx.length then some (coinbaseTx.set index (UInt8.ofNat targetByte))
    else none
  | _, _ => none

/-- The coinbase transaction of a share. -/
def ShareValidationInput.coinbaseTx (input : ShareValidationInput) : Option Bytes :=
  patchTargetByte
    (input.coinbasePrefix ++ input.extranoncePrefix ++ input.extranonce ++ input.coinbaseSuffix)
    input.coinbaseTargetByteIndex input.coinbaseTargetByte

/-- The header of a share. -/
def ShareValidationInput.header (host : Externals) (input : ShareValidationInput) :
    Option Bytes := do
  let coinbaseTx ← input.coinbaseTx
  let merkleRoot := merkleRootOfPath host (host.hash256 coinbaseTx) input.merklePath
  buildHeader input.prevHash merkleRoot input.version input.ntime input.nBits input.nonce

open DifficultyUtils in
/-- `CustomWorkService.validateShare`. -/
def validateShare (host : Externals) (input : ShareValidationInput) :
    Option ShareValidationResult := do
  let header ← input.header host
  let (submissionDifficulty, hashBuffer) := calculateDifficulty host header
  return {
    header
    hashBuffer
    submissionDifficulty
    accepted := meetsTarget hashBuffer.bytes (difficultyToTarget input.shareDifficulty)
    isBlockCandidate := meetsTarget hashBuffer.bytes (difficultyToTarget input.networkDifficulty) }

/-- The result of a validation is about the header it recomputed. -/
theorem header_of_validateShare {host : Externals} {input : ShareValidationInput}
    {result : ShareValidationResult} (h : validateShare host input = some result) :
    input.header host = some result.header ∧ result.hashBuffer = host.hash256 result.header := by
  unfold validateShare at h
  cases hheader : input.header host with
  | none =>
    rw [hheader] at h
    cases h
  | some header =>
    rw [hheader] at h
    cases h
    exact ⟨rfl, rfl⟩

end PublicPool
