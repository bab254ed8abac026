import PublicPool.Datum.Service
import PublicPool.Sv2.BinaryCodec

/-!
# `PublicPool.Datum.Coinbaser`: the answer to a coinbaser request on the wire

`serializeDatumCoinbaserFetchResponse` of `models/datum/datum-codec.ts`, which throws on amounts
that are negative or do not fit 64 bits and on scripts of more than 255 bytes. `isSerializable` says
that it does not (`serializeDatumCoinbaserFetchResponse_isSome`).
-/

set_option autoImplicit false

namespace PublicPool.Datum

open Sv2 (BufferWriter)
open Sv2.BufferWriter

/-- `writeU64` of a number with a sign. -/
def writeSignedU64 (value : ℤ) : BufferWriter Unit :=
  if value < 0 then failure else writeU64 value.toNat

/-- One output: its amount and its script. -/
def writeDatumPayoutOutput (output : CoinbasePayoutOutput) : BufferWriter Unit :=
  if 255 < output.scriptPubKey.length then failure
  else do
    writeSignedU64 output.value
    writeU8 output.scriptPubKey.length
    writeBytes output.scriptPubKey

def serializeDatumPayoutOutputs (outputs : List CoinbasePayoutOutput) (coinbaserId : ℕ) :
    Option Bytes :=
  if 255 < coinbaserId then none
  else toBuffer do
    writeU8 coinbaserId
    outputs.forM writeDatumPayoutOutput

/-- `DatumMiningCommand.FETCH_COINBASER_RESPONSE`. -/
def fetchCoinbaserResponse : UInt8 := 0x11

def serializeDatumMiningCommand (command : UInt8) (body : Bytes) : Bytes := command :: body

def serializeDatumCoinbaserFetchResponse (rewardValue : ℕ) (outputs : List CoinbasePayoutOutput)
    (coinbaserId : ℕ) : Option Bytes := do
  let outputsBuffer ← serializeDatumPayoutOutputs outputs coinbaserId
  let body ← toBuffer do
    writeU64 rewardValue
    writeU32 outputsBuffer.length
    writeBytes outputsBuffer
  return serializeDatumMiningCommand fetchCoinbaserResponse body

/-! ### What is written -/

/-- The bytes of an output that can be written. -/
def datumOutputBytes (output : CoinbasePayoutOutput) : Bytes :=
  putLE 8 output.value.toNat ++ putLE 1 output.scriptPubKey.length ++ output.scriptPubKey

section
variable (output : CoinbasePayoutOutput) (written : Bytes) (outputs : List CoinbasePayoutOutput)

theorem run_writeDatumPayoutOutput :
    (writeDatumPayoutOutput output).run written =
      if isSerializable [output] then some ((), written ++ datumOutputBytes output) else none := by
  by_cases hscript : 255 < output.scriptPubKey.length
  · have hnot : isSerializable [output] = false := by simp [isSerializable, hscript]
    rw [writeDatumPayoutOutput, if_pos hscript, hnot]
    rfl
  · by_cases hneg : output.value < 0
    · have hnot : isSerializable [output] = false := by simp [isSerializable, hneg]
      rw [writeDatumPayoutOutput, if_neg hscript, writeSignedU64, if_pos hneg, hnot]
      rfl
    · by_cases hfits : output.value.toNat ≤ 0xffffffffffffffff
      · have hyes : isSerializable [output] = true := by
          simp only [isSerializable, List.all_cons, List.all_nil, Bool.and_true, Bool.and_eq_true,
            decide_eq_true_eq]
          omega
        rw [writeDatumPayoutOutput, if_neg hscript, writeSignedU64, if_neg hneg, writeU64,
          if_pos hfits, hyes, datumOutputBytes, List.append_assoc, ← List.append_assoc written,
          ← List.append_assoc (written ++ _)]
        rfl
      · have hnot : isSerializable [output] = false := by
          simp only [isSerializable, List.all_cons, List.all_nil, Bool.and_true, Bool.and_eq_false_iff,
            decide_eq_false_iff_not]
          omega
        rw [writeDatumPayoutOutput, if_neg hscript, writeSignedU64, if_neg hneg, writeU64,
          if_neg hfits, hnot]
        rfl

theorem isSerializable_cons :
    isSerializable (output :: outputs) = (isSerializable [output] && isSerializable outputs) := by
  simp [isSerializable]

theorem run_forM_writeDatumPayoutOutput :
    (outputs.forM writeDatumPayoutOutput).run written =
      if isSerializable outputs then some ((), written ++ outputs.flatMap datumOutputBytes)
      else none := by
  induction outputs generalizing written with
  | nil =>
    show some ((), written) = some ((), written ++ [])
    rw [List.append_nil]
  | cons output outputs ih =>
    have hcons : (output :: outputs).forM writeDatumPayoutOutput
        = writeDatumPayoutOutput output >>= fun _ => outputs.forM writeDatumPayoutOutput := rfl
    rw [isSerializable_cons, hcons, StateT.run_bind, run_writeDatumPayoutOutput]
    cases isSerializable [output] with
    | false => rfl
    | true =>
      show (outputs.forM writeDatumPayoutOutput).run (written ++ datumOutputBytes output) = _
      rw [ih, List.flatMap_cons, List.append_assoc, Bool.true_and]

end

/-- An answer can be written exactly if its outputs are serializable. -/
theorem serializeDatumCoinbaserFetchResponse_isSome {rewardValue coinbaserId : ℕ}
    (hreward : rewardValue < 2 ^ 64) (hid : coinbaserId ≤ 255)
    (outputs : List CoinbasePayoutOutput) :
    (serializeDatumCoinbaserFetchResponse rewardValue outputs coinbaserId).isSome
      = isSerializable outputs := by
  have houtputs : serializeDatumPayoutOutputs outputs coinbaserId =
      if isSerializable outputs then
        some (putLE 1 coinbaserId ++ outputs.flatMap datumOutputBytes)
      else none := by
    rw [serializeDatumPayoutOutputs, if_neg (by omega)]
    show ((outputs.forM writeDatumPayoutOutput).run (putLE 1 coinbaserId)).map Prod.snd = _
    rw [run_forM_writeDatumPayoutOutput]
    cases isSerializable outputs <;> rfl
  have hfits : rewardValue ≤ 0xffffffffffffffff := by omega
  rw [serializeDatumCoinbaserFetchResponse, houtputs]
  cases isSerializable outputs with
  | false => rfl
  | true =>
    rw [writeU64, if_pos hfits]
    rfl

end PublicPool.Datum
