import PublicPool.Sv2.JobDeclaration

/-!
# `PublicPool.Sv2.OutputLists`: Bitcoin varints and lists of outputs

The encoders of `services/custom-work.service.ts` and
`services/sv2-template-distribution.service.ts`, the readers of
`services/template-provider.service.ts` and
`services/sv2-job-declaration-registry.service.ts` with the offsets they take and return, and
`serializeCoinbaseOutputs` of `services/sv2-job-declaration.service.ts` on any outputs.

What a writer or the first reader can not do is `none`.
-/

set_option autoImplicit false

namespace PublicPool.Sv2

/-! ### The encoders -/

/-- What both encoders do with an integer: they throw unless it is a safe one that is not
negative. -/
def encodeBitcoinVarInt (value : ℤ) : Option Bytes :=
  if value < 0 ∨ 2 ^ 53 ≤ value then none
  else if value < 0xfd then some (putLE 1 value)
  else if value ≤ 0xffff then some (0xfd :: putLE 2 value)
  else if value ≤ 0xffffffff then some (0xfe :: putLE 4 value)
  else some (0xff :: putLE 8 value)

/-- `CustomWorkService.encodeBitcoinVarInt`. -/
def CustomWorkService.encodeBitcoinVarInt (value : ℤ) : Option Bytes :=
  Sv2.encodeBitcoinVarInt value

/-- `Sv2TemplateDistributionConnection.encodeBitcoinVarInt`. -/
def Sv2TemplateDistributionConnection.encodeBitcoinVarInt (value : ℤ) : Option Bytes :=
  Sv2.encodeBitcoinVarInt value

/-! ### The readers -/

/-- `TemplateProviderService.readBitcoinVarInt`: the value and the offset after it. -/
def readBitcoinVarIntAt (buffer : Bytes) (offset : ℕ) : Option (ℕ × ℕ) :=
  match buffer[offset]? with
  | none => none
  | some first =>
    if first < 0xfd then some (first.toNat, offset + 1)
    else if first = 0xfd then
      if buffer.length < offset + 3 then none
      else some (leValue ((buffer.drop (offset + 1)).take 2), offset + 3)
    else if first = 0xfe then
      if buffer.length < offset + 5 then none
      else some (leValue ((buffer.drop (offset + 1)).take 4), offset + 5)
    else if buffer.length < offset + 9 then none
    else some (leValue ((buffer.drop (offset + 1)).take 8), offset + 9)

/-- `Sv2JobDeclarationRegistryService.readVarInt`: the value and the offset after it. -/
def readVarIntAt (buffer : Bytes) (offset : ℕ) : Except String (ℕ × ℕ) :=
  match buffer[offset]? with
  | none => .error "invalid-coinbase-outputs"
  | some first =>
    if first < 0xfd then .ok (first.toNat, offset + 1)
    else if first = 0xfd then
      if buffer.length < offset + 3 then .error "invalid-coinbase-outputs"
      else .ok (leValue ((buffer.drop (offset + 1)).take 2), offset + 3)
    else if first = 0xfe then
      if buffer.length < offset + 5 then .error "invalid-coinbase-outputs"
      else .ok (leValue ((buffer.drop (offset + 1)).take 4), offset + 5)
    else .error "unsupported-large-coinbase-output-count"

/-! ### Lists of outputs -/

/-- An output of `serializeCoinbaseOutputs`. -/
structure CoinbaseOutput where
  value : ℤ
  scriptPubKey : Bytes

/-- The bytes of one output. `writeBigUInt64LE` throws on a value that does not fit. -/
def CoinbaseOutput.serialize (output : CoinbaseOutput) : Option Bytes := do
  if output.value < 0 ∨ 2 ^ 64 ≤ output.value then none
  let scriptLength ← CustomWorkService.encodeBitcoinVarInt output.scriptPubKey.length
  return putLE 8 output.value ++ scriptLength ++ output.scriptPubKey

/-- `Sv2JobDeclarationConnection.serializeCoinbaseOutputs`. -/
def Sv2JobDeclarationConnection.serializeCoinbaseOutputs (outputs : List CoinbaseOutput) :
    Option Bytes := do
  let count ← CustomWorkService.encodeBitcoinVarInt outputs.length
  let parts ← outputs.mapM CoinbaseOutput.serialize
  return count ++ parts.flatten

end PublicPool.Sv2
