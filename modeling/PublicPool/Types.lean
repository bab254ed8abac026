import PublicPool.Bitcoin

/-!
# `PublicPool.Types`: payout modes, payout lists and job templates

The data that every part of the pool passes around: the payout mode of a port
(`types/payout-mode.ts`), the recipients of a coinbase (`AddressObject` in
`models/MiningJob.ts`) and the job template (`IJobTemplate` in
`services/stratum-v1-jobs.service.ts`).

A template id and a job id are the lower-case hexadecimal text of a counter, as the source
has them. Merkle branches are kept as buffers; the source keeps their hexadecimal text and
decodes it wherever it is used.
-/

set_option autoImplicit false

namespace PublicPool

/-- Whether a text is among some others: the clients keep the submissions they have seen so. -/
instance decidableMemTexts (text : List Char) (texts : List (List Char)) :
    Decidable (text ∈ texts) := inferInstance

/-- How the reward of a found block is split. -/
inductive PayoutMode
  | solo
  | pplns
  deriving DecidableEq, Repr

/-- A recipient of the coinbase: a fixed amount, or a percentage of the reward. -/
structure AddressObject where
  address : String
  percent : Option ℚ
  amountSats : Option ℤ
  deriving DecidableEq

/-- What a recipient gets of a reward: its amount, or its percentage rounded down. -/
def AddressObject.amount (recipient : AddressObject) (reward : ℤ) : ℤ :=
  match recipient.amountSats with
  | some amount => amount
  | none => ⌊recipient.percent.getD 0 / 100 * reward⌋

/-- The fields of a `getblocktemplate` transaction the pool reads. -/
structure BlockTemplateTx where
  data : Bytes
  txid : Option String
  hash : Option String
  deriving DecidableEq

/-- The block of a template. -/
structure Block where
  version : ℤ
  prevHash : Bytes
  bits : ℤ
  timestamp : ℤ
  witnessCommit : Bytes
  transactions : List Transaction
  deriving DecidableEq

/-- `IJobTemplate.blockData`. -/
structure BlockData where
  id : String
  creation : ℕ
  coinbasevalue : ℤ
  networkDifficulty : Option ℚ
  height : ℤ
  clearJobs : Bool
  payoutSnapshotId : Option ℕ
  payoutOutputs : Option (List AddressObject)
  transactions : List BlockTemplateTx
  sigoplimit : Option ℕ
  sizelimit : Option ℕ
  weightlimit : Option ℕ
  deriving DecidableEq

/-- `IJobTemplate`. -/
structure JobTemplate where
  block : Block
  merkleBranch : List Bytes
  blockData : BlockData
  deriving DecidableEq

end PublicPool
