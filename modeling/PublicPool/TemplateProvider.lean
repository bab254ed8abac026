import PublicPool.Types
import PublicPool.Utils.Difficulty

/-!
# `PublicPool.TemplateProvider`: the templates miners build their own work on

The model of `services/template-provider.service.ts`. The service keeps the recent job
templates and checks what DATUM gateways and SV2 job declarators send against them.

`validateDatumTemplateFastPath` compares the fields of a DATUM job with the latest template.
`buildCoinbasePayoutOutputs` turns a payout list into the outputs a coinbase must have, and
`validateCoinbaseTransactionPayoutOutputs` compares a coinbase with them, output by output,
leaving out witness commitments and outputs without value.
-/

set_option autoImplicit false

namespace PublicPool

/-- `TemplateProviderTemplate`, with the fields the checks read. -/
structure TemplateProviderTemplate where
  templateId : ℕ
  jobTemplate : JobTemplate
  version : ℤ
  prevHash : Bytes
  nBits : ℤ
  coinbaseValue : ℤ
  height : ℤ
  sigopLimit : ℕ
  sizeLimit : ℕ
  weightLimit : ℕ

/-- The template the provider makes of a job template whose id is the hexadecimal text of
`templateId`. -/
def TemplateProviderTemplate.ofJobTemplate (templateId : ℕ) (jobTemplate : JobTemplate) :
    TemplateProviderTemplate :=
  { templateId
    jobTemplate
    version := jobTemplate.block.version
    prevHash := jobTemplate.block.prevHash
    nBits := jobTemplate.block.bits
    coinbaseValue := jobTemplate.blockData.coinbasevalue
    height := jobTemplate.blockData.height
    sigopLimit := jobTemplate.blockData.sigoplimit.getD 80000
    sizeLimit := jobTemplate.blockData.sizelimit.getD 4000000
    weightLimit := jobTemplate.blockData.weightlimit.getD 4000000 }

/-- `targetFromDifficulty`: the target that a template is announced with. `BigInt(Infinity)`
throws. -/
def targetFromDifficulty : Option ℚ → Option Bytes
  | none => none
  | some difficulty =>
    let maxTarget := 0xffff <<< (8 * (0x1d - 3))
    let divisor := (max 1 ⌊difficulty⌋).toNat
    some (DifficultyUtils.bigIntToLe256 (maxTarget / divisor))

/-! ### The DATUM fast path -/

/-- `DatumTemplateValidationInput`. -/
structure DatumTemplateValidationInput where
  prevBlockHash : Option Bytes
  nBits : Option Bytes
  height : Option ℤ
  version : Option ℤ
  coinbaseValue : Option ℤ
  totalWeight : Option ℕ
  totalSize : Option ℕ
  totalSigops : Option ℕ
  merkleBranches : Option (List Bytes)

/-- `VERSION_ROLLING_MASK`. -/
def versionRollingMask : BitVec 32 := 0x1fffe000#32

/-- `isCompatibleVersion`: the versions differ in rolling bits only. -/
def isCompatibleVersion (candidate templateVersion : ℤ) : Bool :=
  (BitVec.ofInt 32 candidate ^^^ BitVec.ofInt 32 templateVersion) &&& ~~~versionRollingMask = 0#32

/-- `matchesHash`: a hash may be given in either byte order. -/
def matchesHash (candidate expected : Bytes) : Bool :=
  candidate = expected || candidate = expected.reverse

/-- A check on a field that may be absent. -/
def failsWith {α : Type*} (field : Option α) (bad : α → Bool) : Bool :=
  match field with
  | some value => bad value
  | none => false

/-- The error code of `validateDatumTemplateFastPath`, or `none` when the job matches the
latest template. -/
def validateDatumTemplateFastPath (latestTemplate : Option TemplateProviderTemplate)
    (input : DatumTemplateValidationInput) : Option String :=
  match latestTemplate with
  | none => some "template-not-found"
  | some template =>
    if failsWith input.prevBlockHash fun hash => !matchesHash hash template.prevHash then
      some "prevhash-mismatch"
    else if failsWith input.nBits fun nBits => nBits.length ≠ 4 then some "nbits-mismatch"
    else if failsWith input.nBits fun nBits => readUInt32LE nBits ≠ some template.nBits then
      some "nbits-mismatch"
    else if failsWith input.height fun height => height ≠ template.height then
      some "height-mismatch"
    else if failsWith input.version fun version => !isCompatibleVersion version template.version then
      some "version-mismatch"
    else if failsWith input.coinbaseValue fun value => template.coinbaseValue < value then
      some "coinbase-value-too-high"
    else if failsWith input.totalWeight fun weight => template.weightLimit < weight then
      some "weight-limit-exceeded"
    else if failsWith input.totalSize fun size => template.sizeLimit < size then
      some "size-limit-exceeded"
    else if failsWith input.totalSigops fun sigops => template.sigopLimit < sigops then
      some "sigop-limit-exceeded"
    else if failsWith input.merkleBranches fun branches =>
        branches.any fun branch => branch.length ≠ 32 then
      some "bad-merkle-branch"
    else none

/-! ### Transactions -/

/-- The sibling on the path at one level: the node beside `index`, or the node itself. -/
def siblingAt (level : List Bytes) (index : ℕ) : Bytes :=
  (level[index ^^^ 1]?).getD ((level[index]?).getD [])

/-- The next level of the merkle tree. A last node without a partner is paired with itself. -/
def nextMerkleLevel (host : Externals) : List Bytes → List Bytes
  | left :: right :: rest => (host.hash256 (left ++ right)).bytes :: nextMerkleLevel host rest
  | [left] => [(host.hash256 (left ++ left)).bytes]
  | [] => []

theorem length_nextMerkleLevel (host : Externals) (level : List Bytes) :
    (nextMerkleLevel host level).length = (level.length + 1) / 2 := by
  induction level using nextMerkleLevel.induct with
  | case1 left right rest ih =>
    simp only [nextMerkleLevel, List.length_cons, ih]
    omega
  | case2 left => simp [nextMerkleLevel]
  | case3 => simp [nextMerkleLevel]

/-- The siblings from a node up to the root. -/
def merklePathFrom (host : Externals) (level : List Bytes) (index : ℕ) : List Bytes :=
  if h : 1 < level.length then
    siblingAt level index :: merklePathFrom host (nextMerkleLevel host level) (index / 2)
  else []
termination_by level.length
decreasing_by
  rw [length_nextMerkleLevel]
  omega

/-- `transaction.getHash(false)`. -/
def Transaction.txHash (host : Externals) (tx : Transaction) : Digest :=
  host.hash256 (host.toLegacyBuffer tx)

/-- `buildCoinbaseMerklePath`, which throws on bytes that are no transaction. -/
def buildCoinbaseMerklePath (host : Externals) (transactionList : List Bytes) :
    Option (List Bytes) := do
  let transactions ← transactionList.mapM host.fromBuffer
  let leaves := List.replicate 32 0 :: transactions.map fun tx => (tx.txHash host).bytes
  return merklePathFrom host leaves 0

/-- The first error among the transactions of a list: one that goes past the size limit, or
one that does not decode. -/
def checkTransactionData (host : Externals) (maxTotalBytes : Option ℕ) :
    ℕ → ℕ → List Bytes → Option String
  | _, _, [] => none
  | i, totalBytes, raw :: rest =>
    let totalBytes := totalBytes + raw.length
    if failsWith maxTotalBytes fun limit => limit < totalBytes then
      some s!"transaction-bytes-exceed-limit:{totalBytes}:{maxTotalBytes.getD 0}"
    else if (host.fromBuffer raw).isNone then some s!"transaction-decode-failed:{i}"
    else checkTransactionData host maxTotalBytes (i + 1) totalBytes rest

/-- The first index at which two merkle paths of one length differ. -/
def firstMismatch : ℕ → List Bytes → List Bytes → Option ℕ
  | i, a :: as, b :: bs => if a = b then firstMismatch (i + 1) as bs else some i
  | _, _, _ => none

/-- The error code of `validateTransactionData`, or `none` when the transactions are valid. -/
def validateTransactionData (host : Externals) (transactionList : List Bytes)
    (expectedCount maxTotalBytes : Option ℕ) (expectedCoinbaseMerklePath : Option (List Bytes)) :
    Option String :=
  if failsWith expectedCount fun count => transactionList.length ≠ count then
    some s!"transaction-count-mismatch:{expectedCount.getD 0}:{transactionList.length}"
  else match checkTransactionData host maxTotalBytes 0 0 transactionList with
    | some error => some error
    | none =>
      match expectedCoinbaseMerklePath with
      | none => none
      | some expected =>
        let merklePath := (buildCoinbaseMerklePath host transactionList).getD []
        if merklePath.length ≠ expected.length then
          some s!"merkle-path-length-mismatch:{expected.length}:{merklePath.length}"
        else (firstMismatch 0 merklePath expected).map fun i => s!"merkle-path-mismatch:{i}"

/-! ### Coinbase outputs -/

/-- `CoinbasePayoutOutput`. -/
structure CoinbasePayoutOutput where
  value : ℤ
  scriptPubKey : Bytes
  deriving DecidableEq

/-- The outputs for a payout list, with what the list leaves of the reward on the first. An
address the package rejects throws. -/
def buildCoinbasePayoutOutputs (host : Externals) (network : Network)
    (payoutInformation : List AddressObject) (rewardValue : ℤ) :
    Option (List CoinbasePayoutOutput) := do
  let outputs ← payoutInformation.mapM fun recipient => do
    let scriptPubKey ← host.toOutputScript recipient.address network
    return { value := recipient.amount rewardValue, scriptPubKey : CoinbasePayoutOutput }
  let rewardBalance := rewardValue - (outputs.map (·.value)).sum
  match outputs with
  | [] => return []
  | first :: rest => return { first with value := first.value + rewardBalance } :: rest

/-- The outputs of a coinbase that `validateCoinbaseTransactionPayoutOutputs` compares. -/
def payoutOutputsOf (tx : Transaction) : List CoinbasePayoutOutput :=
  (tx.outs.filter fun output => !isWitnessCommitmentOutput output.script && output.value ≠ 0).map
    fun output => { value := output.value, scriptPubKey := output.script }

/-- The first index at which two output lists of one length differ. -/
def firstOutputMismatch : ℕ → List CoinbasePayoutOutput → List CoinbasePayoutOutput → Option ℕ
  | i, a :: as, b :: bs => if a = b then firstOutputMismatch (i + 1) as bs else some i
  | _, _, _ => none

/-- The error code of `validateCoinbaseTransactionPayoutOutputs`, `some none` when the coinbase
pays the list, or `none` when the payout list itself throws. -/
def validateCoinbaseTransactionPayoutOutputs (host : Externals) (network : Network)
    (coinbaseTx : Bytes) (payoutInformation : List AddressObject) (coinbaseValue : ℤ) :
    Option (Option String) := do
  let expectedOutputs ←
    buildCoinbasePayoutOutputs host network payoutInformation coinbaseValue
  if expectedOutputs = [] then return some "missing-expected-coinbase-payouts"
  match host.fromBuffer coinbaseTx with
  | none => return some "invalid-coinbase-transaction"
  | some tx =>
    let submittedOutputs := payoutOutputsOf tx
    if submittedOutputs.length ≠ expectedOutputs.length then
      return some
        s!"coinbase-payout-output-count-mismatch:{expectedOutputs.length}:{submittedOutputs.length}"
    return (firstOutputMismatch 0 expectedOutputs submittedOutputs).map fun i =>
      s!"coinbase-payout-output-mismatch:{i}"

end PublicPool
