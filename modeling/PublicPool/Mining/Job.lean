import PublicPool.Types

/-!
# `PublicPool.Mining.Job`: the coinbase of a pool job

The model of `models/MiningJob.ts`. A job is a template with a coinbase of its own: it pays a
payout list, leaves room for the extranonce at the end of its input script and commits to the
transactions of the template. `buildHeaderBuffer` makes the header of a share from the
numbers a miner submits, `copyAndUpdateBlock` the block.

`none` is a throw: a recipient whose address is not recognized, an amount that is none, an
empty payout list, or a number that does not fit its field.
-/

set_option autoImplicit false

namespace PublicPool

namespace Js

/-- `s.indexOf(part)`. -/
def indexOf (s part : List Char) : ℤ :=
  match (List.range (s.length + 1)).find? fun i => part.isPrefixOf (s.drop i) with
  | some i => i
  | none => -1

/-- `s.slice(start, stop)`, where a negative position counts from the end. -/
def slice (s : List Char) (start stop : ℤ) : List Char :=
  let position (i : ℤ) : ℕ := (if i < 0 then s.length + i else i).toNat
  (s.drop (position start)).take (position stop - position start)

end Js

/-- `EXTRANONCE1_SIZE_BYTES + EXTRANONCE2_SIZE_BYTES`. -/
def totalExtranonceSizeBytes : ℕ := 4 + 8

/-- `MiningJob`. -/
structure MiningJob where
  jobId : String
  jobTemplateId : String
  creation : ℕ
  payoutAddress : Option String
  payoutWorker : Option String
  coinbaseTransaction : Transaction
  coinbasePart1 : List Char
  coinbasePart2 : List Char
  merkleBranches : List Bytes
  deriving DecidableEq

variable (host : Externals) (network : Network)

/-- `getPaymentScript`. -/
def getPaymentScript (address : String) : Option Bytes := do
  let addressType ← host.getAddressInfo address
  host.paymentOutput addressType address network

/-- The amounts `addOutput` takes. -/
def isSatoshi (value : ℤ) : Bool := 0 ≤ value && value ≤ 21 * 10 ^ 14

/-- The outputs of a payout list, with what the list leaves of the reward on the first. -/
def payoutOutputsFor (addresses : List AddressObject) (reward : ℤ) :
    Option (List TxOutput) := do
  let outs ← addresses.mapM fun recipient => do
    let script ← getPaymentScript host network recipient.address
    let amount := recipient.amount reward
    if isSatoshi amount then return { value := amount, script : TxOutput } else none
  let rewardBalance := reward - (outs.map (·.value)).sum
  match outs with
  | [] => none
  | first :: rest => return { first with value := first.value + rewardBalance } :: rest

/-- `createCoinbaseTransaction`. -/
def createCoinbaseTransaction (addresses : List AddressObject) (reward : ℤ) :
    Option Transaction := do
  let outs ← payoutOutputsFor host network addresses reward
  return {
    version := 2
    ins := [{
      hash := List.replicate 32 0
      index := 0xffffffff
      script := []
      sequence := 0xffffffff
      witness := [List.replicate 32 0] }]
    outs
    locktime := 0 }

/-- `Buffer.from('pool.powermining.io')`. -/
def coinbaseTag : Bytes := "pool.powermining.io".toList.map fun c => UInt8.ofNat c.toNat

/-- The input script of a job: the height, the pool's tag and room for the extranonce. -/
def coinbaseScript (height : ℤ) : Bytes :=
  let blockHeightEncoded := host.scriptNumberEncode height
  UInt8.ofNat blockHeightEncoded.length :: blockHeightEncoded ++ coinbaseTag
    ++ List.replicate (totalExtranonceSizeBytes + 3 - blockHeightEncoded.length) 0

/-- The output that commits to the witnesses of a template. -/
def witnessCommitmentOutput (witnessCommit : Bytes) : TxOutput where
  value := 0
  script := host.compileOpReturn ([0xaa, 0x21, 0xa9, 0xed] ++ witnessCommit)

/-- The values the serialization can write. -/
def isSerializableValue (value : ℤ) : Bool := 0 ≤ value && value ≤ 2 ^ 53 - 1

/-- The coinbase of a job. -/
def jobCoinbase (payoutInformation : List AddressObject) (jobTemplate : JobTemplate) :
    Option Transaction := do
  let coinbase ← createCoinbaseTransaction host network payoutInformation
    jobTemplate.blockData.coinbasevalue
  return { coinbase with
    ins := coinbase.ins.map fun input =>
      { input with script := coinbaseScript host jobTemplate.blockData.height }
    outs := coinbase.outs ++ [witnessCommitmentOutput host jobTemplate.block.witnessCommit] }

/-- The constructor of `MiningJob`. The two parts of the coinbase are what stands before and
after the extranonce in the hexadecimal text of its serialization. -/
def MiningJob.create (jobId : String) (payoutInformation : List AddressObject)
    (jobTemplate : JobTemplate) (payoutWorker : Option String) (now : ℕ) : Option MiningJob := do
  let coinbaseTransaction ← jobCoinbase host network payoutInformation jobTemplate
  if coinbaseTransaction.outs.all fun output => isSerializableValue output.value then
    let serializedCoinbaseTx := Js.toHex (host.toLegacyBuffer coinbaseTransaction)
    let inputScript := Js.toHex (coinbaseScript host jobTemplate.blockData.height)
    let partOneIndex := Js.indexOf serializedCoinbaseTx inputScript + inputScript.length
    return {
      jobId
      jobTemplateId := jobTemplate.blockData.id
      creation := now
      payoutAddress := payoutInformation.getLast?.map (·.address)
      payoutWorker
      coinbaseTransaction
      coinbasePart1 :=
        Js.slice serializedCoinbaseTx 0 (partOneIndex - totalExtranonceSizeBytes * 2)
      coinbasePart2 := Js.slice serializedCoinbaseTx partOneIndex serializedCoinbaseTx.length
      merkleBranches := jobTemplate.merkleBranch }
  else none

/-- What the fields of a job are. -/
theorem MiningJob.fields_create {network : Network} {jobId : String}
    {payoutInformation : List AddressObject} {jobTemplate : JobTemplate}
    {payoutWorker : Option String} {now : ℕ} {job : MiningJob}
    (h : MiningJob.create host network jobId payoutInformation jobTemplate payoutWorker now
      = some job) :
    job.jobId = jobId ∧ job.creation = now ∧ job.jobTemplateId = jobTemplate.blockData.id ∧
      job.payoutAddress = payoutInformation.getLast?.map (·.address) ∧
      job.payoutWorker = payoutWorker ∧
      jobCoinbase host network payoutInformation jobTemplate = some job.coinbaseTransaction := by
  unfold MiningJob.create at h
  cases hcoinbase : jobCoinbase host network payoutInformation jobTemplate with
  | none =>
    rw [hcoinbase] at h
    cases h
  | some coinbase =>
    rw [hcoinbase, Option.bind_eq_bind, Option.bind_some] at h
    split at h
    · cases h
      exact ⟨rfl, rfl, rfl, rfl, rfl, rfl⟩
    · cases h

/-- The bytes of the coinbase that a share hashes. -/
def MiningJob.coinbaseBytes (job : MiningJob) (extraNonce extraNonce2 : List Char) : Bytes :=
  Js.bufferFromHex job.coinbasePart1 ++ Js.bufferFromHex (extraNonce ++ extraNonce2)
    ++ Js.bufferFromHex job.coinbasePart2

/-- A template's version with the bits of a mask flipped, if there are any. A mask that is no
number flips none, but makes the version a signed 32-bit number. -/
def rollVersion (version : ℤ) (versionMask : Option ℤ) : ℤ :=
  if versionMask = some 0 then version else Js.bitXor (some version) versionMask

/-- Modulo `2 ^ 32`, rolling a version is an exclusive or, whatever the mask is. -/
theorem ofInt_rollVersion (version : ℤ) (versionMask : Option ℤ) :
    BitVec.ofInt 32 (rollVersion version versionMask)
      = BitVec.ofInt 32 version ^^^ BitVec.ofInt 32 (versionMask.getD 0) := by
  have htoInt32 (n : Option ℤ) :
      BitVec.ofInt 32 (Js.toInt32 n) = BitVec.ofInt 32 (n.getD 0) := by
    cases n with
    | none => rfl
    | some n =>
      apply BitVec.eq_of_toNat_eq
      simp only [Js.toInt32, BitVec.toNat_ofInt, Option.getD_some]
      congr 1
      exact Int.bmod_emod ..
  unfold rollVersion
  split
  · rename_i hzero
    rw [hzero, Option.getD_some, BitVec.ofInt_ofNat, BitVec.xor_zero]
  · rw [Js.bitXor, BitVec.ofInt_toInt, htoInt32, htoInt32, Option.getD_some]

/-- `buildHeaderBuffer`. -/
def MiningJob.buildHeaderBuffer (job : MiningJob) (jobTemplate : JobTemplate)
    (versionMask nonce : Option ℤ) (extraNonce extraNonce2 : List Char)
    (timestamp : Option ℤ) : Option Bytes := do
  let coinbaseHash := host.hash256 (job.coinbaseBytes extraNonce extraNonce2)
  let merkleRoot := merkleRootOfPath host coinbaseHash job.merkleBranches
  let versionBytes ← Js.writeInt32LE (rollVersion jobTemplate.block.version versionMask)
  let timestampBytes ← Js.writeUInt32LE timestamp
  let bitsBytes ← Js.writeUInt32LE (some jobTemplate.block.bits)
  let nonceBytes ← Js.writeUInt32LE nonce
  return versionBytes ++ fit 32 jobTemplate.block.prevHash ++ merkleRoot.bytes
    ++ timestampBytes ++ bitsBytes ++ nonceBytes

/-- The job's coinbase with the extranonce in place of the room the job left for it. -/
def MiningJob.blockCoinbase (job : MiningJob) (extraNonce extraNonce2 : List Char) :
    Option Transaction := do
  let coinbase ← host.fromBuffer (host.toBuffer job.coinbaseTransaction)
  let input ← coinbase.ins.head?
  let nonceScript := Js.toHex input.script
  let script := Js.bufferFromHex
    (nonceScript.take (nonceScript.length - totalExtranonceSizeBytes * 2)
      ++ extraNonce ++ extraNonce2)
  return { coinbase with ins := { input with script } :: coinbase.ins.tail }

/-- The merkle root over a coinbase of the job. -/
def MiningJob.blockMerkleRoot (job : MiningJob) (coinbase : Transaction) : Digest :=
  merkleRootOfPath host (host.hash256 (host.toLegacyBuffer coinbase)) job.merkleBranches

/-- The header of a block as the block package writes it. -/
def blockHeaderBytes (version : ℤ) (prevHash : Bytes) (merkleRoot : Digest)
    (timestamp bits nonce : Option ℤ) : Option Bytes := do
  let versionBytes ← Js.writeInt32LE version
  let timestampBytes ← Js.writeUInt32LE timestamp
  let bitsBytes ← Js.writeUInt32LE bits
  let nonceBytes ← Js.writeUInt32LE nonce
  return versionBytes ++ fit 32 prevHash ++ merkleRoot.bytes ++ timestampBytes ++ bitsBytes
    ++ nonceBytes

theorem blockHeaderBytes_eq_some {version : ℤ} {prevHash : Bytes} {merkleRoot : Digest}
    {timestamp bits nonce : Option ℤ} {header : Bytes}
    (h : blockHeaderBytes version prevHash merkleRoot timestamp bits nonce = some header) :
    (headerFieldsOf prevHash merkleRoot version (timestamp.getD 0) (bits.getD 0)
      (nonce.getD 0)).bytes = header := by
  simp only [blockHeaderBytes, Option.bind_eq_bind, Option.bind_eq_some_iff, Option.pure_def,
    Option.some.injEq] at h
  obtain ⟨versionBytes, hversion, timestampBytes, htimestamp, bitsBytes, hbits, nonceBytes, hnonce,
    rfl⟩ := h
  rw [Js.writeInt32LE_eq_some hversion, Js.writeUInt32LE_eq_some htimestamp,
    Js.writeUInt32LE_eq_some hbits, Js.writeUInt32LE_eq_some hnonce]
  simp only [HeaderFields.bytes, headerFieldsOf, le32_toInt_ofInt]

/-- `copyAndUpdateBlock`, with the coinbase of the block and the block's bytes. -/
def MiningJob.copyAndUpdateBlock (job : MiningJob) (jobTemplate : JobTemplate)
    (versionMask nonce : Option ℤ) (extraNonce extraNonce2 : List Char)
    (timestamp : Option ℤ) : Option (Transaction × Bytes) := do
  let coinbase ← job.blockCoinbase host extraNonce extraNonce2
  let header ← blockHeaderBytes (rollVersion jobTemplate.block.version versionMask)
    jobTemplate.block.prevHash (job.blockMerkleRoot host coinbase) timestamp
    (some jobTemplate.block.bits) nonce
  return (coinbase, blockBytes host header (coinbase :: jobTemplate.block.transactions.tail))

/-- `getPayoutInformation`: in pplns mode the payout list of the template, if it has one. -/
def getPayoutInformation (payoutMode : PayoutMode) (jobTemplate : JobTemplate)
    (fallbackAddress : String) : List AddressObject :=
  match payoutMode, jobTemplate.blockData.payoutOutputs with
  | .pplns, some (output :: outputs) => output :: outputs
  | _, _ => [{ address := fallbackAddress, percent := some 100, amountSats := none }]

end PublicPool
