import PublicPool.Sv2.BinaryCodec

/-!
# `PublicPool.Sv2.Wire.JobDeclaration`: messages of the job declaration protocol

`models/sv2/sv2-jdp-messages.ts`, with the fields as they are on the wire and their ranges,
and the messages about custom jobs that travel on the mining connection.
-/

set_option autoImplicit false

namespace PublicPool.Sv2.Wire

open BufferWriter BufferReader

structure Sv2AllocateMiningJobToken where
  userIdentifier : String
  requestId : ℕ

def Sv2AllocateMiningJobToken.InRange (msg : Sv2AllocateMiningJobToken) : Prop :=
  IsStr0_255 msg.userIdentifier ∧ IsU32 msg.requestId

def serializeAllocateMiningJobToken (msg : Sv2AllocateMiningJobToken) : Option Bytes := toBuffer do
  writeStr0_255 msg.userIdentifier
  writeU32 msg.requestId

def deserializeAllocateMiningJobToken : BufferReader Sv2AllocateMiningJobToken := do
  return {
    userIdentifier := ← readStr0_255
    requestId := ← readU32 }

structure Sv2AllocateMiningJobTokenSuccess where
  requestId : ℕ
  miningJobToken : Bytes
  coinbaseOutputs : Bytes

def Sv2AllocateMiningJobTokenSuccess.InRange (msg : Sv2AllocateMiningJobTokenSuccess) : Prop :=
  IsU32 msg.requestId ∧ IsB0_255 msg.miningJobToken ∧ IsB0_64K msg.coinbaseOutputs

def serializeAllocateMiningJobTokenSuccess (msg : Sv2AllocateMiningJobTokenSuccess) :
    Option Bytes := toBuffer do
  writeU32 msg.requestId
  writeB0_255 msg.miningJobToken
  writeB0_64K msg.coinbaseOutputs

def deserializeAllocateMiningJobTokenSuccess : BufferReader Sv2AllocateMiningJobTokenSuccess := do
  return {
    requestId := ← readU32
    miningJobToken := ← readB0_255
    coinbaseOutputs := ← readB0_64K }

structure Sv2DeclareMiningJob where
  requestId : ℕ
  miningJobToken : Bytes
  version : ℕ
  coinbaseTxPrefix : Bytes
  coinbaseTxSuffix : Bytes
  wtxidList : List Bytes
  excessData : Bytes

def Sv2DeclareMiningJob.InRange (msg : Sv2DeclareMiningJob) : Prop :=
  IsU32 msg.requestId ∧ IsB0_255 msg.miningJobToken ∧ IsU32 msg.version ∧
  IsB0_64K msg.coinbaseTxPrefix ∧ IsB0_64K msg.coinbaseTxSuffix ∧
  IsSeq0_64K IsU256 msg.wtxidList ∧ IsB0_64K msg.excessData

def serializeDeclareMiningJob (msg : Sv2DeclareMiningJob) : Option Bytes := toBuffer do
  writeU32 msg.requestId
  writeB0_255 msg.miningJobToken
  writeU32 msg.version
  writeB0_64K msg.coinbaseTxPrefix
  writeB0_64K msg.coinbaseTxSuffix
  writeSeq0_64K msg.wtxidList writeU256
  writeB0_64K msg.excessData

def deserializeDeclareMiningJob : BufferReader Sv2DeclareMiningJob := do
  return {
    requestId := ← readU32
    miningJobToken := ← readB0_255
    version := ← readU32
    coinbaseTxPrefix := ← readB0_64K
    coinbaseTxSuffix := ← readB0_64K
    wtxidList := ← readSeq0_64K readU256
    excessData := ← readB0_64K }

structure Sv2DeclareMiningJobSuccess where
  requestId : ℕ
  newMiningJobToken : Bytes

def Sv2DeclareMiningJobSuccess.InRange (msg : Sv2DeclareMiningJobSuccess) : Prop :=
  IsU32 msg.requestId ∧ IsB0_255 msg.newMiningJobToken

def serializeDeclareMiningJobSuccess (msg : Sv2DeclareMiningJobSuccess) :
    Option Bytes := toBuffer do
  writeU32 msg.requestId
  writeB0_255 msg.newMiningJobToken

def deserializeDeclareMiningJobSuccess : BufferReader Sv2DeclareMiningJobSuccess := do
  return {
    requestId := ← readU32
    newMiningJobToken := ← readB0_255 }

structure Sv2DeclareMiningJobError where
  requestId : ℕ
  errorCode : String
  errorDetails : Bytes

def Sv2DeclareMiningJobError.InRange (msg : Sv2DeclareMiningJobError) : Prop :=
  IsU32 msg.requestId ∧ IsStr0_255 msg.errorCode ∧ IsB0_64K msg.errorDetails

def serializeDeclareMiningJobError (msg : Sv2DeclareMiningJobError) : Option Bytes := toBuffer do
  writeU32 msg.requestId
  writeStr0_255 msg.errorCode
  writeB0_64K msg.errorDetails

def deserializeDeclareMiningJobError : BufferReader Sv2DeclareMiningJobError := do
  return {
    requestId := ← readU32
    errorCode := ← readStr0_255
    errorDetails := ← readB0_64K }

structure Sv2ProvideMissingTransactions where
  requestId : ℕ
  unknownTxPositionList : List ℕ

def Sv2ProvideMissingTransactions.InRange (msg : Sv2ProvideMissingTransactions) : Prop :=
  IsU32 msg.requestId ∧ IsSeq0_64K IsU16 msg.unknownTxPositionList

def serializeProvideMissingTransactions (msg : Sv2ProvideMissingTransactions) :
    Option Bytes := toBuffer do
  writeU32 msg.requestId
  writeSeq0_64K msg.unknownTxPositionList writeU16

def deserializeProvideMissingTransactions : BufferReader Sv2ProvideMissingTransactions := do
  return {
    requestId := ← readU32
    unknownTxPositionList := ← readSeq0_64K readU16 }

structure Sv2ProvideMissingTransactionsSuccess where
  requestId : ℕ
  transactionList : List Bytes

def Sv2ProvideMissingTransactionsSuccess.InRange
    (msg : Sv2ProvideMissingTransactionsSuccess) : Prop :=
  IsU32 msg.requestId ∧ IsSeq0_64K IsB0_16M msg.transactionList

def serializeProvideMissingTransactionsSuccess (msg : Sv2ProvideMissingTransactionsSuccess) :
    Option Bytes := toBuffer do
  writeU32 msg.requestId
  writeSeq0_64K msg.transactionList writeB0_16M

def deserializeProvideMissingTransactionsSuccess :
    BufferReader Sv2ProvideMissingTransactionsSuccess := do
  return {
    requestId := ← readU32
    transactionList := ← readSeq0_64K readB0_16M }

structure Sv2PushSolution where
  extranonce : Bytes
  prevHash : Bytes
  nonce : ℕ
  ntime : ℕ
  nBits : ℕ
  version : ℕ

def Sv2PushSolution.InRange (msg : Sv2PushSolution) : Prop :=
  IsB0_32 msg.extranonce ∧ IsU256 msg.prevHash ∧ IsU32 msg.nonce ∧ IsU32 msg.ntime ∧
  IsU32 msg.nBits ∧ IsU32 msg.version

def serializePushSolution (msg : Sv2PushSolution) : Option Bytes := toBuffer do
  writeB0_32 msg.extranonce
  writeU256 msg.prevHash
  writeU32 msg.nonce
  writeU32 msg.ntime
  writeU32 msg.nBits
  writeU32 msg.version

def deserializePushSolution : BufferReader Sv2PushSolution := do
  return {
    extranonce := ← readB0_32
    prevHash := ← readU256
    nonce := ← readU32
    ntime := ← readU32
    nBits := ← readU32
    version := ← readU32 }

structure Sv2SetCustomMiningJob where
  channelId : ℕ
  requestId : ℕ
  token : Bytes
  version : ℕ
  prevHash : Bytes
  minNtime : ℕ
  nBits : ℕ
  coinbaseTxVersion : ℕ
  coinbasePrefix : Bytes
  coinbaseTxInputNSequence : ℕ
  coinbaseTxOutputs : Bytes
  coinbaseTxLocktime : ℕ
  merklePath : List Bytes

def Sv2SetCustomMiningJob.InRange (msg : Sv2SetCustomMiningJob) : Prop :=
  IsU32 msg.channelId ∧ IsU32 msg.requestId ∧ IsB0_255 msg.token ∧ IsU32 msg.version ∧
  IsU256 msg.prevHash ∧ IsU32 msg.minNtime ∧ IsU32 msg.nBits ∧ IsU32 msg.coinbaseTxVersion ∧
  IsB0_255 msg.coinbasePrefix ∧ IsU32 msg.coinbaseTxInputNSequence ∧
  IsB0_64K msg.coinbaseTxOutputs ∧ IsU32 msg.coinbaseTxLocktime ∧ IsSeq0_255 IsU256 msg.merklePath

def serializeSetCustomMiningJob (msg : Sv2SetCustomMiningJob) : Option Bytes := toBuffer do
  writeU32 msg.channelId
  writeU32 msg.requestId
  writeB0_255 msg.token
  writeU32 msg.version
  writeU256 msg.prevHash
  writeU32 msg.minNtime
  writeU32 msg.nBits
  writeU32 msg.coinbaseTxVersion
  writeB0_255 msg.coinbasePrefix
  writeU32 msg.coinbaseTxInputNSequence
  writeB0_64K msg.coinbaseTxOutputs
  writeU32 msg.coinbaseTxLocktime
  writeSeq0_255 msg.merklePath writeU256

def deserializeSetCustomMiningJob : BufferReader Sv2SetCustomMiningJob := do
  return {
    channelId := ← readU32
    requestId := ← readU32
    token := ← readB0_255
    version := ← readU32
    prevHash := ← readU256
    minNtime := ← readU32
    nBits := ← readU32
    coinbaseTxVersion := ← readU32
    coinbasePrefix := ← readB0_255
    coinbaseTxInputNSequence := ← readU32
    coinbaseTxOutputs := ← readB0_64K
    coinbaseTxLocktime := ← readU32
    merklePath := ← readSeq0_255 readU256 }

structure Sv2SetCustomMiningJobSuccess where
  channelId : ℕ
  requestId : ℕ
  jobId : ℕ

def Sv2SetCustomMiningJobSuccess.InRange (msg : Sv2SetCustomMiningJobSuccess) : Prop :=
  IsU32 msg.channelId ∧ IsU32 msg.requestId ∧ IsU32 msg.jobId

def serializeSetCustomMiningJobSuccess (msg : Sv2SetCustomMiningJobSuccess) :
    Option Bytes := toBuffer do
  writeU32 msg.channelId
  writeU32 msg.requestId
  writeU32 msg.jobId

def deserializeSetCustomMiningJobSuccess : BufferReader Sv2SetCustomMiningJobSuccess := do
  return {
    channelId := ← readU32
    requestId := ← readU32
    jobId := ← readU32 }

structure Sv2SetCustomMiningJobError where
  channelId : ℕ
  requestId : ℕ
  errorCode : String

def Sv2SetCustomMiningJobError.InRange (msg : Sv2SetCustomMiningJobError) : Prop :=
  IsU32 msg.channelId ∧ IsU32 msg.requestId ∧ IsStr0_255 msg.errorCode

def serializeSetCustomMiningJobError (msg : Sv2SetCustomMiningJobError) :
    Option Bytes := toBuffer do
  writeU32 msg.channelId
  writeU32 msg.requestId
  writeStr0_255 msg.errorCode

def deserializeSetCustomMiningJobError : BufferReader Sv2SetCustomMiningJobError := do
  return {
    channelId := ← readU32
    requestId := ← readU32
    errorCode := ← readStr0_255 }

/-- The messages that go both ways, with their ranges. -/
def jobDeclarationMessages : List MessageCodec :=
  [⟨_, Sv2AllocateMiningJobToken.InRange, serializeAllocateMiningJobToken,
      deserializeAllocateMiningJobToken⟩,
    ⟨_, Sv2AllocateMiningJobTokenSuccess.InRange, serializeAllocateMiningJobTokenSuccess,
      deserializeAllocateMiningJobTokenSuccess⟩,
    ⟨_, Sv2DeclareMiningJob.InRange, serializeDeclareMiningJob, deserializeDeclareMiningJob⟩,
    ⟨_, Sv2DeclareMiningJobSuccess.InRange, serializeDeclareMiningJobSuccess,
      deserializeDeclareMiningJobSuccess⟩,
    ⟨_, Sv2DeclareMiningJobError.InRange, serializeDeclareMiningJobError,
      deserializeDeclareMiningJobError⟩,
    ⟨_, Sv2ProvideMissingTransactions.InRange, serializeProvideMissingTransactions,
      deserializeProvideMissingTransactions⟩,
    ⟨_, Sv2ProvideMissingTransactionsSuccess.InRange, serializeProvideMissingTransactionsSuccess,
      deserializeProvideMissingTransactionsSuccess⟩,
    ⟨_, Sv2PushSolution.InRange, serializePushSolution, deserializePushSolution⟩,
    ⟨_, Sv2SetCustomMiningJob.InRange, serializeSetCustomMiningJob, deserializeSetCustomMiningJob⟩,
    ⟨_, Sv2SetCustomMiningJobSuccess.InRange, serializeSetCustomMiningJobSuccess,
      deserializeSetCustomMiningJobSuccess⟩,
    ⟨_, Sv2SetCustomMiningJobError.InRange, serializeSetCustomMiningJobError,
      deserializeSetCustomMiningJobError⟩]

end PublicPool.Sv2.Wire
