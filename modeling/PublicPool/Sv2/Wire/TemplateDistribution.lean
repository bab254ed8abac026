import PublicPool.Sv2.BinaryCodec

/-!
# `PublicPool.Sv2.Wire.TemplateDistribution`: messages of the template distribution protocol

`models/sv2/sv2-tdp-messages.ts`, with the fields as they are on the wire and their ranges.
-/

set_option autoImplicit false

namespace PublicPool.Sv2.Wire

open BufferWriter BufferReader

structure Sv2TdpCoinbaseOutputConstraints where
  coinbaseOutputMaxAdditionalSize : ℕ
  coinbaseOutputMaxAdditionalSigops : ℕ

def Sv2TdpCoinbaseOutputConstraints.InRange (msg : Sv2TdpCoinbaseOutputConstraints) : Prop :=
  IsU32 msg.coinbaseOutputMaxAdditionalSize ∧ IsU16 msg.coinbaseOutputMaxAdditionalSigops

def serializeTdpCoinbaseOutputConstraints (msg : Sv2TdpCoinbaseOutputConstraints) :
    Option Bytes := toBuffer do
  writeU32 msg.coinbaseOutputMaxAdditionalSize
  writeU16 msg.coinbaseOutputMaxAdditionalSigops

def deserializeTdpCoinbaseOutputConstraints : BufferReader Sv2TdpCoinbaseOutputConstraints := do
  return {
    coinbaseOutputMaxAdditionalSize := ← readU32
    coinbaseOutputMaxAdditionalSigops := ← readU16 }

structure Sv2TdpNewTemplate where
  templateId : ℕ
  futureTemplate : Bool
  version : ℕ
  coinbaseTxVersion : ℕ
  coinbasePrefix : Bytes
  coinbaseTxInputSequence : ℕ
  coinbaseTxValueRemaining : ℕ
  coinbaseTxOutputsCount : ℕ
  coinbaseTxOutputs : Bytes
  coinbaseTxLocktime : ℕ
  merklePath : List Bytes

def Sv2TdpNewTemplate.InRange (msg : Sv2TdpNewTemplate) : Prop :=
  IsU64 msg.templateId ∧ IsU32 msg.version ∧ IsU32 msg.coinbaseTxVersion ∧
  IsB0_255 msg.coinbasePrefix ∧ IsU32 msg.coinbaseTxInputSequence ∧
  IsU64 msg.coinbaseTxValueRemaining ∧ IsU32 msg.coinbaseTxOutputsCount ∧
  IsB0_64K msg.coinbaseTxOutputs ∧ IsU32 msg.coinbaseTxLocktime ∧ IsSeq0_255 IsU256 msg.merklePath

def serializeTdpNewTemplate (msg : Sv2TdpNewTemplate) : Option Bytes := toBuffer do
  writeU64 msg.templateId
  writeBool msg.futureTemplate
  writeU32 msg.version
  writeU32 msg.coinbaseTxVersion
  writeB0_255 msg.coinbasePrefix
  writeU32 msg.coinbaseTxInputSequence
  writeU64 msg.coinbaseTxValueRemaining
  writeU32 msg.coinbaseTxOutputsCount
  writeB0_64K msg.coinbaseTxOutputs
  writeU32 msg.coinbaseTxLocktime
  writeSeq0_255 msg.merklePath writeU256

def deserializeTdpNewTemplate : BufferReader Sv2TdpNewTemplate := do
  return {
    templateId := ← readU64
    futureTemplate := ← readBool
    version := ← readU32
    coinbaseTxVersion := ← readU32
    coinbasePrefix := ← readB0_255
    coinbaseTxInputSequence := ← readU32
    coinbaseTxValueRemaining := ← readU64
    coinbaseTxOutputsCount := ← readU32
    coinbaseTxOutputs := ← readB0_64K
    coinbaseTxLocktime := ← readU32
    merklePath := ← readSeq0_255 readU256 }

structure Sv2TdpSetNewPrevHash where
  templateId : ℕ
  prevHash : Bytes
  headerTimestamp : ℕ
  nBits : ℕ
  target : Bytes

def Sv2TdpSetNewPrevHash.InRange (msg : Sv2TdpSetNewPrevHash) : Prop :=
  IsU64 msg.templateId ∧ IsU256 msg.prevHash ∧ IsU32 msg.headerTimestamp ∧ IsU32 msg.nBits ∧
  IsU256 msg.target

def serializeTdpSetNewPrevHash (msg : Sv2TdpSetNewPrevHash) : Option Bytes := toBuffer do
  writeU64 msg.templateId
  writeU256 msg.prevHash
  writeU32 msg.headerTimestamp
  writeU32 msg.nBits
  writeU256 msg.target

def deserializeTdpSetNewPrevHash : BufferReader Sv2TdpSetNewPrevHash := do
  return {
    templateId := ← readU64
    prevHash := ← readU256
    headerTimestamp := ← readU32
    nBits := ← readU32
    target := ← readU256 }

structure Sv2TdpRequestTransactionData where
  templateId : ℕ

def Sv2TdpRequestTransactionData.InRange (msg : Sv2TdpRequestTransactionData) : Prop :=
  IsU64 msg.templateId

def serializeTdpRequestTransactionData (msg : Sv2TdpRequestTransactionData) :
    Option Bytes := toBuffer do
  writeU64 msg.templateId

def deserializeTdpRequestTransactionData : BufferReader Sv2TdpRequestTransactionData := do
  return {
    templateId := ← readU64 }

structure Sv2TdpRequestTransactionDataSuccess where
  templateId : ℕ
  excessData : Bytes
  transactionList : List Bytes

def Sv2TdpRequestTransactionDataSuccess.InRange
    (msg : Sv2TdpRequestTransactionDataSuccess) : Prop :=
  IsU64 msg.templateId ∧ IsB0_64K msg.excessData ∧ IsSeq0_64K IsB0_16M msg.transactionList

def serializeTdpRequestTransactionDataSuccess (msg : Sv2TdpRequestTransactionDataSuccess) :
    Option Bytes := toBuffer do
  writeU64 msg.templateId
  writeB0_64K msg.excessData
  writeSeq0_64K msg.transactionList writeB0_16M

def deserializeTdpRequestTransactionDataSuccess :
    BufferReader Sv2TdpRequestTransactionDataSuccess := do
  return {
    templateId := ← readU64
    excessData := ← readB0_64K
    transactionList := ← readSeq0_64K readB0_16M }

structure Sv2TdpRequestTransactionDataError where
  templateId : ℕ
  errorCode : String

def Sv2TdpRequestTransactionDataError.InRange (msg : Sv2TdpRequestTransactionDataError) : Prop :=
  IsU64 msg.templateId ∧ IsStr0_255 msg.errorCode

def serializeTdpRequestTransactionDataError (msg : Sv2TdpRequestTransactionDataError) :
    Option Bytes := toBuffer do
  writeU64 msg.templateId
  writeStr0_255 msg.errorCode

def deserializeTdpRequestTransactionDataError : BufferReader Sv2TdpRequestTransactionDataError := do
  return {
    templateId := ← readU64
    errorCode := ← readStr0_255 }

structure Sv2TdpSubmitSolution where
  templateId : ℕ
  version : ℕ
  headerTimestamp : ℕ
  headerNonce : ℕ
  coinbaseTx : Bytes

def Sv2TdpSubmitSolution.InRange (msg : Sv2TdpSubmitSolution) : Prop :=
  IsU64 msg.templateId ∧ IsU32 msg.version ∧ IsU32 msg.headerTimestamp ∧ IsU32 msg.headerNonce ∧
  IsB0_64K msg.coinbaseTx

def serializeTdpSubmitSolution (msg : Sv2TdpSubmitSolution) : Option Bytes := toBuffer do
  writeU64 msg.templateId
  writeU32 msg.version
  writeU32 msg.headerTimestamp
  writeU32 msg.headerNonce
  writeB0_64K msg.coinbaseTx

def deserializeTdpSubmitSolution : BufferReader Sv2TdpSubmitSolution := do
  return {
    templateId := ← readU64
    version := ← readU32
    headerTimestamp := ← readU32
    headerNonce := ← readU32
    coinbaseTx := ← readB0_64K }

/-- The messages that go both ways, with their ranges. -/
def templateDistributionMessages : List MessageCodec :=
  [⟨_, Sv2TdpCoinbaseOutputConstraints.InRange, serializeTdpCoinbaseOutputConstraints,
      deserializeTdpCoinbaseOutputConstraints⟩,
    ⟨_, Sv2TdpNewTemplate.InRange, serializeTdpNewTemplate, deserializeTdpNewTemplate⟩,
    ⟨_, Sv2TdpSetNewPrevHash.InRange, serializeTdpSetNewPrevHash, deserializeTdpSetNewPrevHash⟩,
    ⟨_, Sv2TdpRequestTransactionData.InRange, serializeTdpRequestTransactionData,
      deserializeTdpRequestTransactionData⟩,
    ⟨_, Sv2TdpRequestTransactionDataSuccess.InRange, serializeTdpRequestTransactionDataSuccess,
      deserializeTdpRequestTransactionDataSuccess⟩,
    ⟨_, Sv2TdpRequestTransactionDataError.InRange, serializeTdpRequestTransactionDataError,
      deserializeTdpRequestTransactionDataError⟩,
    ⟨_, Sv2TdpSubmitSolution.InRange, serializeTdpSubmitSolution, deserializeTdpSubmitSolution⟩]

end PublicPool.Sv2.Wire
