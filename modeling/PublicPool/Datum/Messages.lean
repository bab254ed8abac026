import PublicPool.Datum.Service
import PublicPool.Sv2.BinaryCodec

/-!
# `PublicPool.Datum.Messages`: what a DATUM gateway sends, on the wire

`deserializeDatumPowSubmit` and `deserializeDatumJobValidationResponse` of
`models/datum/datum-codec.ts`. A submission has a fixed part and then any number of sections, each
with a byte that says what it is; the byte `0xfe` ends them, and whatever comes after it is
padding. The answers about the transactions of a job end with the same byte and may be padded in
the same way.

The gateway's side is not in the source. `DatumPowSubmission` is a submission as the gateway means
it, and `serializeDatumPowSubmission` and `serializeDatumJobValidationResponse` are its encoding.
-/

set_option autoImplicit false

namespace PublicPool.Datum

open Lib (OrdMap)
open Lib.Wire (times)
open Sv2 (BufferReader BufferWriter IsU8 IsU16 IsU32 IsU64 utf8Bytes utf8String)
open Sv2.BufferReader Sv2.BufferWriter

/-- The byte after the last section. -/
def datumTerminator : ℕ := 0xfe

/-- `reader.remaining`. -/
def remaining : BufferReader ℕ := do return (← get).length

/-! ### Submissions -/

/-- The whole `DatumPowSubmit`, with the fields that the service does not read. -/
structure DatumPowMessage extends DatumPowSubmit where
  quickDiff : Bool
  reserved : Bytes
  deriving DecidableEq

/-- The fields of a job section. -/
structure DatumPowJob where
  prevBlockHash : Bytes
  targetByteIndex : ℕ
  nBits : Bytes
  coinbaserId : ℕ
  height : ℕ
  coinbaseValue : ℕ
  transactionCount : ℕ
  totalWeight : ℕ
  totalSize : ℕ
  totalSigops : ℕ
  merkleBranches : List Bytes
  deriving DecidableEq

/-- What the sections of a submission have given so far. -/
structure DatumPowSections where
  job : Option DatumPowJob
  coinbasePairs : OrdMap ℕ CoinbasePair
  subsidyOnlyCoinbase : Option CoinbasePair
  deriving DecidableEq

/-- Before the first section. -/
def DatumPowSections.none : DatumPowSections where
  job := .none
  coinbasePairs := .empty
  subsidyOnlyCoinbase := .none

/-- The bytes up to a null byte, or to the end. -/
def readNullTerminatedString : BufferReader String := fun rest =>
  some (utf8String (rest.takeWhile (· ≠ 0)), (rest.dropWhile (· ≠ 0)).drop 1)

/-- Section `0x01`. -/
def readPowJob : BufferReader DatumPowJob := do
  let prevBlockHash ← readBytes 32
  let targetByteIndex ← readU16
  let nBits ← readBytes 4
  let coinbaserId ← readU8
  let height ← readU32
  let coinbaseValue ← readU64
  let transactionCount ← readU32
  let totalWeight ← readU32
  let totalSize ← readU32
  let totalSigops ← readU32
  let merkleBranchCount ← readU8
  let merkleBranches ← times merkleBranchCount (readBytes 32)
  return { prevBlockHash, targetByteIndex, nBits, coinbaserId, height, coinbaseValue,
           transactionCount, totalWeight, totalSize, totalSigops, merkleBranches }

/-- Section `0x02`: the id of a coinbase and the coinbase. -/
def readPowCoinbase : BufferReader (ℕ × CoinbasePair) := do
  let coinbaseType ← readU8
  let coinb1Len ← readU16
  let coinb2Len ← readU16
  let coinb1 ← readBytes coinb1Len
  let coinb2 ← readBytes coinb2Len
  return (coinbaseType, { coinb1, coinb2 })

/-- The id of the coinbase without transaction fees. -/
def subsidyOnlyCoinbaseType : ℕ := 255

/-- A coinbase goes to its place. -/
def DatumPowSections.setCoinbase (sections : DatumPowSections) (coinbaseType : ℕ)
    (coinbase : CoinbasePair) : DatumPowSections :=
  if coinbaseType = subsidyOnlyCoinbaseType then
    { sections with subsidyOnlyCoinbase := some coinbase }
  else { sections with coinbasePairs := sections.coinbasePairs.set coinbaseType coinbase }

/-- The loop over the sections. Every round but the last takes a byte at least, so the number of
bytes is enough for `rounds`. A section that is not known throws. -/
def readPowSections : ℕ → DatumPowSections → BufferReader DatumPowSections
  | 0, sections => pure sections
  | rounds + 1, sections => do
    if (← remaining) = 0 then return sections
    let kind ← readU8
    if kind = datumTerminator then return sections
    else if kind = 0x01 then
      let job ← readPowJob
      readPowSections rounds { sections with job := some job }
    else if kind = 0x02 then
      let (coinbaseType, coinbase) ← readPowCoinbase
      readPowSections rounds (sections.setCoinbase coinbaseType coinbase)
    else failure

/-- `DATUM_EXTRANONCE_SIZE`. -/
def datumExtranonceSize : ℕ := 12

/-- Four reserved bytes, or those that are left. -/
def readReserved : BufferReader Bytes := do
  readBytes (min 4 (← remaining))

/-- The fixed fields, which come first. -/
def readPowFixed : BufferReader DatumPowMessage := do
  let jobId ← readU8
  let coinbaseId ← readU8
  let flags ← readU8
  let targetByte ← readU8
  let ntime ← readU32
  let nonce ← readU32
  let version ← readU32
  let extranonceSize ← readU8
  if extranonceSize ≠ datumExtranonceSize then failure
  let extranonce ← readBytes extranonceSize
  let username ← readNullTerminatedString
  let reserved ← readReserved
  return {
    jobId, coinbaseId, targetByte, ntime, nonce, version, extranonce, username, reserved
    isBlock := flags &&& 0x01 ≠ 0
    subsidyOnly := flags &&& 0x02 ≠ 0
    quickDiff := flags &&& 0x04 ≠ 0
    prevBlockHash := none
    targetByteIndex := none
    nBits := none
    coinbaserId := none
    height := none
    coinbaseValue := none
    transactionCount := none
    totalWeight := none
    totalSize := none
    totalSigops := none
    merkleBranches := none
    coinbasePairs := []
    subsidyOnlyCoinbase := none }

/-- The sections fill in the other fields. -/
def DatumPowSections.fill (sections : DatumPowSections) (result : DatumPowMessage) :
    DatumPowMessage :=
  { result with
    prevBlockHash := sections.job.map (·.prevBlockHash)
    targetByteIndex := sections.job.map (·.targetByteIndex)
    nBits := sections.job.map (·.nBits)
    coinbaserId := sections.job.map (·.coinbaserId)
    height := sections.job.map (·.height)
    coinbaseValue := sections.job.map (·.coinbaseValue)
    transactionCount := sections.job.map (·.transactionCount)
    totalWeight := sections.job.map (·.totalWeight)
    totalSize := sections.job.map (·.totalSize)
    totalSigops := sections.job.map (·.totalSigops)
    merkleBranches := sections.job.map (·.merkleBranches)
    coinbasePairs := sections.coinbasePairs.entries
    subsidyOnlyCoinbase := sections.subsidyOnlyCoinbase }

def readPowSubmit : BufferReader DatumPowMessage := do
  let result ← readPowFixed
  let sections ← readPowSections (← remaining) .none
  return sections.fill result

def deserializeDatumPowSubmit (payload : Bytes) : Option DatumPowMessage :=
  (readPowSubmit.run payload).map Prod.fst

/-! ### Submissions as the gateway means them -/

inductive DatumPowSection
  | job (job : DatumPowJob)
  | coinbase (coinbaseType : ℕ) (coinbase : CoinbasePair)
  deriving DecidableEq

structure DatumPowSubmission where
  jobId : ℕ
  coinbaseId : ℕ
  isBlock : Bool
  subsidyOnly : Bool
  quickDiff : Bool
  /-- The five flags without a meaning. -/
  unusedFlags : ℕ
  targetByte : ℕ
  ntime : ℕ
  nonce : ℕ
  version : ℕ
  extranonce : Bytes
  username : String
  reserved : Bytes
  sections : List DatumPowSection
  deriving DecidableEq

structure DatumPowJob.InRange (job : DatumPowJob) : Prop where
  prevBlockHash : job.prevBlockHash.length = 32
  targetByteIndex : IsU16 job.targetByteIndex
  nBits : job.nBits.length = 4
  coinbaserId : IsU8 job.coinbaserId
  height : IsU32 job.height
  coinbaseValue : IsU64 job.coinbaseValue
  transactionCount : IsU32 job.transactionCount
  totalWeight : IsU32 job.totalWeight
  totalSize : IsU32 job.totalSize
  totalSigops : IsU32 job.totalSigops
  merkleBranchCount : job.merkleBranches.length ≤ 255
  merkleBranches : ∀ branch ∈ job.merkleBranches, branch.length = 32

def DatumPowSection.InRange : DatumPowSection → Prop
  | .job fields => fields.InRange
  | .coinbase coinbaseType pair =>
    IsU8 coinbaseType ∧ pair.coinb1.length ≤ 65535 ∧ pair.coinb2.length ≤ 65535

structure DatumPowSubmission.InRange (submission : DatumPowSubmission) : Prop where
  jobId : IsU8 submission.jobId
  coinbaseId : IsU8 submission.coinbaseId
  unusedFlags : submission.unusedFlags < 2 ^ 5
  targetByte : IsU8 submission.targetByte
  ntime : IsU32 submission.ntime
  nonce : IsU32 submission.nonce
  version : IsU32 submission.version
  extranonce : submission.extranonce.length = datumExtranonceSize
  username : '\x00' ∉ submission.username.toList
  reserved : submission.reserved.length = 4
  sections : ∀ part ∈ submission.sections, part.InRange

def DatumPowSubmission.flags (submission : DatumPowSubmission) : ℕ :=
  submission.isBlock.toNat + 2 * submission.subsidyOnly.toNat + 4 * submission.quickDiff.toNat
    + 8 * submission.unusedFlags

def writePowJob (job : DatumPowJob) : BufferWriter Unit := do
  writeBytes job.prevBlockHash
  writeU16 job.targetByteIndex
  writeBytes job.nBits
  writeU8 job.coinbaserId
  writeU32 job.height
  writeU64 job.coinbaseValue
  writeU32 job.transactionCount
  writeU32 job.totalWeight
  writeU32 job.totalSize
  writeU32 job.totalSigops
  writeU8 job.merkleBranches.length
  job.merkleBranches.forM writeBytes

def writePowCoinbase (coinbaseType : ℕ) (coinbase : CoinbasePair) : BufferWriter Unit := do
  writeU8 coinbaseType
  writeU16 coinbase.coinb1.length
  writeU16 coinbase.coinb2.length
  writeBytes coinbase.coinb1
  writeBytes coinbase.coinb2

def writePowSection : DatumPowSection → BufferWriter Unit
  | .job job => do
    writeU8 0x01
    writePowJob job
  | .coinbase coinbaseType coinbase => do
    writeU8 0x02
    writePowCoinbase coinbaseType coinbase

/-- A text and a null byte. -/
def writeNullTerminatedString (text : String) : BufferWriter Unit := do
  writeBytes (utf8Bytes text)
  writeU8 0

/-- The part of a submission before its sections. -/
def writePowHeader (submission : DatumPowSubmission) : BufferWriter Unit := do
  writeU8 submission.jobId
  writeU8 submission.coinbaseId
  writeU8 submission.flags
  writeU8 submission.targetByte
  writeU32 submission.ntime
  writeU32 submission.nonce
  writeU32 submission.version
  writeU8 submission.extranonce.length
  writeBytes submission.extranonce
  writeNullTerminatedString submission.username
  writeBytes submission.reserved

/-- The end of a message. -/
def writeTerminatorAndPadding (padding : Bytes) : BufferWriter Unit := do
  writeU8 datumTerminator
  writeBytes padding

def serializeDatumPowSubmission (submission : DatumPowSubmission) (padding : Bytes) :
    Option Bytes := toBuffer do
  writePowHeader submission
  submission.sections.forM writePowSection
  writeTerminatorAndPadding padding

/-! ### Answers about the transactions of a job -/

/-- `DatumJobValidationResponse`, with all its fields. -/
inductive DatumJobValidationMessage
  | shortTxIds (jobId status transactionCount : ℕ) (shortTxIds : List Bytes)
      (crosscheck : Option Bytes)
  | fullTransactions (jobId status transactionCount : ℕ) (transactions : List Bytes)
  | fullTransactionBlob (jobId status transactionCount : ℕ) (transactions : List Bytes)
  deriving DecidableEq

/-- `DatumJobValidationCommand`, as far as the gateway sends it. -/
def shortTxIdsResponse : ℕ := 0x90

def fullTransactionsResponse : ℕ := 0x91

def fullTransactionBlobResponse : ℕ := 0x92

def consumeDatumTerminatorAndPadding : BufferReader Unit := do
  if (← remaining) = 0 then return ()
  let terminator ← readU8
  if terminator ≠ datumTerminator then failure

/-- The length of a transaction and the transaction. -/
def readDatumTransaction : BufferReader Bytes := do
  let transactionSize ← readU24
  readBytes transactionSize

def deserializeDatumTransactionListResponse
    (kind : ℕ → ℕ → ℕ → List Bytes → DatumJobValidationMessage) (jobId status : ℕ) :
    BufferReader DatumJobValidationMessage := do
  if status ≠ validationSuccess then return kind jobId status 0 []
  let transactionCount ← readU16
  let transactions ← times transactionCount readDatumTransaction
  consumeDatumTerminatorAndPadding
  return kind jobId status transactionCount transactions

/-- A crosscheck is taken when there are bytes enough for one. -/
def readCrosscheck : BufferReader (Option Bytes) := do
  if 32 ≤ (← remaining) then return some (← readBytes 32)
  else return none

/-- The branch of the short ids. -/
def readShortTxIdsResponse (jobId status : ℕ) : BufferReader DatumJobValidationMessage := do
  if status ≠ validationSuccess then return .shortTxIds jobId status 0 [] none
  let transactionCount ← readU16
  let shortTxIds ← times transactionCount (readBytes 6)
  let crosscheck ← readCrosscheck
  consumeDatumTerminatorAndPadding
  return .shortTxIds jobId status transactionCount shortTxIds crosscheck

/-- The branch of a command. -/
def readValidationBody (responseCommand jobId status : ℕ) :
    BufferReader DatumJobValidationMessage :=
  if responseCommand = shortTxIdsResponse then readShortTxIdsResponse jobId status
  else if responseCommand = fullTransactionsResponse then
    deserializeDatumTransactionListResponse .fullTransactions jobId status
  else if responseCommand = fullTransactionBlobResponse then
    deserializeDatumTransactionListResponse .fullTransactionBlob jobId status
  else failure

def readJobValidationResponse : BufferReader DatumJobValidationMessage := do
  let responseCommand ← readU8
  let jobId ← readU8
  let status ← readU8
  readValidationBody responseCommand jobId status

def deserializeDatumJobValidationResponse (payload : Bytes) : Option DatumJobValidationMessage :=
  (readJobValidationResponse.run payload).map Prod.fst

/-! ### Answers as the gateway means them -/

/-- The lists of an answer: there is none in a refusal, and otherwise it has as many elements as
the answer says. -/
structure IsAnswered (status transactionCount : ℕ) (items : List Bytes) : Prop where
  isU8 : IsU8 status
  length_eq : items.length = transactionCount
  refused : status ≠ validationSuccess → items = []
  length_le : items.length ≤ 65535

def DatumJobValidationMessage.InRange : DatumJobValidationMessage → Prop
  | .shortTxIds jobId status transactionCount ids crosscheck =>
    IsU8 jobId ∧ IsAnswered status transactionCount ids ∧ (∀ id ∈ ids, id.length = 6) ∧
      (∀ hash ∈ crosscheck, hash.length = 32) ∧
      (status ≠ validationSuccess → crosscheck = none)
  | .fullTransactions jobId status transactionCount transactions
  | .fullTransactionBlob jobId status transactionCount transactions =>
    IsU8 jobId ∧ IsAnswered status transactionCount transactions ∧
      ∀ transaction ∈ transactions, transaction.length < 2 ^ 24

def writeDatumTransaction (transaction : Bytes) : BufferWriter Unit := do
  writeU24 transaction.length
  writeBytes transaction

/-- The first bytes of an answer, and its lists unless it is a refusal. -/
def writeValidationResponse (command jobId status : ℕ) (write : BufferWriter Unit) :
    BufferWriter Unit := do
  writeU8 command
  writeU8 jobId
  writeU8 status
  if status = validationSuccess then write

def writeShortTxIds (shortTxIds : List Bytes) (crosscheck : Option Bytes) :
    BufferWriter Unit := do
  writeU16 shortTxIds.length
  shortTxIds.forM writeBytes
  writeBytes (crosscheck.getD [])

def writeTransactionList (transactions : List Bytes) : BufferWriter Unit := do
  writeU16 transactions.length
  transactions.forM writeDatumTransaction

def writeJobValidationResponse : DatumJobValidationMessage → BufferWriter Unit
  | .shortTxIds jobId status _ shortTxIds crosscheck =>
    writeValidationResponse shortTxIdsResponse jobId status (writeShortTxIds shortTxIds crosscheck)
  | .fullTransactions jobId status _ transactions =>
    writeValidationResponse fullTransactionsResponse jobId status
      (writeTransactionList transactions)
  | .fullTransactionBlob jobId status _ transactions =>
    writeValidationResponse fullTransactionBlobResponse jobId status
      (writeTransactionList transactions)

def serializeDatumJobValidationResponse (response : DatumJobValidationMessage) (padding : Bytes) :
    Option Bytes := toBuffer do
  writeJobValidationResponse response
  writeTerminatorAndPadding padding

end PublicPool.Datum
