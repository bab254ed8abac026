import PublicPool.Accounting
import PublicPool.Lib.Runs
import PublicPool.Payout.Snapshot

/-!
# `PublicPool.BlocksService`: the table of found blocks

`save` of `ORM/blocks/blocks.service.ts`. A block that is already in the table is not inserted
again: its row is updated with what a later report has to say.

A report may leave fields out. `payoutSnapshotId` may also be given as `null`, so it has two layers
of options. Rows are never deleted, and the id of a row is its position. The text in `blockData` is
that of bytes, and `blockId` is what `Block.fromHex(_).getId()` makes of it.

An insert without one of the columns that must have a value throws.
-/

set_option autoImplicit false

namespace PublicPool

open Lib (Machine)

/-- `Partial<BlocksEntity>`. -/
structure PartialBlock where
  height : Option ℤ := none
  minerAddress : Option String := none
  worker : Option String := none
  sessionId : Option String := none
  blockData : Option Bytes := none
  blockHash : Option String := none
  blockSubmissionResult : Option String := none
  payoutMode : Option PayoutMode := none
  payoutSnapshotId : Option (Option ℕ) := none
  deriving DecidableEq

/-- A row of `BlocksEntity`. -/
structure BlockRow where
  height : ℤ
  minerAddress : String
  worker : String
  sessionId : String
  blockData : Bytes
  blockHash : Option String
  blockSubmissionResult : Option String
  payoutMode : PayoutMode
  payoutSnapshotId : Option ℕ
  deriving DecidableEq

/-- The columns that are updated. -/
structure BlockUpdate where
  minerAddress : Option String := none
  worker : Option String := none
  sessionId : Option String := none
  blockSubmissionResult : Option String := none
  payoutMode : Option PayoutMode := none
  payoutSnapshotId : Option (Option ℕ) := none
  deriving DecidableEq

/-- `repository.update`. -/
def BlockRow.update (row : BlockRow) (update : BlockUpdate) : BlockRow :=
  { row with
    minerAddress := update.minerAddress.getD row.minerAddress
    worker := update.worker.getD row.worker
    sessionId := update.sessionId.getD row.sessionId
    blockSubmissionResult := update.blockSubmissionResult.or row.blockSubmissionResult
    payoutMode := update.payoutMode.getD row.payoutMode
    payoutSnapshotId := update.payoutSnapshotId.getD row.payoutSnapshotId }

/-- The row that `repository.save` inserts. The column of the mode has a default. -/
def PartialBlock.insert (block : PartialBlock) (blockHash : Option String) : Option BlockRow := do
  let height ← block.height
  let minerAddress ← block.minerAddress
  let worker ← block.worker
  let sessionId ← block.sessionId
  let blockData ← block.blockData
  return {
    height
    minerAddress
    worker
    sessionId
    blockData
    blockHash
    blockSubmissionResult := block.blockSubmissionResult
    payoutMode := block.payoutMode.getD .solo
    payoutSnapshotId := block.payoutSnapshotId.getD none }

namespace BlocksService

def isInternalAttribution (worker minerAddress : Option String) : Bool :=
  worker.map (fun worker => Js.toLowerCase worker.toList) = some ['t', 'd', 'p'] ∨
    minerAddress = some "sv2-tdp"

/-- Whether a text is missing or empty. -/
def isFalsy (text : Option String) : Bool := text.getD "" = ""

def shouldReplaceAttribution (existing : BlockRow) (incoming : PartialBlock) : Bool :=
  if isFalsy incoming.minerAddress ∨ isFalsy incoming.worker then false
  else if isInternalAttribution incoming.worker incoming.minerAddress then false
  else isInternalAttribution (some existing.worker) (some existing.minerAddress)

/-- What a report changes in a row. -/
def updateFor (existing : BlockRow) (block : PartialBlock) : BlockUpdate :=
  let update : BlockUpdate :=
    if isSuccessfulBlockSubmission block.blockSubmissionResult then
      { blockSubmissionResult := some "SUCCESS!"
        payoutSnapshotId := some (block.payoutSnapshotId.getD existing.payoutSnapshotId) }
    else {}
  let update :=
    if shouldReplaceAttribution existing block then
      { update with
        minerAddress := block.minerAddress
        worker := block.worker
        sessionId := block.sessionId }
    else update
  if block.payoutMode ≠ none ∧ some existing.payoutMode ≠ block.payoutMode then
    { update with payoutMode := block.payoutMode }
  else update

variable (blockId : Bytes → Option String)

def getBlockHash (blockData : Option Bytes) : Option String :=
  match blockData with
  | none => none
  | some data => if 2 * data.length < 160 then none else blockId data

/-- The hash under which a report is looked up. -/
def hashOf (block : PartialBlock) : Option String :=
  block.blockHash.or (getBlockHash blockId block.blockData)

/-- `findOne` by the hash of a block. -/
def findOne (rows : List BlockRow) (hash : String) : Option ℕ :=
  rows.findIdx? (·.blockHash = some hash)

/-- `save`, or `none` when the insert throws. -/
def save (rows : List BlockRow) (block : PartialBlock) : Option (List BlockRow) :=
  match (hashOf blockId block).bind (findOne rows) with
  | some id => some (rows.modify id fun existing => existing.update (updateFor existing block))
  | none => (block.insert (hashOf blockId block)).map fun row => rows ++ [row]

/-- A report that was saved. -/
structure SavedReport where
  block : PartialBlock
  blockHash : Option String
  inserted : Bool
  deriving DecidableEq

/-- The table, as the reports come in one after the other. -/
def blocksTable : Machine (List BlockRow) PartialBlock SavedReport where
  step rows block :=
    match save blockId rows block with
    | some next => (next, [⟨block, hashOf blockId block, next.length ≠ rows.length⟩])
    | none => (rows, [])

end BlocksService

end PublicPool
