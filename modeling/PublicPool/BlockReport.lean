import PublicPool.Accounting
import PublicPool.Lib.Handler
import PublicPool.Payout.Snapshot

/-!
# `PublicPool.BlockReport`: what a path does with a share or a solution it accepts

A share may come in over SV1 or SV2, a solution over the template distribution and the job
declaration protocol. Each of the four paths hands a block to the node, saves it, finalizes the
payout snapshot of its template and tells the subscribers; the first two also answer the miner and
record the share. `reportBlock` is the part they have in common.

All of these calls are awaited, and all but `SUBMIT_BLOCK`, which catches what goes wrong, may
fail: a failure ends the handler.
-/

set_option autoImplicit false

namespace PublicPool

open Lib (Handler)

/-- What may fail on the way. -/
inductive SideEffect
  | writeReply
  | insertClient
  | saveBlock
  | finalizeSnapshot
  | notifySubscribers
  | resetStatistics
  | recordShare
  deriving DecidableEq, Repr

/-- The calls of the four paths. -/
inductive SubmitCall
  | reply
  | ensureClientEntity
  | submitBlock (blockHex : Bytes)
  | save (block : BlockRecord)
  | finalizeSnapshotForBlock (input : FinalizeInput)
  | notifySubscribersBlockFound (address : String) (height : ℤ) (result : Option String)
  | resetBestDifficultyAndShares
  | recordAcceptedShare (share : AcceptedShareRecord)
  deriving DecidableEq

/-- A handler on one of the paths. -/
abbrev SubmitHandler := Handler SubmitCall SideEffect

/-- A block that is reported, and the template's part in it. -/
structure FoundBlock where
  blockHex : Bytes
  height : ℤ
  minerAddress : String
  worker : String
  sessionId : String
  payoutMode : PayoutMode
  payoutSnapshotId : Option ℕ
  deriving DecidableEq

namespace FoundBlock

variable (block : FoundBlock) (result : Option String)

/-- What `BlocksService.save` is given. -/
def record : BlockRecord where
  height := block.height
  minerAddress := block.minerAddress
  worker := block.worker
  sessionId := block.sessionId
  blockData := block.blockHex
  blockSubmissionResult := result
  payoutSnapshotId := if block.payoutMode = .pplns then block.payoutSnapshotId else none
  payoutMode := block.payoutMode

/-- What `finalizeSnapshotForBlock` is given. -/
def finalizeInput : FinalizeInput where
  payoutSnapshotId := block.payoutSnapshotId
  blockHeight := block.height
  blockSubmissionResult := result
  payoutMode := block.payoutMode

end FoundBlock

/-- In pplns mode the snapshot of the template is finalized. -/
def finalizeForBlock (block : FoundBlock) (result : Option String) : SubmitHandler Unit :=
  if block.payoutMode = .pplns then
    .call (.finalizeSnapshotForBlock (block.finalizeInput result)) .finalizeSnapshot
  else pure ()

/-- A block is handed to the node, with its answer, and the pool's own books follow. -/
def reportBlock (block : FoundBlock) (result : Option String) : SubmitHandler Unit := do
  .tell (.submitBlock block.blockHex)
  .call (.save (block.record result)) .saveBlock
  finalizeForBlock block result
  .call (.notifySubscribersBlockFound block.minerAddress block.height result) .notifySubscribers

/-- After a block that the node has taken, the best difficulties start anew. -/
def resetAfterBlock (result : Option String) : SubmitHandler Unit :=
  if isSuccessfulBlockSubmission result then
    .call .resetBestDifficultyAndShares .resetStatistics
  else pure ()

/-- The block of a share is reported. -/
def reportMinedBlock (block : FoundBlock) (result : Option String) : SubmitHandler Unit := do
  reportBlock block result
  resetAfterBlock result

/-! ### Which calls a report makes -/

section
variable {block : FoundBlock} {result : Option String} {fails : SideEffect → Bool}

variable {blockHex : Bytes} {input : FinalizeInput} {share : AcceptedShareRecord} {u : Unit}

@[simp] theorem submitBlock_mem_reportBlock :
    .submitBlock blockHex ∈ (reportBlock block result).calls fails ↔
      blockHex = block.blockHex := by
  simp [reportBlock, finalizeForBlock]

/-- The snapshot is finalized once the block is saved. -/
@[simp] theorem finalize_mem_reportBlock :
    .finalizeSnapshotForBlock input ∈ (reportBlock block result).calls fails ↔
      fails .saveBlock = false ∧ block.payoutMode = .pplns ∧
        input = block.finalizeInput result := by
  simp [reportBlock, finalizeForBlock]

@[simp] theorem recordAcceptedShare_mem_reportBlock :
    .recordAcceptedShare share ∉ (reportBlock block result).calls fails := by
  simp [reportBlock, finalizeForBlock]

theorem value_finalizeForBlock :
    (finalizeForBlock block result).value fails = some u ↔
      (block.payoutMode = .pplns → fails .finalizeSnapshot = false) := by
  unfold finalizeForBlock
  split <;> simp_all

/-- A report comes to its end when the block is saved, its snapshot finalized and the subscribers
told. -/
theorem value_reportBlock :
    (reportBlock block result).value fails = some u ↔
      fails .saveBlock = false ∧
        (block.payoutMode = .pplns → fails .finalizeSnapshot = false) ∧
          fails .notifySubscribers = false := by
  simp [reportBlock, value_finalizeForBlock]

theorem mem_calls_resetAfterBlock {call : SubmitCall} :
    call ∈ (resetAfterBlock result).calls fails ↔
      isSuccessfulBlockSubmission result = true ∧ call = .resetBestDifficultyAndShares := by
  unfold resetAfterBlock
  split <;> simp_all

theorem value_resetAfterBlock :
    (resetAfterBlock result).value fails = some u ↔
      (isSuccessfulBlockSubmission result = true → fails .resetStatistics = false) := by
  unfold resetAfterBlock
  split <;> simp_all

@[simp] theorem submitBlock_mem_reportMinedBlock :
    .submitBlock blockHex ∈ (reportMinedBlock block result).calls fails ↔
      blockHex = block.blockHex := by
  simp [reportMinedBlock, mem_calls_resetAfterBlock]

@[simp] theorem finalize_mem_reportMinedBlock :
    .finalizeSnapshotForBlock input ∈ (reportMinedBlock block result).calls fails ↔
      fails .saveBlock = false ∧ block.payoutMode = .pplns ∧
        input = block.finalizeInput result := by
  simp [reportMinedBlock, mem_calls_resetAfterBlock]

@[simp] theorem recordAcceptedShare_mem_reportMinedBlock :
    .recordAcceptedShare share ∉ (reportMinedBlock block result).calls fails := by
  simp [reportMinedBlock, mem_calls_resetAfterBlock]

theorem value_reportMinedBlock :
    (reportMinedBlock block result).value fails = some u ↔
      fails .saveBlock = false ∧
        (block.payoutMode = .pplns → fails .finalizeSnapshot = false) ∧
          fails .notifySubscribers = false ∧
            (isSuccessfulBlockSubmission result = true → fails .resetStatistics = false) := by
  simp [reportMinedBlock, value_reportBlock, value_resetAfterBlock, and_assoc]

end

end PublicPool
