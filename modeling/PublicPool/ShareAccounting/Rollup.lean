import PublicPool.Lib.Runs
import PublicPool.Accounting
import PublicPool.Payout.Snapshot

/-!
# `PublicPool.ShareAccounting.Rollup`: accepted shares become rollup batches

The model of `processPendingShareRollupBatch` in
`ORM/share-accounting/share-accounting.service.ts`, one SQL statement at a time, next to the
transactions that insert shares.

A share gets its index from the sequence when its row is inserted, and is visible from the commit
of its transaction on. Rows of different transactions take their indexes in any order, and a
transaction may take any time to commit. A rollup is one transaction under READ COMMITTED: each of
its statements sees the shares that are committed when it starts. An advisory lock lets one rollup
through at a time.

The rows are those of one payout mode where the source asks for `pplns`; the tables of the batches
and their summaries have no others. Times are in microseconds, and `now` is the start of the
transaction, as `NOW()` is.
-/

set_option autoImplicit false

namespace PublicPool.ShareAccounting

open Lib (Machine)

/-! ### The tables -/

/-- The columns of `accepted_share_entity` that a rollup reads, without the index. -/
structure AcceptedShare where
  payoutMode : PayoutMode
  protocol : ShareProtocol
  address : String
  clientName : String
  blockHeight : ℤ
  acceptedAt : ℤ
  creditedDifficulty : ℚ
  submissionDifficulty : ℚ
  deriving DecidableEq

/-- A row of `accepted_share_entity`. -/
structure AcceptedShareRow extends AcceptedShare where
  shareIndex : ℕ
  deriving DecidableEq

/-- A row of `share_rollup_batch`. -/
structure RollupBatchRow extends ShareRollupBatch where
  startAcceptedAt : ℤ
  endAcceptedAt : ℤ
  deriving DecidableEq

/-- A row of `share_rollup_batch_summary`. -/
structure RollupSummaryRow extends ShareRollupSummary where
  clientName : String
  protocol : ShareProtocol
  blockHeight : ℤ
  bestSubmissionDifficulty : ℚ
  firstShareAt : ℤ
  lastShareAt : ℤ

/-- The settings of the rollups. `readPositiveInt` makes the size of a batch positive. -/
structure RollupConfig where
  shareRollupEnabled : Bool
  shareRollupSafetyLagSeconds : ℕ
  shareRollupMaxSharesPerBatch : ℕ
  maxShares_pos : 0 < shareRollupMaxSharesPerBatch

/-! ### The statements -/

/-- The row of the range query. -/
structure ShareRange where
  startShareIndex : ℕ
  endShareIndex : ℕ
  acceptedShareCount : ℕ

/-- The row of the statistics query. -/
structure ShareStats where
  startAcceptedAt : ℤ
  endAcceptedAt : ℤ
  acceptedShareCount : ℕ
  creditedDifficulty : ℚ

/-- `lastProcessedShareIndex`. -/
def lastProcessedShareIndex (batches : List RollupBatchRow) : ℕ :=
  ((batches.map (·.endShareIndex)).max?).getD 0

/-- The pplns shares after an index. -/
def sharesAfter (shares : List AcceptedShareRow) (last : ℕ) : List AcceptedShareRow :=
  shares.filter fun share => last < share.shareIndex ∧ share.payoutMode = .pplns

/-- The pplns shares with an index in a range. -/
def sharesBetween (shares : List AcceptedShareRow) (first last : ℕ) : List AcceptedShareRow :=
  shares.filter fun share =>
    first ≤ share.shareIndex ∧ share.shareIndex ≤ last ∧ share.payoutMode = .pplns

section
variable (config : RollupConfig) (shares : List AcceptedShareRow) (now : ℤ) (last : ℕ)

/-- Whether a share is younger than the safety lag. -/
def isUnstable (share : AcceptedShareRow) : Bool :=
  decide (now - config.shareRollupSafetyLagSeconds * 1000000 < share.acceptedAt)

/-- `first_unstable`. -/
def firstUnstableShareIndex : Option ℕ :=
  (((sharesAfter shares last).filter (isUnstable config now)).map (·.shareIndex)).min?

/-- `stable_bound`. -/
def maxStableShareIndex : Option ℕ :=
  match firstUnstableShareIndex config shares now last with
  | none => ((sharesAfter shares last).map (·.shareIndex)).max?
  | some firstUnstable => some (firstUnstable - 1)

/-- `bounded`. -/
def boundedShareIndexes : List ℕ :=
  match maxStableShareIndex config shares now last with
  | none => []
  | some maxStable =>
    ((((sharesAfter shares last).map (·.shareIndex)).filter (· ≤ maxStable)).insertionSort
      (· ≤ ·)).take config.shareRollupMaxSharesPerBatch

/-- The range query. -/
def selectRange : Option ShareRange :=
  let bounded := boundedShareIndexes config shares now last
  match bounded.min?, bounded.max? with
  | some startShareIndex, some endShareIndex =>
    some { startShareIndex, endShareIndex, acceptedShareCount := bounded.length }
  | _, _ => none

end

/-- The sum of the credited difficulties of some shares. -/
def creditedDifficultyOf (shares : List AcceptedShareRow) : ℚ :=
  (shares.map (·.creditedDifficulty)).sum

/-- The statistics query. -/
def selectStats (shares : List AcceptedShareRow) (range : ShareRange) : Option ShareStats :=
  let rows := sharesBetween shares range.startShareIndex range.endShareIndex
  match (rows.map (·.acceptedAt)).min?, (rows.map (·.acceptedAt)).max? with
  | some startAcceptedAt, some endAcceptedAt =>
    some
      { startAcceptedAt
        endAcceptedAt
        acceptedShareCount := rows.length
        creditedDifficulty := creditedDifficultyOf rows }
  | _, _ => none

/-- The batch that a rollup inserts. -/
def batchOf (id : ℕ) (range : ShareRange) (stats : ShareStats) : RollupBatchRow where
  id := id
  startShareIndex := range.startShareIndex
  endShareIndex := range.endShareIndex
  acceptedShareCount := stats.acceptedShareCount
  creditedDifficulty := stats.creditedDifficulty
  startAcceptedAt := stats.startAcceptedAt
  endAcceptedAt := stats.endAcceptedAt

/-- What the summaries are grouped by. -/
structure SummaryKey where
  address : String
  clientName : String
  protocol : ShareProtocol
  blockHeight : ℤ
  deriving DecidableEq

def summaryKeyOf (share : AcceptedShareRow) : SummaryKey where
  address := share.address
  clientName := share.clientName
  protocol := share.protocol
  blockHeight := share.blockHeight

/-- The summary of the shares with a key. -/
def summaryOf (batchId : ℕ) (key : SummaryKey) (group : List AcceptedShareRow) :
    RollupSummaryRow where
  batchId := batchId
  address := key.address
  creditedDifficulty := creditedDifficultyOf group
  acceptedShareCount := group.length
  clientName := key.clientName
  protocol := key.protocol
  blockHeight := key.blockHeight
  bestSubmissionDifficulty := ((group.map (·.submissionDifficulty)).max?).getD 0
  firstShareAt := ((group.map (·.acceptedAt)).min?).getD 0
  lastShareAt := ((group.map (·.acceptedAt)).max?).getD 0

/-- The summaries that a rollup inserts. -/
def summariesOf (shares : List AcceptedShareRow) (batch : RollupBatchRow) :
    List RollupSummaryRow :=
  let rows := sharesBetween shares batch.startShareIndex batch.endShareIndex
  (rows.map summaryKeyOf).dedup.map fun key =>
    summaryOf batch.id key (rows.filter fun share => summaryKeyOf share = key)

/-! ### The machine -/

/-- The next statement of a rollup. -/
inductive RollupStage
  | tryLock
  | readLast
  | readRange (last : ℕ)
  | readStats (range : ShareRange)
  | insertBatch (range : ShareRange) (stats : ShareStats)
  | insertSummary (batch : RollupBatchRow)
  | commit (batch : RollupBatchRow) (summaries : List RollupSummaryRow)

/-- A call of `processPendingShareRollupBatch`. -/
structure RollupCall where
  now : ℤ
  stage : RollupStage

/-- The committed rows. -/
structure RollupDb where
  shares : List AcceptedShareRow
  batches : List RollupBatchRow
  summaries : List RollupSummaryRow

structure RollupWorld where
  db : RollupDb
  /-- The next value of `accepted_share_index_seq`. -/
  nextShareIndex : ℕ
  /-- The next value of the `share_rollup_batch` id sequence. -/
  nextBatchId : ℕ
  /-- The rows of the insert transactions that have not ended. -/
  inserts : ℕ → List AcceptedShareRow
  calls : ℕ → Option RollupCall
  /-- The call that holds the advisory lock. -/
  lockedBy : Option ℕ
  nextCall : ℕ

def RollupWorld.initial : RollupWorld where
  db := { shares := [], batches := [], summaries := [] }
  nextShareIndex := 1
  nextBatchId := 1
  inserts _ := []
  calls _ := none
  lockedBy := none
  nextCall := 0

/-- What happens: a transaction inserts a share, commits or is rolled back, a rollup is called,
takes its turn or is rolled back. -/
inductive RollupInput
  | insertShare (transaction : ℕ) (share : AcceptedShare)
  | commitInsert (transaction : ℕ)
  | rollbackInsert (transaction : ℕ)
  | processPendingShareRollupBatch (now : ℤ)
  | statement (call : ℕ)
  | rollback (call : ℕ)

/-- The reasons for not processing shares. -/
inductive RollupRefusal
  | disabled
  | locked
  | noShares
  deriving DecidableEq

/-- `ShareRollupBatchResult`. -/
inductive ShareRollupBatchResult
  | refused (reason : RollupRefusal)
  | processed (batch : RollupBatchRow)
  deriving DecidableEq

/-- How a rollup ends. -/
inductive RollupEvent
  | ended (result : ShareRollupBatchResult)
  | failed
  deriving DecidableEq

namespace RollupWorld

variable (world : RollupWorld)

/-- A rollup goes on. -/
def setStage (id : ℕ) (call : RollupCall) (stage : RollupStage) : RollupWorld :=
  { world with calls := Function.update world.calls id (some { call with stage }) }

/-- A rollup is over, and with its transaction the lock. -/
def endCall (id : ℕ) : RollupWorld :=
  { world with
    calls := Function.update world.calls id none
    lockedBy := if world.lockedBy = some id then none else world.lockedBy }

end RollupWorld

/-- The statements of `processPendingShareRollupBatch`. -/
def rollupStatement (config : RollupConfig) (world : RollupWorld) (id : ℕ) (call : RollupCall) :
    RollupWorld × List RollupEvent :=
  let refused (reason : RollupRefusal) : RollupWorld × List RollupEvent :=
    (world.endCall id, [.ended (.refused reason)])
  match call.stage with
  | .tryLock =>
    if world.lockedBy.isSome then refused .locked
    else ({ world.setStage id call .readLast with lockedBy := some id }, [])
  | .readLast =>
    (world.setStage id call (.readRange (lastProcessedShareIndex world.db.batches)), [])
  | .readRange last =>
    match selectRange config world.db.shares call.now last with
    | none => refused .noShares
    | some range => (world.setStage id call (.readStats range), [])
  | .readStats range =>
    match selectStats world.db.shares range with
    | none => refused .noShares
    | some stats => (world.setStage id call (.insertBatch range stats), [])
  | .insertBatch range stats =>
    let next := { world with nextBatchId := world.nextBatchId + 1 }
    -- the unique index on the range of a batch
    if world.db.batches.any fun batch =>
        batch.startShareIndex = range.startShareIndex ∧ batch.endShareIndex = range.endShareIndex
    then (next.endCall id, [.failed])
    else (next.setStage id call (.insertSummary (batchOf world.nextBatchId range stats)), [])
  | .insertSummary batch =>
    (world.setStage id call (.commit batch (summariesOf world.db.shares batch)), [])
  | .commit batch summaries =>
    ({ world.endCall id with
        db :=
          { world.db with
            batches := world.db.batches ++ [batch]
            summaries := world.db.summaries ++ summaries } }, [.ended (.processed batch)])

/-- One step. -/
def rollupStep (config : RollupConfig) (world : RollupWorld) :
    RollupInput → RollupWorld × List RollupEvent
  | .insertShare transaction share =>
    let row : AcceptedShareRow := { share with shareIndex := world.nextShareIndex }
    ({ world with
        nextShareIndex := world.nextShareIndex + 1
        inserts := Function.update world.inserts transaction
          (world.inserts transaction ++ [row]) }, [])
  | .commitInsert transaction =>
    ({ world with
        db := { world.db with shares := world.db.shares ++ world.inserts transaction }
        inserts := Function.update world.inserts transaction [] }, [])
  | .rollbackInsert transaction =>
    ({ world with inserts := Function.update world.inserts transaction [] }, [])
  | .processPendingShareRollupBatch now =>
    if !config.shareRollupEnabled then (world, [.ended (.refused .disabled)])
    else
      ({ world with
          calls := Function.update world.calls world.nextCall (some { now, stage := .tryLock })
          nextCall := world.nextCall + 1 }, [])
  | .statement id =>
    match world.calls id with
    | none => (world, [])
    | some call => rollupStatement config world id call
  | .rollback id =>
    match world.calls id with
    | none => (world, [])
    | some _ => (world.endCall id, [.failed])

/-- Share inserts and rollups as a state machine. -/
def rollupMachine (config : RollupConfig) : Machine RollupWorld RollupInput RollupEvent :=
  ⟨rollupStep config⟩

end PublicPool.ShareAccounting
