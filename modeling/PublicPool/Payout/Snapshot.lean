import PublicPool.Types
import Mathlib.Data.Finset.Dedup
import Mathlib.Data.Finset.Card

/-!
# `PublicPool.Payout.Snapshot`: payout snapshots and the balance ledger

The model of `ORM/payout-snapshot/payout-snapshot.service.ts` and of the tables it reads and
writes. A snapshot freezes the distribution of one template: `createSnapshotForTemplate`
computes it from the share window and the open balances and stores its entries, or returns
the snapshot that the same template and window already have. `finalizeSnapshotForBlock`
applies the entries of a snapshot to the ledger once its block was found: it writes each
entry's balance and adds a row to the payout history.

Each SQL statement is a function of the tables here, and the two transactions are the
sequence of their statements. `PublicPool.Payout.Interleaving` runs the same statements one at a
time.

Every row is a `pplns` row with status `finalized`; the columns for the two, the time
stamps and the columns no statement reads are left out. A primary key or a unique index that
a statement relies on is the key of an `OrdMap`.
-/

set_option autoImplicit false

namespace PublicPool

open Lib (OrdMap)

/-! ### The tables -/

/-- A finalized pplns row of `share_rollup_batch`. -/
structure ShareRollupBatch where
  id : ℕ
  startShareIndex : ℕ
  endShareIndex : ℕ
  acceptedShareCount : ℕ
  creditedDifficulty : ℚ
  deriving DecidableEq

/-- A pplns row of `share_rollup_batch_summary`. -/
structure ShareRollupSummary where
  batchId : ℕ
  address : String
  creditedDifficulty : ℚ
  acceptedShareCount : ℕ

/-- A row of `payout_snapshot`. -/
structure SnapshotRow where
  id : ℕ
  method : String
  blockHeight : ℤ
  coinbaseValueSats : ℤ
  windowStartShareIndex : ℕ
  windowEndShareIndex : ℕ
  totalCreditedDifficulty : ℚ
  totalAcceptedShareCount : ℕ
  eligibleAddressCount : ℕ
  includedOutputCount : ℕ
  distributedSats : ℤ
  unallocatedRemainderSats : ℤ

/-- A row of `payout_snapshot_entry`. -/
structure SnapshotEntryRow where
  snapshotId : ℕ
  entry : PayoutDistributionEntry
  deriving DecidableEq

/-- A row of `payout_balance`. -/
structure BalanceRow where
  balanceSats : ℤ
  totalPaidSats : ℤ
  deriving DecidableEq

/-- A row of `payout_history`. -/
structure HistoryRow where
  payoutSnapshotId : ℕ
  paidSats : ℤ
  percent : ℚ
  balanceBeforeSats : ℤ
  balanceAfterSats : ℤ
  isCoinbase : Bool
  deriving DecidableEq

/-- The two tables a finalization writes: the balance of each address, and the payouts of
each block height and address. -/
structure Ledger where
  balances : OrdMap String BalanceRow
  history : OrdMap (ℤ × String) HistoryRow
  deriving DecidableEq

structure Database where
  rollupBatches : List ShareRollupBatch
  rollupSummaries : List ShareRollupSummary
  snapshots : List SnapshotRow
  snapshotEntries : List SnapshotEntryRow
  ledger : Ledger
  /-- The next value of the `payout_snapshot` id sequence. -/
  nextSnapshotId : ℕ

/-- The settings of the service. -/
structure PayoutConfig where
  snapshotsEnabled : Bool
  method : String
  windowFactor : ℚ
  bootstrapWindow : Bool
  maxCoinbaseOutputs : ℕ
  minOutputSats : ℕ
  feeAddress : String
  feePercent : ℚ
  coinbaseWeightBudget : ℕ

/-- `PayoutSnapshotForTemplate`, without the mode. -/
structure PayoutSnapshotForTemplate where
  id : ℕ
  method : String
  blockHeight : ℤ
  coinbaseValueSats : ℤ
  windowStartShareIndex : ℕ
  windowEndShareIndex : ℕ
  totalCreditedDifficulty : ℚ
  totalAcceptedShareCount : ℕ
  eligibleAddressCount : ℕ
  includedOutputCount : ℕ
  distributedSats : ℤ
  unallocatedRemainderSats : ℤ
  payoutOutputs : List AddressObject

/-! ### The share window -/

/-- The window of `getPplnsWindow`. -/
structure PplnsWindow where
  startBatchId : ℕ
  endBatchId : ℕ
  windowStartShareIndex : ℕ
  windowEndShareIndex : ℕ
  totalCreditedDifficulty : ℚ
  totalAcceptedShareCount : ℕ

/-- The batches whose newer batches add up to less than the target difficulty, newest first. -/
def selectWindowBatches (windowTargetDifficulty : ℚ) :
    ℚ → List ShareRollupBatch → List ShareRollupBatch
  | _, [] => []
  | difficultyAfter, batch :: older =>
    let selected := selectWindowBatches windowTargetDifficulty
      (difficultyAfter + batch.creditedDifficulty) older
    if difficultyAfter < windowTargetDifficulty then batch :: selected else selected

/-- `getPplnsWindow`. -/
def getPplnsWindow (db : Database) (windowTargetDifficulty : ℚ) : Option PplnsWindow :=
  let ordered := Js.sort (fun a b => (b.endShareIndex : ℚ) - a.endShareIndex) db.rollupBatches
  match selectWindowBatches windowTargetDifficulty 0 ordered with
  | [] => none
  | batch :: batches => some
    { startBatchId := batches.foldl (fun n b => min n b.id) batch.id
      endBatchId := batches.foldl (fun n b => max n b.id) batch.id
      windowStartShareIndex := batches.foldl (fun n b => min n b.startShareIndex)
        batch.startShareIndex
      windowEndShareIndex := batches.foldl (fun n b => max n b.endShareIndex)
        batch.endShareIndex
      totalCreditedDifficulty := ((batch :: batches).map (·.creditedDifficulty)).sum
      totalAcceptedShareCount := ((batch :: batches).map (·.acceptedShareCount)).sum }

/-- `getAddressWork`: the work of the window, summed by address. -/
def getAddressWork (db : Database) (window : PplnsWindow) : List PayoutAddressWork :=
  let inWindow (summary : ShareRollupSummary) : Bool :=
    db.rollupBatches.any fun batch =>
      decide (batch.id = summary.batchId ∧ window.windowStartShareIndex ≤ batch.endShareIndex ∧
        batch.endShareIndex ≤ window.windowEndShareIndex)
  let grouped := (db.rollupSummaries.filter inWindow).foldl
    (fun (groups : OrdMap String CreditedWork) summary =>
      let existing := (groups.get? summary.address).getD ⟨0, 0⟩
      groups.set summary.address
        { creditedDifficulty := existing.creditedDifficulty + summary.creditedDifficulty
          acceptedShareCount := existing.acceptedShareCount + summary.acceptedShareCount })
    .empty
  (grouped.entries.filter fun group => 0 < group.2.creditedDifficulty).map fun group =>
    { address := group.1
      creditedDifficulty := group.2.creditedDifficulty
      acceptedShareCount := group.2.acceptedShareCount }

/-- `getFinalizedPayoutBlockCount`. -/
def getFinalizedPayoutBlockCount (db : Database) : ℕ :=
  (db.ledger.history.keys.map Prod.fst).toFinset.card

/-- `getEffectiveWindowFactor`: while few blocks were paid, a pool that bootstraps looks back
less far. -/
def getEffectiveWindowFactor (config : PayoutConfig) (db : Database) : ℚ :=
  if config.bootstrapWindow then
    min config.windowFactor (max 1 (getFinalizedPayoutBlockCount db + 1))
  else config.windowFactor

/-- `getOpenBalances`. -/
def getOpenBalances (db : Database) : List PayoutBalanceInput :=
  (db.ledger.balances.entries.filter fun row => row.2.balanceSats ≠ 0).map fun row =>
    { address := row.1, balanceSats := row.2.balanceSats }

/-! ### Limiting the outputs -/

/-- The entries with only the first `maxCoinbaseOutputs` outputs left, and the sats that the
dropped ones would have been paid. -/
def dropOutputs (maxCoinbaseOutputs : ℕ) :
    ℕ → List PayoutDistributionEntry → List PayoutDistributionEntry × ℤ
  | _, [] => ([], 0)
  | included, entry :: entries =>
    if entry.includedInCoinbase then
      let (rest, removed) := dropOutputs maxCoinbaseOutputs (included + 1) entries
      if included + 1 ≤ maxCoinbaseOutputs then (entry :: rest, removed)
      else
        ({ entry with
            payoutSats := 0
            balanceAfterSats := entry.balanceAfterSats + entry.payoutSats
            includedInCoinbase := false } :: rest, removed + entry.payoutSats)
    else
      let (rest, removed) := dropOutputs maxCoinbaseOutputs included entries
      (entry :: rest, removed)

/-- What a kept entry gets of the sats that were dropped, by largest remainder. -/
structure LimitAllocation where
  index : ℕ
  creditedDifficulty : ℚ
  address : String
  whole : ℤ
  fraction : ℚ

/-- Pay each allocation its whole part, and one more sat while any are left. -/
def payAllocations :
    List LimitAllocation → ℤ → List PayoutDistributionEntry → List PayoutDistributionEntry
  | [], _, entries => entries
  | allocation :: allocations, residual, entries =>
    let extra := allocation.whole + if 0 < residual then 1 else 0
    payAllocations allocations (if 0 < residual then residual - 1 else residual)
      (entries.modify allocation.index fun entry =>
        { entry with
          payoutSats := entry.payoutSats + extra
          balanceAfterSats := entry.balanceAfterSats - extra })

/-- `limitCoinbaseOutputs`. -/
def limitCoinbaseOutputs (env : PayoutEnv) (config : PayoutConfig)
    (entries : List PayoutDistributionEntry) : List PayoutDistributionEntry :=
  let (limitedEntries, removedPayoutSats) := dropOutputs config.maxCoinbaseOutputs 0 entries
  if removedPayoutSats ≤ 0 then limitedEntries
  else
    let keptActive := limitedEntries.zipIdx.filter fun e =>
      e.1.includedInCoinbase ∧ 0 < e.1.creditedDifficulty
    let keptDifficulty := (keptActive.map fun e => e.1.creditedDifficulty).sum
    if keptDifficulty ≤ 0 then limitedEntries
    else
      let exact (entry : PayoutDistributionEntry) : ℚ :=
        entry.creditedDifficulty * removedPayoutSats / keptDifficulty
      let allocations := Js.sort
        (fun a b => Js.orElse (b.fraction - a.fraction)
          (Js.orElse (b.creditedDifficulty - a.creditedDifficulty)
            (env.localeCompare a.address b.address)))
        (keptActive.map fun e =>
          { index := e.2
            creditedDifficulty := e.1.creditedDifficulty
            address := e.1.address
            whole := ⌊exact e.1⌋
            fraction := exact e.1 - ⌊exact e.1⌋ })
      let assigned := (keptActive.map fun e => ⌊exact e.1⌋).sum
      payAllocations allocations (removedPayoutSats - assigned) limitedEntries

/-! ### Creating a snapshot -/

structure CreateSnapshotInput where
  blockHeight : ℤ
  coinbaseValueSats : ℤ
  networkDifficulty : ℚ

/-- A payout as a percentage of the coinbase value. -/
def percentOfValue (payoutSats coinbaseValueSats : ℤ) : ℚ :=
  if 0 < coinbaseValueSats then (payoutSats : ℚ) / (coinbaseValueSats : ℚ) * 100 else 0

/-- The entries of a snapshot in the order of their ranks. -/
def Database.entriesOf (db : Database) (snapshotId : ℕ) : List PayoutDistributionEntry :=
  ((db.snapshotEntries.filter fun row => row.snapshotId = snapshotId).map (·.entry)).insertionSort
    fun a b => a.rank ≤ b.rank

/-- `getSnapshotById`. -/
def getSnapshotById (db : Database) (id : ℕ) : Option PayoutSnapshotForTemplate :=
  (db.snapshots.find? fun row => row.id = id).map fun snapshot =>
    { id := snapshot.id
      method := snapshot.method
      blockHeight := snapshot.blockHeight
      coinbaseValueSats := snapshot.coinbaseValueSats
      windowStartShareIndex := snapshot.windowStartShareIndex
      windowEndShareIndex := snapshot.windowEndShareIndex
      totalCreditedDifficulty := snapshot.totalCreditedDifficulty
      totalAcceptedShareCount := snapshot.totalAcceptedShareCount
      eligibleAddressCount := snapshot.eligibleAddressCount
      includedOutputCount := snapshot.includedOutputCount
      distributedSats := snapshot.distributedSats
      unallocatedRemainderSats := snapshot.unallocatedRemainderSats
      payoutOutputs := ((db.entriesOf id).filter (·.includedInCoinbase)).map fun entry =>
        { address := entry.address
          amountSats := some entry.payoutSats
          percent := some (percentOfValue entry.payoutSats snapshot.coinbaseValueSats) } }

/-- The template and window a snapshot row belongs to: the unique key of the table. -/
def SnapshotRow.hasKey (row : SnapshotRow) (method : String) (blockHeight coinbaseValueSats : ℤ)
    (windowEndShareIndex : ℕ) : Bool :=
  row.method = method && row.blockHeight = blockHeight &&
    row.coinbaseValueSats = coinbaseValueSats && row.windowEndShareIndex = windowEndShareIndex

/-- `getExistingSnapshot`: the newest row with the key. -/
def getExistingSnapshot (config : PayoutConfig) (db : Database) (input : CreateSnapshotInput)
    (windowEndShareIndex : ℕ) : Option PayoutSnapshotForTemplate :=
  let candidates := (db.snapshots.filter fun row =>
    row.hasKey config.method input.blockHeight input.coinbaseValueSats windowEndShareIndex).map
      (·.id)
  candidates.max?.bind (getSnapshotById db)

/-- The distribution of a template over the work and balances read, limited to the allowed
number of outputs, with the number of addresses it considered. Nothing is returned when
there is no work or nobody would be paid. -/
def distributeTemplate (env : PayoutEnv) (config : PayoutConfig) (coinbaseValueSats : ℤ)
    (addressWork : List PayoutAddressWork) (balances : List PayoutBalanceInput) :
    Option (List PayoutDistributionEntry × ℕ) :=
  if addressWork = [] then none
  else
    let distribution := buildPayoutDistribution env
      { addressWork
        balances
        coinbaseValueSats
        feeAddress := some config.feeAddress
        feePercent := config.feePercent
        minOutputSats := config.minOutputSats
        coinbaseWeightBudget := config.coinbaseWeightBudget }
    let entries := limitCoinbaseOutputs env config distribution.entries
    if entries.all fun entry => !entry.includedInCoinbase then none
    else some (entries, distribution.consideredAddressCount)

/-- The row that stores a distribution. -/
def snapshotRowOf (config : PayoutConfig) (input : CreateSnapshotInput) (window : PplnsWindow)
    (id : ℕ) (entries : List PayoutDistributionEntry) (consideredAddressCount : ℕ) :
    SnapshotRow :=
  let included := entries.filter (·.includedInCoinbase)
  let distributedSats := (included.map (·.payoutSats)).sum
  { id
    method := config.method
    blockHeight := input.blockHeight
    coinbaseValueSats := input.coinbaseValueSats
    windowStartShareIndex := window.windowStartShareIndex
    windowEndShareIndex := window.windowEndShareIndex
    totalCreditedDifficulty := window.totalCreditedDifficulty
    totalAcceptedShareCount := window.totalAcceptedShareCount
    eligibleAddressCount := consideredAddressCount
    includedOutputCount := included.length
    distributedSats
    unallocatedRemainderSats := input.coinbaseValueSats - distributedSats }

/-- The outcome of `createSnapshotForTemplate`: the transaction fails, there is nothing to pay,
or there is a snapshot. -/
inductive CreateSnapshotResult
  | failed
  | none
  | snapshot (snapshot : PayoutSnapshotForTemplate)

/-- `createSnapshotForTemplate`, as one transaction. Two entries with one address violate the
unique index of the entries, and the transaction is rolled back. -/
def createSnapshotForTemplate (env : PayoutEnv) (config : PayoutConfig) (db : Database)
    (input : CreateSnapshotInput) : CreateSnapshotResult × Database :=
  if !config.snapshotsEnabled || decide (input.coinbaseValueSats ≤ 0)
      || decide (input.networkDifficulty ≤ 0) then (.none, db)
  else
    let windowTargetDifficulty :=
      input.networkDifficulty * getEffectiveWindowFactor config db
    match getPplnsWindow db windowTargetDifficulty with
    | none => (.none, db)
    | some window =>
      if window.totalCreditedDifficulty ≤ 0 then (.none, db)
      else match getExistingSnapshot config db input window.windowEndShareIndex with
        | some existing => (.snapshot existing, db)
        | none =>
          match distributeTemplate env config input.coinbaseValueSats (getAddressWork db window)
              (getOpenBalances db) with
          | none => (.none, db)
          | some (entries, consideredAddressCount) =>
            if (entries.map (·.address)).Nodup then
              let id := db.nextSnapshotId
              let db' :=
                { db with
                  snapshots := db.snapshots ++
                    [snapshotRowOf config input window id entries consideredAddressCount]
                  snapshotEntries := db.snapshotEntries ++
                    entries.map fun entry => { snapshotId := id, entry }
                  nextSnapshotId := id + 1 }
              match getSnapshotById db' id with
              | some snapshot => (.snapshot snapshot, db')
              | none => (.none, db')
            else (.failed, { db with nextSnapshotId := db.nextSnapshotId + 1 })

/-! ### Finalizing a snapshot -/

/-- `isSuccessfulBlockSubmission`: no result, as a node answers for an accepted block, or the
text the RPC service puts in its place. -/
def isSuccessfulBlockSubmission (result : Option String) : Bool :=
  match result with
  | none => true
  | some text => text = "SUCCESS!"

structure FinalizeInput where
  payoutSnapshotId : Option ℕ
  blockHeight : ℤ
  blockSubmissionResult : Option String
  payoutMode : PayoutMode
  deriving DecidableEq

/-- The reasons for not finalizing. -/
inductive FinalizeRefusal
  | disabled
  | missingSnapshot
  | alreadyFinalized
  | duplicate
  deriving DecidableEq

/-- `PayoutFinalizationResult`. -/
inductive PayoutFinalizationResult
  | refused (reason : FinalizeRefusal)
  | finalized (payoutSnapshotId historyRows balanceRows : ℕ)
  deriving DecidableEq

/-- The balance upsert of one entry. The balance is replaced by the one the entry captured;
what was paid is added up. -/
def Ledger.upsertBalance (ledger : Ledger) (entry : PayoutDistributionEntry) : Ledger :=
  let paid := if entry.includedInCoinbase then entry.payoutSats else 0
  let totalPaidSats := ((ledger.balances.get? entry.address).map (·.totalPaidSats)).getD 0
  { ledger with
    balances := ledger.balances.set entry.address
      { balanceSats := entry.balanceAfterSats, totalPaidSats := totalPaidSats + paid } }

/-- The history insert of one entry, which does nothing when the row exists. -/
def Ledger.insertHistory (ledger : Ledger) (blockHeight : ℤ) (payoutSnapshotId : ℕ)
    (coinbaseValue : ℤ) (entry : PayoutDistributionEntry) : Ledger :=
  if (ledger.history.get? (blockHeight, entry.address)).isSome then ledger
  else
    { ledger with
      history := ledger.history.set (blockHeight, entry.address)
        { payoutSnapshotId
          paidSats := entry.payoutSats
          percent :=
            if entry.includedInCoinbase then percentOfValue entry.payoutSats coinbaseValue else 0
          balanceBeforeSats := entry.balanceBeforeSats
          balanceAfterSats := entry.balanceAfterSats
          isCoinbase := entry.includedInCoinbase } }

/-- The ledger once the entries of a snapshot are applied. -/
def Ledger.apply (ledger : Ledger) (blockHeight : ℤ) (payoutSnapshotId : ℕ) (coinbaseValue : ℤ)
    (entries : List PayoutDistributionEntry) : Ledger :=
  entries.foldl (fun ledger entry =>
    (ledger.upsertBalance entry).insertHistory blockHeight payoutSnapshotId coinbaseValue entry)
    ledger

/-- Whether some address was paid at a height. -/
def Ledger.finalizedAt (ledger : Ledger) (blockHeight : ℤ) : Bool :=
  ledger.history.keys.any fun key => key.1 = blockHeight

/-- `finalizeSnapshotForBlock`, as one transaction. -/
def finalizeSnapshotForBlock (config : PayoutConfig) (db : Database) (input : FinalizeInput) :
    PayoutFinalizationResult × Database :=
  if !config.snapshotsEnabled then (.refused .disabled, db)
  else if input.payoutMode ≠ .pplns then (.refused .missingSnapshot, db)
  else if !isSuccessfulBlockSubmission input.blockSubmissionResult then
    (.refused .missingSnapshot, db)
  else match input.payoutSnapshotId with
    | none => (.refused .missingSnapshot, db)
    | some payoutSnapshotId =>
      match db.snapshots.find? fun row => row.id = payoutSnapshotId with
      | none => (.refused .missingSnapshot, db)
      | some snapshot =>
        if db.ledger.finalizedAt input.blockHeight then (.refused .alreadyFinalized, db)
        else
          let entries := db.entriesOf payoutSnapshotId
          if entries = [] then (.refused .missingSnapshot, db)
          else
            (.finalized payoutSnapshotId entries.length entries.length,
              { db with
                ledger := db.ledger.apply input.blockHeight payoutSnapshotId
                  snapshot.coinbaseValueSats entries })

/-- Nothing but a successful submission moves the ledger. -/
theorem finalizeSnapshotForBlock_unsuccessful (config : PayoutConfig) (db : Database)
    (input : FinalizeInput)
    (h : isSuccessfulBlockSubmission input.blockSubmissionResult = false) :
    (finalizeSnapshotForBlock config db input).2 = db := by
  unfold finalizeSnapshotForBlock
  split
  · rfl
  · split
    · rfl
    · rw [if_pos (by simp [h])]

/-- Creating a snapshot leaves the ledger alone. -/
theorem createSnapshotForTemplate_ledger (env : PayoutEnv) (config : PayoutConfig)
    (db : Database) (input : CreateSnapshotInput) :
    (createSnapshotForTemplate env config db input).2.ledger = db.ledger := by
  simp only [createSnapshotForTemplate]
  repeat' split
  all_goals rfl

end PublicPool
