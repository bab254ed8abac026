import PublicPool.Lib.Runs
import PublicPool.Payout.Snapshot

/-!
# `PublicPool.Payout.Interleaving`: payout snapshots, one statement at a time

The transactions of `PublicPool.Payout.Snapshot`, taken apart. Any number of calls of
`createSnapshotForTemplate` and `finalizeSnapshotForBlock` are under way, each at one of its SQL
statements, and they take turns: a run of `payoutMachine` is an interleaving of their statements
under READ COMMITTED.

A statement sees the rows that are committed when it starts and those its own transaction wrote.
`db` holds the committed rows, and a call holds what it wrote. A statement that would write a row
another transaction wrote, or insert a key another one inserted, waits until that one has ended:
its turn changes nothing. A transaction may be rolled back at any time, as by a deadlock or a lost
connection. The id sequence of the snapshots is not rolled back.

The share rollups change the batch tables in between, in any way.
-/

set_option autoImplicit false

namespace PublicPool

open Lib (OrdMap Machine)

/-! ### The calls -/

/-- The next statement of a call of `createSnapshotForTemplate`. -/
inductive CreateStage
  | readFactor
  | readWindow (effectiveWindowFactor : ℚ)
  | readExisting (window : PplnsWindow)
  | readWork (window : PplnsWindow)
  | readBalances (window : PplnsWindow) (addressWork : List PayoutAddressWork)
  | insertSnapshot (window : PplnsWindow) (entries : List PayoutDistributionEntry)
      (consideredAddressCount : ℕ)
  | insertEntry (row : SnapshotRow) (inserted pending : List PayoutDistributionEntry)
  | commit (row : SnapshotRow) (entries : List PayoutDistributionEntry)

/-- The next statement of a call of `finalizeSnapshotForBlock`. The two writes of an entry are
followed by those of the pending ones. -/
inductive FinalizeStage
  | readSnapshot
  | readHistory (snapshot : SnapshotRow)
  | readEntries (snapshot : SnapshotRow)
  | upsertBalance (snapshot : SnapshotRow) (entry : PayoutDistributionEntry)
      (pending : List PayoutDistributionEntry)
  | insertHistory (snapshot : SnapshotRow) (entry : PayoutDistributionEntry)
      (pending : List PayoutDistributionEntry)
  | commit (snapshot : SnapshotRow)

/-- The stage after the writes of an entry: those of the next one, or the end. -/
def FinalizeStage.next (snapshot : SnapshotRow) : List PayoutDistributionEntry → FinalizeStage
  | [] => .commit snapshot
  | entry :: pending => .upsertBalance snapshot entry pending

/-- A call of `finalizeSnapshotForBlock`, with the rows it wrote and the entries it is through
with. -/
structure FinalizeCall where
  input : FinalizeInput
  payoutSnapshotId : ℕ
  stage : FinalizeStage
  written : Ledger
  applied : List PayoutDistributionEntry

/-- A call before its first statement. -/
def FinalizeCall.start (input : FinalizeInput) (payoutSnapshotId : ℕ) : FinalizeCall where
  input := input
  payoutSnapshotId := payoutSnapshotId
  stage := .readSnapshot
  written := { balances := .empty, history := .empty }
  applied := []

/-- A call that is under way. -/
inductive PayoutCall
  | create (input : CreateSnapshotInput) (stage : CreateStage)
  | finalize (call : FinalizeCall)

structure PayoutWorld where
  db : Database
  calls : ℕ → Option PayoutCall
  /-- How many calls there have been. -/
  nextCall : ℕ

/-- The database before the first block. -/
def PayoutWorld.initial : PayoutWorld where
  db :=
    { rollupBatches := []
      rollupSummaries := []
      snapshots := []
      snapshotEntries := []
      ledger := { balances := .empty, history := .empty }
      nextSnapshotId := 1 }
  calls _ := none
  nextCall := 0

/-- What happens: a call is made, a call takes its turn, a transaction is rolled back, or the
rollups change. -/
inductive PayoutInput
  | createSnapshotForTemplate (input : CreateSnapshotInput)
  | finalizeSnapshotForBlock (input : FinalizeInput)
  | statement (call : ℕ)
  | rollback (call : ℕ)
  | rollup (rollupBatches : List ShareRollupBatch) (rollupSummaries : List ShareRollupSummary)

/-- How a call ends. -/
inductive PayoutEvent
  | created (input : CreateSnapshotInput) (result : CreateSnapshotResult)
  | finalizeEnded (input : FinalizeInput) (result : PayoutFinalizationResult)
  | failed

/-- What a statement comes to: it waits for a lock, or the call goes on, or it ends. -/
inductive StatementResult
  | waits
  | goesOn (db : Database) (call : PayoutCall)
  | ends (db : Database) (event : PayoutEvent)

/-! ### Rows and locks -/

/-- A ledger with the rows of a transaction over it. -/
def Ledger.overlay (committed written : Ledger) : Ledger where
  balances := committed.balances.setAll written.balances.entries
  history := committed.history.setAll written.history.entries

/-- The row that the balance upsert leaves. -/
def BalanceRow.upsert (entry : PayoutDistributionEntry) (existing : Option BalanceRow) :
    BalanceRow where
  balanceSats := entry.balanceAfterSats
  totalPaidSats := (existing.map (·.totalPaidSats)).getD 0 +
    if entry.includedInCoinbase then entry.payoutSats else 0

/-- The row that the history insert adds. -/
def HistoryRow.ofEntry (payoutSnapshotId : ℕ) (coinbaseValue : ℤ)
    (entry : PayoutDistributionEntry) : HistoryRow where
  payoutSnapshotId := payoutSnapshotId
  paidSats := entry.payoutSats
  percent := if entry.includedInCoinbase then percentOfValue entry.payoutSats coinbaseValue else 0
  balanceBeforeSats := entry.balanceBeforeSats
  balanceAfterSats := entry.balanceAfterSats
  isCoinbase := entry.includedInCoinbase

namespace PayoutCall

/-- Whether a call wrote the balance of an address. -/
def holdsBalance (address : String) : PayoutCall → Bool
  | .create .. => false
  | .finalize call => (call.written.balances.get? address).isSome

/-- Whether a call inserted the payout of an address at a height. -/
def holdsPayout (blockHeight : ℤ) (address : String) : PayoutCall → Bool
  | .create .. => false
  | .finalize call => (call.written.history.get? (blockHeight, address)).isSome

/-- Whether a call inserted a snapshot with a key. -/
def holdsSnapshot (method : String) (blockHeight coinbaseValueSats : ℤ)
    (windowEndShareIndex : ℕ) : PayoutCall → Bool
  | .create _ (.insertEntry row _ _) | .create _ (.commit row _) =>
    row.hasKey method blockHeight coinbaseValueSats windowEndShareIndex
  | _ => false

end PayoutCall

/-- Whether a call other than the given one has a property. -/
def PayoutWorld.otherCall (world : PayoutWorld) (id : ℕ) (p : PayoutCall → Bool) : Bool :=
  (List.range world.nextCall).any fun id' => decide (id' ≠ id) && (world.calls id').any p

/-! ### Statements -/

section
variable (env : PayoutEnv) (config : PayoutConfig) (world : PayoutWorld) (id : ℕ)

/-- The statements of `createSnapshotForTemplate`. -/
def createStatement (input : CreateSnapshotInput) : CreateStage → StatementResult
  | .readFactor =>
    .goesOn world.db (.create input (.readWindow (getEffectiveWindowFactor config world.db)))
  | .readWindow effectiveWindowFactor =>
    match getPplnsWindow world.db (input.networkDifficulty * effectiveWindowFactor) with
    | none => .ends world.db (.created input .none)
    | some window =>
      if window.totalCreditedDifficulty ≤ 0 then .ends world.db (.created input .none)
      else .goesOn world.db (.create input (.readExisting window))
  | .readExisting window =>
    match getExistingSnapshot config world.db input window.windowEndShareIndex with
    | some existing => .ends world.db (.created input (.snapshot existing))
    | none => .goesOn world.db (.create input (.readWork window))
  | .readWork window =>
    .goesOn world.db (.create input (.readBalances window (getAddressWork world.db window)))
  | .readBalances window addressWork =>
    match distributeTemplate env config input.coinbaseValueSats addressWork
        (getOpenBalances world.db) with
    | none => .ends world.db (.created input .none)
    | some (entries, consideredAddressCount) =>
      .goesOn world.db (.create input (.insertSnapshot window entries consideredAddressCount))
  | .insertSnapshot window entries consideredAddressCount =>
    if world.otherCall id (·.holdsSnapshot config.method input.blockHeight
        input.coinbaseValueSats window.windowEndShareIndex) then .waits
    else
      let db := { world.db with nextSnapshotId := world.db.nextSnapshotId + 1 }
      if world.db.snapshots.any (·.hasKey config.method input.blockHeight
          input.coinbaseValueSats window.windowEndShareIndex) then
        .ends db (.created input .failed)
      else
        .goesOn db (.create input (.insertEntry (snapshotRowOf config input window
          world.db.nextSnapshotId entries consideredAddressCount) [] entries))
  | .insertEntry row inserted [] => .goesOn world.db (.create input (.commit row inserted))
  | .insertEntry row inserted (entry :: pending) =>
    if entry.address ∈ inserted.map (·.address) then .ends world.db (.created input .failed)
    else .goesOn world.db (.create input (.insertEntry row (inserted ++ [entry]) pending))
  | .commit row entries =>
    let db :=
      { world.db with
        snapshots := world.db.snapshots ++ [row]
        snapshotEntries := world.db.snapshotEntries ++
          entries.map fun entry => { snapshotId := row.id, entry } }
    match getSnapshotById db row.id with
    | some snapshot => .ends db (.created input (.snapshot snapshot))
    | none => .ends db (.created input .none)

/-- The statements of `finalizeSnapshotForBlock`. -/
def finalizeStatement (call : FinalizeCall) : StatementResult :=
  let goesOn (stage : FinalizeStage) : StatementResult :=
    .goesOn world.db (.finalize { call with stage })
  let refused (reason : FinalizeRefusal) : StatementResult :=
    .ends world.db (.finalizeEnded call.input (.refused reason))
  let visible := world.db.ledger.overlay call.written
  match call.stage with
  | .readSnapshot =>
    match world.db.snapshots.find? fun row => row.id = call.payoutSnapshotId with
    | none => refused .missingSnapshot
    | some snapshot => goesOn (.readHistory snapshot)
  | .readHistory snapshot =>
    if visible.finalizedAt call.input.blockHeight then refused .alreadyFinalized
    else goesOn (.readEntries snapshot)
  | .readEntries snapshot =>
    match world.db.entriesOf call.payoutSnapshotId with
    | [] => refused .missingSnapshot
    | entry :: pending => goesOn (.upsertBalance snapshot entry pending)
  | .upsertBalance snapshot entry pending =>
    if world.otherCall id (·.holdsBalance entry.address) then .waits
    else
      let row := BalanceRow.upsert entry (visible.balances.get? entry.address)
      .goesOn world.db (.finalize
        { call with
          stage := .insertHistory snapshot entry pending
          written :=
            { call.written with balances := call.written.balances.set entry.address row } })
  | .insertHistory snapshot entry pending =>
    let key := (call.input.blockHeight, entry.address)
    let stage := FinalizeStage.next snapshot pending
    let applied := call.applied ++ [entry]
    if (visible.history.get? key).isSome then
      .goesOn world.db (.finalize { call with stage, applied })
    else if world.otherCall id (·.holdsPayout call.input.blockHeight entry.address) then .waits
    else
      let row := HistoryRow.ofEntry call.payoutSnapshotId snapshot.coinbaseValueSats entry
      .goesOn world.db (.finalize
        { call with
          stage
          applied
          written := { call.written with history := call.written.history.set key row } })
  | .commit _ =>
    .ends { world.db with ledger := visible }
      (.finalizeEnded call.input (.finalized call.payoutSnapshotId call.applied.length
        call.applied.length))

/-- The next statement of a call. -/
def PayoutCall.statement : PayoutCall → StatementResult
  | .create input stage => createStatement env config world id input stage
  | .finalize call => finalizeStatement world id call

end

/-! ### The machine -/

namespace PayoutWorld

variable (world : PayoutWorld)

/-- A call goes on or, with `none`, is over. -/
def setCall (id : ℕ) (call : Option PayoutCall) : PayoutWorld :=
  { world with calls := Function.update world.calls id call }

/-- A new call. -/
def begin (call : PayoutCall) : PayoutWorld :=
  { world.setCall world.nextCall (some call) with nextCall := world.nextCall + 1 }

/-- `createSnapshotForTemplate` up to its transaction. -/
def beginCreate (config : PayoutConfig) (input : CreateSnapshotInput) :
    PayoutWorld × List PayoutEvent :=
  if !config.snapshotsEnabled || decide (input.coinbaseValueSats ≤ 0)
      || decide (input.networkDifficulty ≤ 0) then (world, [.created input .none])
  else (world.begin (.create input .readFactor), [])

/-- `finalizeSnapshotForBlock` up to its transaction. -/
def beginFinalize (config : PayoutConfig) (input : FinalizeInput) :
    PayoutWorld × List PayoutEvent :=
  let refused (reason : FinalizeRefusal) : PayoutWorld × List PayoutEvent :=
    (world, [.finalizeEnded input (.refused reason)])
  if !config.snapshotsEnabled then refused .disabled
  else if input.payoutMode ≠ .pplns then refused .missingSnapshot
  else if !isSuccessfulBlockSubmission input.blockSubmissionResult then refused .missingSnapshot
  else match input.payoutSnapshotId with
    | none => refused .missingSnapshot
    | some payoutSnapshotId =>
      (world.begin (.finalize (.start input payoutSnapshotId)), [])

end PayoutWorld

/-- One step. -/
def payoutStep (env : PayoutEnv) (config : PayoutConfig) (world : PayoutWorld) :
    PayoutInput → PayoutWorld × List PayoutEvent
  | .createSnapshotForTemplate input => world.beginCreate config input
  | .finalizeSnapshotForBlock input => world.beginFinalize config input
  | .statement id =>
    match world.calls id with
    | none => (world, [])
    | some call =>
      match call.statement env config world id with
      | .waits => (world, [])
      | .goesOn db call => ({ world.setCall id (some call) with db }, [])
      | .ends db event => ({ world.setCall id none with db }, [event])
  | .rollback id =>
    match world.calls id with
    | none => (world, [])
    | some _ => (world.setCall id none, [.failed])
  | .rollup rollupBatches rollupSummaries =>
    ({ world with db := { world.db with rollupBatches, rollupSummaries } }, [])

/-- Payout snapshots as a state machine, at the level of statements. -/
def payoutMachine (env : PayoutEnv) (config : PayoutConfig) :
    Machine PayoutWorld PayoutInput PayoutEvent :=
  ⟨payoutStep env config⟩

end PublicPool
