import PublicPool.Accounting
import PublicPool.Lib.UniqueTable
import PublicPool.ShareAccounting.WriteQueue

/-!
# `PublicPool.ShareAccounting.ShareTable`: the write queue and `accepted_share_entity`

`flushBatch` inserts a whole batch with one statement, and the table decides whether the statement
succeeds: it fails when a text of some row cannot be stored in its column, or when
`IDX_accepted_share_unique_submission` has the key of some row already. The columns are those of
`accepted-share.entity.ts` and of the migrations.

Other processes write to the table as well, at any moment and whatever they like.
-/

set_option autoImplicit false

namespace PublicPool.ShareAccounting

open Lib (Machine TableRules)

/-- `AcceptedShareEntity`, without the columns that the database fills and the id of the client. -/
structure AcceptedShareEntity extends AcceptedShareRecord where
  acceptedAt : ℤ
  deriving DecidableEq

/-- `recordAcceptedShare` up to the queue. No caller says when the share was accepted. A record has
the defaults of what its caller leaves out. -/
def createShare (record : AcceptedShareRecord) (now : ℤ) : AcceptedShareEntity :=
  { record with acceptedAt := now }

/-! ### The table -/

/-- A text in a column `varchar`, or `varchar(limit)`. PostgreSQL has no character U+0000, and cuts
what is too long only when that is blanks. -/
def storedText (limit : Option ℕ) (value : String) : Option String :=
  if '\x00' ∈ value.toList then none
  else match limit with
    | none => some value
    | some limit =>
      if value.length ≤ limit then some value
      else if (value.toList.drop limit).all (· = ' ') then
        some (String.ofList (value.toList.take limit))
      else none

/-- The row of a share, if the table can store its texts. -/
def shareRow (share : AcceptedShareEntity) : Option AcceptedShareEntity := do
  let address ← storedText (some 62) share.address
  let clientName ← storedText none share.clientName
  let sessionId ← storedText (some 8) share.sessionId
  let jobId ← storedText none share.jobId
  let jobTemplateId ← storedText none share.jobTemplateId
  let nonce ← storedText none share.nonce
  let ntime ← storedText none share.ntime
  let version ← storedText none share.version
  let extraNonce2 ← storedText none share.extraNonce2
  let blockSubmissionResult ← match share.blockSubmissionResult with
    | none => some none
    | some result => (storedText none result).map some
  return { share with
    address, clientName, sessionId, jobId, jobTemplateId, nonce, ntime, version, extraNonce2,
    blockSubmissionResult }

/-- The columns of `IDX_accepted_share_unique_submission`. -/
structure SubmissionKey where
  acceptedAt : ℤ
  payoutMode : PayoutMode
  protocol : ShareProtocol
  sessionId : String
  jobId : String
  nonce : String
  ntime : String
  version : String
  extraNonce2 : String
  deriving DecidableEq

def submissionKey (row : AcceptedShareEntity) : SubmissionKey where
  acceptedAt := row.acceptedAt
  payoutMode := row.payoutMode
  protocol := row.protocol
  sessionId := row.sessionId
  jobId := row.jobId
  nonce := row.nonce
  ntime := row.ntime
  version := row.version
  extraNonce2 := row.extraNonce2

/-- What `accepted_share_entity` asks of the shares that are queued. -/
def shareTable : TableRules (PendingShare AcceptedShareEntity) AcceptedShareEntity SubmissionKey where
  row share := shareRow share.entity
  key := submissionKey

/-! ### The queue with its table -/

/-- The queue, and what the table holds. -/
structure ShareStore where
  service : ShareAccountingService AcceptedShareEntity
  table : List AcceptedShareEntity

/-- What happens: what happens to the queue, and that others change the table. -/
inductive StoreInput
  | recordAcceptedShare (record : AcceptedShareRecord) (now : ℤ)
  | timer
  | insertSettles (k : ℕ)
  | finallyFlush (k : ℕ)
  | flushPendingShares
  | tableChanges (table : List AcceptedShareEntity)

/-- What the queue does, and each insert with what the table held before and after it. -/
inductive StoreEvent
  | queue (event : QueueEvent AcceptedShareEntity)
  | insertRan (table : List AcceptedShareEntity) (batch : List (PendingShare AcceptedShareEntity))
      (after : List AcceptedShareEntity)

namespace ShareStore

def initial (table : List AcceptedShareEntity) : ShareStore where
  service := .initial
  table := table

variable (config : QueueConfig) (store : ShareStore)

/-- The queue goes on, and the table stays. -/
def queueStep (input : QueueInput AcceptedShareEntity) : ShareStore × List StoreEvent :=
  let (service, events) := store.service.step config input
  ({ store with service }, events.map .queue)

/-- The insert of a flush runs, and `flushBatch` goes on. -/
def insertSettles (k : ℕ) : ShareStore × List StoreEvent :=
  match store.service.flushes[k]? with
  | some (.inserting batch) =>
    let inserted := shareTable.insertRows store.table batch
    let after := inserted.getD store.table
    let (service, events) := store.service.insertSettles k inserted.isSome
    ({ service, table := after }, .insertRan store.table batch after :: events.map .queue)
  | _ => (store, [])

/-- One step of the queue and its table. -/
def step : StoreInput → ShareStore × List StoreEvent
  | .recordAcceptedShare record now =>
    store.queueStep config (.recordAcceptedShare (createShare record now))
  | .timer => store.queueStep config .timer
  | .insertSettles k => store.insertSettles k
  | .finallyFlush k => store.queueStep config (.finallyFlush k)
  | .flushPendingShares => store.queueStep config .flushPendingShares
  | .tableChanges table => ({ store with table }, [])

end ShareStore

/-- The queue and its table as a state machine. -/
def storeMachine (config : QueueConfig) : Machine ShareStore StoreInput StoreEvent :=
  ⟨ShareStore.step config⟩

end PublicPool.ShareAccounting
