import PublicPool.Lib.Runs

/-!
# `PublicPool.ShareAccounting.WriteQueue`: the queue before the database

The model of the write queue in `ORM/share-accounting/share-accounting.service.ts`. Accepted
shares wait in `pendingShares` until a batch of them is inserted; each comes with the promise that
`recordAcceptedShare` returned for it. A flush is started when a batch is full, when the timer
fires, when the flush before it has finished, or by `flushPendingShares`.

`flushBatch` is suspended while its insert is under way, and what `finally` adds runs in a turn of
its own. `flushes` are the calls of `flushBatch` that have not come to an end; the source has them
on its stack and keeps only the flag `activeFlush`.
-/

set_option autoImplicit false

namespace PublicPool.ShareAccounting

open Lib (Machine)

variable (Entity : Type)

/-- `PendingShare`. Its two callbacks are those of one promise, which is known by its number. -/
structure PendingShare where
  entity : Entity
  promise : ℕ
  deriving DecidableEq

/-- A call of `flushBatch`: it awaits its insert, or what `finally` adds is still to come. -/
inductive Flush
  | inserting (batch : List (PendingShare Entity))
  | settled

/-- The settings of the queue. `readPositiveInt` makes them positive. -/
structure QueueConfig where
  batchSize : ℕ
  maxQueueSize : ℕ
  batchSize_pos : 0 < batchSize
  maxQueueSize_pos : 0 < maxQueueSize

/-- `ShareAccountingService`, with the flushes under way and the number of promises made. -/
structure ShareAccountingService where
  pendingShares : List (PendingShare Entity)
  flushTimer : Bool
  activeFlush : Bool
  flushes : List (Flush Entity)
  promises : ℕ

/-- What happens to the queue: a share is recorded, the timer fires, the insert of a flush ends, a
flush goes on with `finally`, or a loop of `flushPendingShares` comes round. -/
inductive QueueInput
  | recordAcceptedShare (entity : Entity)
  | timer
  | insertSettles (k : ℕ) (succeeded : Bool)
  | finallyFlush (k : ℕ)
  | flushPendingShares

/-- What the queue does: it refuses a share, queues it, calls `insert`, sees an insert end, and
resolves or rejects the promise of a share. -/
inductive QueueEvent
  | refused (entity : Entity)
  | queued (share : PendingShare Entity)
  | inserted (batch : List (PendingShare Entity))
  | settled (batch : List (PendingShare Entity)) (succeeded : Bool)
  | resolved (share : PendingShare Entity)
  | rejected (share : PendingShare Entity)

variable {Entity}

namespace ShareAccountingService

def initial : ShareAccountingService Entity where
  pendingShares := []
  flushTimer := false
  activeFlush := false
  flushes := []
  promises := 0

variable (config : QueueConfig) (service : ShareAccountingService Entity)

/-- `scheduleFlush`. -/
def scheduleFlush : ShareAccountingService Entity :=
  if service.flushTimer || service.activeFlush then service
  else { service with flushTimer := true }

/-- `startFlush`, with `flushBatch` up to its insert. -/
def startFlush : ShareAccountingService Entity × List (QueueEvent Entity) :=
  if service.activeFlush then (service, [])
  else
    match service.pendingShares.take config.batchSize with
    | [] => ({ service with flushTimer := false }, [])
    | batch =>
      ({ service with
          flushTimer := false
          pendingShares := service.pendingShares.drop config.batchSize
          activeFlush := true
          flushes := service.flushes ++ [.inserting batch] },
        [.inserted batch])

/-- `recordAcceptedShare` once the entity is created. -/
def recordAcceptedShare (entity : Entity) :
    ShareAccountingService Entity × List (QueueEvent Entity) :=
  if config.maxQueueSize ≤ service.pendingShares.length then (service, [.refused entity])
  else
    let share : PendingShare Entity := { entity, promise := service.promises }
    let queued :=
      { service with
        pendingShares := service.pendingShares ++ [share]
        promises := service.promises + 1 }
    if config.batchSize ≤ queued.pendingShares.length then
      let (flushing, events) := queued.startFlush config
      (flushing, .queued share :: events)
    else (queued.scheduleFlush, [.queued share])

/-- The callback of the timer. -/
def timerFires : ShareAccountingService Entity × List (QueueEvent Entity) :=
  if service.flushTimer then { service with flushTimer := false }.startFlush config
  else (service, [])

/-- The callbacks of a batch, after its insert. -/
def settle (batch : List (PendingShare Entity)) (succeeded : Bool) : List (QueueEvent Entity) :=
  .settled batch succeeded :: batch.map fun share =>
    if succeeded then .resolved share else .rejected share

/-- `flushBatch` goes on after its insert. -/
def insertSettles (k : ℕ) (succeeded : Bool) :
    ShareAccountingService Entity × List (QueueEvent Entity) :=
  match service.flushes[k]? with
  | some (.inserting batch) =>
    ({ service with flushes := service.flushes.set k .settled }, settle batch succeeded)
  | _ => (service, [])

/-- The callback of `finally`. -/
def finallyFlush (k : ℕ) : ShareAccountingService Entity × List (QueueEvent Entity) :=
  match service.flushes[k]? with
  | some .settled =>
    let service := { service with activeFlush := false, flushes := service.flushes.eraseIdx k }
    if config.batchSize ≤ service.pendingShares.length then service.startFlush config
    else if 0 < service.pendingShares.length then (service.scheduleFlush, [])
    else (service, [])
  | _ => (service, [])

/-- The loop of `flushPendingShares`; it waits while a flush is active. -/
def flushPendingShares : ShareAccountingService Entity × List (QueueEvent Entity) :=
  if service.pendingShares ≠ [] && !service.activeFlush then service.startFlush config
  else (service, [])

/-- One step of the queue. -/
def step : QueueInput Entity → ShareAccountingService Entity × List (QueueEvent Entity)
  | .recordAcceptedShare entity => service.recordAcceptedShare config entity
  | .timer => service.timerFires config
  | .insertSettles k succeeded => service.insertSettles k succeeded
  | .finallyFlush k => service.finallyFlush config k
  | .flushPendingShares => service.flushPendingShares config

end ShareAccountingService

/-- The queue as a state machine. -/
def queueMachine (config : QueueConfig) :
    Machine (ShareAccountingService Entity) (QueueInput Entity) (QueueEvent Entity) :=
  ⟨ShareAccountingService.step config⟩

end PublicPool.ShareAccounting
