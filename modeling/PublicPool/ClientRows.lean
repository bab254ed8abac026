import Mathlib.Data.Rat.Defs
import PublicPool.Accounting
import PublicPool.Lib.Runs

/-!
# `PublicPool.ClientRows`: the rows of a connection in the client table

A connection shows up on an address page by a row of the client table. The row is inserted when
the first handler needs it (`ensureClientEntity`); an SV1 connection that works for other
identities by way of `mining.set_payout` has one more row for each (`ensurePayoutPresence`). When
the connection goes away, `destroy` soft-deletes what it knows of.

All of this is asynchronous. The model has one step per turn of the event loop: a call of one of
these methods up to its first `await`, `destroy` going on once the inserts it waits for are
settled, and a statement of the table that takes effect or fails. A statement that is under way
is `pending`, and any of them may be the next one to settle. Handlers that were under way when the
connection was closed go on, so the calls may come at any time, also after `destroy`.

A row's number is its `id`. A statement that fails changes nothing.
-/

set_option autoImplicit false

namespace PublicPool

open Lib

/-! ### The client table -/

/-- `ClientEntity`, as far as the connection writes it. `deleted` says whether `deletedAt` is
set. -/
structure ClientEntity where
  address : String
  clientName : String
  hashRate : ℚ
  deleted : Bool
deriving DecidableEq

namespace ClientService

/-- `insert`. The new row has the defaults of the columns that the caller does not give. It is
the last one, and its number the number of rows before. -/
def insert (rows : List ClientEntity) (address clientName : String) : List ClientEntity :=
  rows ++ [{ address, clientName, hashRate := 0, deleted := false }]

/-- `delete`, which soft-deletes. -/
def delete (rows : List ClientEntity) (id : ℕ) : List ClientEntity :=
  rows.modify id fun row => { row with deleted := true }

/-- `updateHashRate`, which also takes the soft-delete back. -/
def updateHashRate (rows : List ClientEntity) (id : ℕ) (hashRate : ℚ) : List ClientEntity :=
  rows.modify id fun row => { row with hashRate := hashRate, deleted := false }

/-- `heartbeat`, which takes the soft-delete back. -/
def heartbeat (rows : List ClientEntity) (id : ℕ) : List ClientEntity :=
  rows.modify id fun row => { row with deleted := false }

end ClientService

/-- A statement of the client table that a connection has sent. -/
inductive ClientStatement
  /-- The connection's own row. -/
  | insertClient (address clientName : String)
  /-- The row of a payout identity, the key of the identity and the promise of the insert. -/
  | insertVirtual (promise : ℕ) (key address clientName : String)
  | delete (id : ℕ)
  | updateHashRate (id : ℕ) (hashRate : ℚ)
  | heartbeat (id : ℕ)

/-- The promise of an insert. -/
inductive InsertPromise
  | inserting
  | inserted (id : ℕ)
  | failed
deriving DecidableEq

def InsertPromise.settled : InsertPromise → Bool
  | .inserting => false
  | .inserted _ | .failed => true

/-- How far `destroy` is. -/
inductive DestroyPhase
  /-- It was not called. -/
  | alive
  /-- It waits for the inserts that it found in the map. -/
  | awaiting (snapshot : List ℕ)
  /-- It has sent its deletes. -/
  | deleting
deriving DecidableEq

/-- The two kinds of connections. -/
inductive StratumVersion
  | v1
  | v2
deriving DecidableEq

/-! ### A connection -/

/-- What a connection knows of its rows, the statements it has sent, and the rows. -/
structure ClientConnection where
  version : StratumVersion
  /-- `CLIENT_HASHRATE_PERSIST_INTERVAL_MS`. -/
  hashRatePersistIntervalMs : ℕ
  clientAuthorization : Option UserIdentity
  currentPayoutAddress : Option String
  currentPayoutWorker : Option String
  /-- The `id` of `clientEntity`. -/
  clientEntity : Option ℕ
  /-- The promise `creatingEntity` is there. -/
  creatingEntity : Bool
  /-- The promises of the inserts, by key. -/
  virtualWorkerEntities : OrdMap String ℕ
  inserts : List InsertPromise
  /-- The promises on whose row a heartbeat waits. -/
  heartbeatsAfter : List ℕ
  lastHashRatePersistedAt : ℕ
  destroyPhase : DestroyPhase
  pending : List ClientStatement
  rows : List ClientEntity

namespace ClientConnection

/-- A connection that was just accepted. -/
def opened (version : StratumVersion) (hashRatePersistIntervalMs : ℕ) : ClientConnection where
  version := version
  hashRatePersistIntervalMs := hashRatePersistIntervalMs
  clientAuthorization := none
  currentPayoutAddress := none
  currentPayoutWorker := none
  clientEntity := none
  creatingEntity := false
  virtualWorkerEntities := OrdMap.empty
  inserts := []
  heartbeatsAfter := []
  lastHashRatePersistedAt := 0
  destroyPhase := .alive
  pending := []
  rows := []

def send (c : ClientConnection) (statements : List ClientStatement) : ClientConnection :=
  { c with pending := c.pending ++ statements }

/-- `ensureClientEntity`. Without an identity the insert is rejected before it is sent. A rejected
`creatingEntity` stays. -/
def ensureClientEntity (c : ClientConnection) : ClientConnection :=
  if c.clientEntity.isSome then c
  else if c.creatingEntity then c
  else
    let c := { c with creatingEntity := true }
    match c.clientAuthorization with
    | none => c
    | some identity => c.send [.insertClient identity.address identity.workerName]

/-- `virtualWorkerKey`. -/
def virtualWorkerKey (address worker : String) : String := address ++ "\u0000" ++ worker

/-- The row of a promise, if its insert went through. -/
def insertedRow (c : ClientConnection) (promise : ℕ) : Option ℕ :=
  match c.inserts[promise]? with
  | some (.inserted id) => some id
  | _ => none

/-- `ensurePayoutPresence`, for an SV1 connection that has an identity and a payout address. -/
def ensurePayoutPresence (c : ClientConnection) : ClientConnection :=
  match c.version, c.clientAuthorization, c.currentPayoutAddress with
  | .v1, some authorization, some address =>
    let worker := c.currentPayoutWorker.getD authorization.workerName
    if address = authorization.address ∧ worker = authorization.workerName then c
    else
      let key := virtualWorkerKey address worker
      match c.virtualWorkerEntities.get? key with
      | none =>
        let promise := c.inserts.length
        let c := c.send [.insertVirtual promise key address worker]
        { c with
          inserts := c.inserts ++ [.inserting]
          virtualWorkerEntities := c.virtualWorkerEntities.set key promise }
      | some promise =>
        match c.inserts[promise]? with
        | some .inserting => { c with heartbeatsAfter := c.heartbeatsAfter ++ [promise] }
        | some (.inserted id) => c.send [.heartbeat id]
        | _ => c
  | _, _, _ => c

/-- `persistClientHashRate`, with `none` for a hash rate that is not finite. -/
def persistClientHashRate (c : ClientConnection) (hashRate : Option ℚ) (now : ℕ) :
    ClientConnection :=
  match c.clientEntity, hashRate with
  | some id, some hashRate =>
    if hashRate ≤ 0 then c
    else if 0 < c.lastHashRatePersistedAt ∧
        (now : ℤ) - c.lastHashRatePersistedAt < c.hashRatePersistIntervalMs then c
    else { c with lastHashRatePersistedAt := now }.send [.updateHashRate id hashRate]
  | _, _ => c

/-- `destroyInternal` of `StratumV1Client`, up to the wait for the inserts in the map. -/
def destroyInternal (c : ClientConnection) : ClientConnection :=
  { c with destroyPhase := .awaiting c.virtualWorkerEntities.values }

/-- The rest of `destroyInternal`, once all inserts that it waits for are settled. -/
def deleteRows (c : ClientConnection) : ClientConnection :=
  match c.destroyPhase with
  | .awaiting snapshot =>
    if snapshot.all fun promise => (c.inserts[promise]?).any InsertPromise.settled then
      let rowIds := c.clientEntity.toList ++ snapshot.filterMap c.insertedRow
      { c with
        virtualWorkerEntities := OrdMap.empty
        destroyPhase := .deleting }.send (rowIds.map .delete)
    else c
  | _ => c

/-- `destroy` of `StratumV2Client`. -/
def destroyV2 (c : ClientConnection) : ClientConnection :=
  { c with destroyPhase := .deleting }.send (c.clientEntity.toList.map .delete)

/-- `destroy`, which does its work once. -/
def destroy (c : ClientConnection) : ClientConnection :=
  match c.destroyPhase with
  | .alive =>
    match c.version with
    | .v1 => c.destroyInternal
    | .v2 => c.destroyV2
  | _ => c

/-- A statement takes effect, or fails. -/
def settle (c : ClientConnection) : ClientStatement → Bool → ClientConnection
  | .insertClient address clientName, true =>
    { c with
      rows := ClientService.insert c.rows address clientName
      clientEntity := some c.rows.length }
  | .insertVirtual promise _ address clientName, true =>
    let id := c.rows.length
    let waiting := c.heartbeatsAfter.filter fun p => p = promise
    { c with
      rows := ClientService.insert c.rows address clientName
      inserts := c.inserts.set promise (.inserted id)
      heartbeatsAfter := c.heartbeatsAfter.filter fun p => p ≠ promise }.send
      (waiting.map fun _ => .heartbeat id)
  | .insertVirtual promise key _ _, false =>
    { c with
      inserts := c.inserts.set promise .failed
      heartbeatsAfter := c.heartbeatsAfter.filter fun p => p ≠ promise
      virtualWorkerEntities := c.virtualWorkerEntities.erase key }
  | .delete id, true => { c with rows := ClientService.delete c.rows id }
  | .updateHashRate id hashRate, true =>
    { c with rows := ClientService.updateHashRate c.rows id hashRate }
  | .heartbeat id, true => { c with rows := ClientService.heartbeat c.rows id }
  | _, false => c

end ClientConnection

/-! ### Runs of a connection -/

/-- A turn of a connection. -/
inductive ClientRowsInput
  | authorize (identity : UserIdentity)
  | setPayout (address : String) (worker : Option String)
  | ensureClientEntity
  | ensurePayoutPresence
  | persistClientHashRate (hashRate : Option ℚ) (now : ℕ)
  | destroy
  | deleteRows
  /-- A pending statement takes effect, or fails. -/
  | settle (k : ℕ) (ok : Bool)

/-- A turn. -/
def ClientConnection.step (c : ClientConnection) : ClientRowsInput → ClientConnection
  | .authorize identity =>
    { c with
      clientAuthorization := some identity
      currentPayoutAddress := some identity.address
      currentPayoutWorker := some identity.workerName }
  | .setPayout address worker =>
    { c with
      currentPayoutAddress := some address
      currentPayoutWorker := worker.or (c.clientAuthorization.map UserIdentity.workerName) }
  | .ensureClientEntity => c.ensureClientEntity
  | .ensurePayoutPresence => c.ensurePayoutPresence
  | .persistClientHashRate hashRate now => c.persistClientHashRate hashRate now
  | .destroy => c.destroy
  | .deleteRows => c.deleteRows
  | .settle k ok =>
    match c.pending[k]? with
    | none => c
    | some statement => { c with pending := c.pending.eraseIdx k }.settle statement ok

/-- A connection and its rows. -/
def clientRowsMachine : Machine ClientConnection ClientRowsInput Empty where
  step c input := (c.step input, [])

end PublicPool
