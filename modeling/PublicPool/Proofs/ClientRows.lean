import PublicPool.ClientRows
import PublicPool.Lib.Ledger

/-!
# `PublicPool.Proofs.ClientRows`: the rows of a closed connection

A row is soft-deleted in the end when somebody owes its delete: the delete is sent, or `destroy`
will find the row (`knownRows`). The ledger of a connection has the rows that are not deleted and
these owed deletes, and every turn that is not `InTime` loses a row from it: an insert that comes
back when nobody looks any more, a refresh of a row that is already deleted, a delete that fails.
`rows_deleted_iff` is the exact account.

`Linked` is what holds of the promises of a connection at any time: the row of an insert that is
under way is known by nobody yet, and while the connection is alive the map has the promise.
-/

set_option autoImplicit false

namespace PublicPool.Proofs

open Lib (OrdMap Machine)

/-! ### What is owed -/

/-- The row that a statement deletes. -/
def deletedRow : ClientStatement → Option ℕ
  | .delete id => some id
  | _ => none

/-- The promise of an insert of a payout identity's row. -/
def insertPromise : ClientStatement → Option ℕ
  | .insertVirtual promise .. => some promise
  | _ => none

/-- The row of a settled insert. -/
def insertedRowOf : InsertPromise → Option ℕ
  | .inserted id => some id
  | _ => none

def isInsertClient : ClientStatement → Bool
  | .insertClient .. => true
  | _ => false

/-- The inserts whose rows `destroy` deletes. -/
def awaited (c : ClientConnection) : List ℕ :=
  match c.destroyPhase with
  | .alive => c.virtualWorkerEntities.values
  | .awaiting snapshot => snapshot
  | .deleting => []

/-- The rows that `destroy` is going to delete, as far as they are there. -/
def knownRows (c : ClientConnection) : List ℕ :=
  match c.destroyPhase with
  | .deleting => []
  | _ => c.clientEntity.toList ++ (awaited c).filterMap c.insertedRow

/-- The rows that are not deleted, and the deletes that are still to come. -/
def rowLedger (c : ClientConnection) : Lib.Ledger where
  live := c.rows.map fun row => !row.deleted
  owed := c.pending.filterMap deletedRow ++ knownRows c

/-- A turn settles no statement too late. -/
def InTime (c : ClientConnection) : ClientRowsInput → Prop
  | .settle k ok =>
    match c.pending[k]? with
    | some (.insertClient ..) => ok = true → c.destroyPhase ≠ .deleting
    | some (.insertVirtual promise ..) => ok = true →
      match c.destroyPhase with
      | .alive => True
      | .awaiting snapshot => promise ∈ snapshot
      | .deleting => False
    | some (.heartbeat id) | some (.updateHashRate id _) =>
      ok = true → ∀ row ∈ c.rows[id]?, row.deleted = false
    | some (.delete _) => ok = true
    | none => True
  | _ => True

/-- `destroy` has been called, and all is settled. -/
def AllSettled (c : ClientConnection) : Prop := c.destroyPhase = .deleting ∧ c.pending = []

/-- How the rows, the promises and the statements of a connection hang together. -/
structure Linked (c : ClientConnection) : Prop where
  oneInsert : c.pending.countP isInsertClient + c.clientEntity.toList.length
    ≤ c.creatingEntity.toNat
  promises : ∀ promise ∈ c.pending.filterMap insertPromise,
    c.inserts[promise]? = some .inserting
  distinct : (c.pending.filterMap insertPromise).Nodup
  mapped : c.destroyPhase = .alive → ∀ promise key address worker,
    .insertVirtual promise key address worker ∈ c.pending →
      (key, promise) ∈ c.virtualWorkerEntities.entries
  awaited_nodup : (awaited c).Nodup
  awaited_lt : ∀ promise ∈ awaited c, promise < c.inserts.length
  noVirtual : c.version = .v2 → c.virtualWorkerEntities.entries = []

theorem linked_opened (version : StratumVersion) (intervalMs : ℕ) :
    Linked (ClientConnection.opened version intervalMs) where
  oneInsert := Nat.le_refl 0
  promises := by simp [ClientConnection.opened]
  distinct := List.nodup_nil
  mapped := by simp [ClientConnection.opened]
  awaited_nodup := List.nodup_nil
  awaited_lt := by simp [ClientConnection.opened, awaited, OrdMap.values]
  noVirtual _ := rfl

/-! ### A statement settles -/

section Settles

variable {c : ClientConnection} {statement : ClientStatement} {rest : List ClientStatement}

/-- A statement that is gone leaves the others as they were. -/
theorem Linked.without (h : Linked c) (hperm : c.pending.Perm (statement :: rest)) :
    Linked { c with pending := rest } := by
  have hsub : ∀ other ∈ rest, other ∈ c.pending := fun other hother =>
    hperm.mem_iff.mpr (List.mem_cons_of_mem _ hother)
  have hdistinct : ((statement :: rest).filterMap insertPromise).Nodup :=
    (hperm.filterMap insertPromise).nodup_iff.mp h.distinct
  refine { h with oneInsert := ?_, promises := ?_, distinct := ?_, mapped := ?_ }
  · have hcount := hperm.countP_eq isInsertClient
    have hone := h.oneInsert
    rw [hcount, List.countP_cons] at hone
    show rest.countP isInsertClient + c.clientEntity.toList.length ≤ c.creatingEntity.toNat
    omega
  · intro promise hpromise
    obtain ⟨other, hother, heq⟩ := List.mem_filterMap.mp hpromise
    exact h.promises promise (List.mem_filterMap.mpr ⟨other, hsub other hother, heq⟩)
  · exact hdistinct.sublist ((List.sublist_cons_self _ _).filterMap insertPromise)
  · intro halive promise key address worker hmem
    exact h.mapped halive promise key address worker (hsub _ hmem)

variable {address worker key : String} {promise id : ℕ} {c' : ClientConnection}

/-- While the connection's own row is being inserted, there is no other insert of it. -/
theorem Linked.insertClient (h : Linked c)
    (hperm : c.pending.Perm (.insertClient address worker :: rest)) :
    c.clientEntity = none ∧ rest.countP isInsertClient = 0 ∧ c.creatingEntity = true := by
  have hone := h.oneInsert
  rw [hperm.countP_eq isInsertClient, List.countP_cons] at hone
  have hbound : c.creatingEntity.toNat ≤ 1 := Bool.toNat_le _
  simp only [isInsertClient, if_true] at hone
  refine ⟨?_, by omega, ?_⟩
  · cases hentity : c.clientEntity with
    | none => rfl
    | some id =>
      simp only [hentity, Option.toList_some, List.length_singleton] at hone
      omega
  · cases hcreating : c.creatingEntity with
    | true => rfl
    | false =>
      simp only [hcreating, Bool.toNat_false] at hone
      omega

/-- The promise of an insert that is under way. -/
theorem Linked.insertVirtual (h : Linked c)
    (hperm : c.pending.Perm (.insertVirtual promise key address worker :: rest)) :
    c.inserts[promise]? = some .inserting ∧ promise ∉ rest.filterMap insertPromise ∧
      (c.destroyPhase = .alive → (key, promise) ∈ c.virtualWorkerEntities.entries) := by
  have hmem : ClientStatement.insertVirtual promise key address worker ∈ c.pending :=
    hperm.mem_iff.mpr List.mem_cons_self
  have hdistinct := (hperm.filterMap insertPromise).nodup_iff.mp h.distinct
  refine ⟨h.promises promise (List.mem_filterMap.mpr ⟨_, hmem, rfl⟩), ?_,
    fun halive => h.mapped halive promise key address worker hmem⟩
  exact (List.nodup_cons.mp hdistinct).1

/-- What is owed without a statement, and by the statement itself. -/
theorem owed_perm (hperm : c.pending.Perm (statement :: rest)) :
    (rowLedger c).owed.Perm
      ((deletedRow statement).toList ++ (rowLedger { c with pending := rest }).owed) := by
  have hdeletes : (c.pending.filterMap deletedRow).Perm
      ((deletedRow statement).toList ++ rest.filterMap deletedRow) := by
    refine (hperm.filterMap deletedRow).trans ?_
    rw [List.filterMap_cons]
    cases deletedRow statement with
    | none => exact List.Perm.refl _
    | some id => exact List.Perm.refl _
  have hboth := hdeletes.append_right (knownRows c)
  rwa [List.append_assoc] at hboth

/-! ### The promises -/

/-- One more of the values of a function is known. -/
theorem filterMap_perm_cons {α β : Type*} [DecidableEq α] {f f' : α → Option β} {l : List α}
    {a : α} {b : β} (hnodup : l.Nodup) (hmem : a ∈ l) (hbefore : f a = none)
    (hafter : f' a = some b) (hother : ∀ x, x ≠ a → f' x = f x) :
    (l.filterMap f').Perm (b :: l.filterMap f) := by
  have hsplit : l.Perm (a :: l.erase a) := List.perm_cons_erase hmem
  have hrest : (l.erase a).filterMap f' = (l.erase a).filterMap f := by
    refine List.filterMap_congr fun x hx => hother x ?_
    rintro rfl
    exact hnodup.not_mem_erase hx
  have hf' := hsplit.filterMap f'
  have hf := hsplit.filterMap f
  rw [List.filterMap_cons, hafter] at hf'
  rw [List.filterMap_cons, hbefore] at hf
  rw [hrest] at hf'
  exact hf'.trans (hf.symm.cons b)

theorem insertedRow_of_set {c : ClientConnection} {value : InsertPromise}
    (h : c'.inserts = c.inserts.set promise value) {other : ℕ} (hne : other ≠ promise) :
    c'.insertedRow other = c.insertedRow other := by
  rw [ClientConnection.insertedRow, h, List.getElem?_set_ne (Ne.symm hne)]
  rfl

theorem insertedRow_eq {value : InsertPromise} (h : c.inserts[promise]? = some value) :
    c.insertedRow promise = insertedRowOf value := by
  rw [ClientConnection.insertedRow, h]
  cases value <;> rfl

/-! ### What a settled statement does to the ledger -/

theorem live_modify (rows : List ClientEntity) (id : ℕ) (f : ClientEntity → ClientEntity)
    (deleted : Bool) (hf : ∀ row, (f row).deleted = deleted) :
    (rows.modify id f).map (fun row => !row.deleted)
      = (rows.map fun row => !row.deleted).set id !deleted := by
  refine List.ext_getElem? fun n => ?_
  rw [List.getElem?_map, List.getElem?_modify, List.getElem?_set, List.length_map,
    List.getElem?_map]
  by_cases hid : id = n
  · subst hid
    by_cases hlt : id < rows.length
    · simp [hlt, hf]
    · simp [hlt]
  · simp [hid]

theorem knownRows_deleting (h : c.destroyPhase = .deleting) : knownRows c = [] := by
  rw [knownRows, h]

theorem knownRows_of_ne (h : c.destroyPhase ≠ .deleting) :
    knownRows c = c.clientEntity.toList ++ (awaited c).filterMap c.insertedRow := by
  unfold knownRows
  split
  · exact absurd ‹_› h
  · rfl

/-- The ledger after a statement that is no delete has left the pending ones. -/
theorem owed_perm_without (hperm : c.pending.Perm (statement :: rest))
    (hnone : deletedRow statement = none) :
    (rowLedger c).owed.Perm (rowLedger { c with pending := rest }).owed := by
  have howed := owed_perm hperm
  rwa [hnone] at howed

/-- The connection's own row comes into the table while `destroy` has not looked for it. -/
theorem keeps_insertClient (hnone : c.clientEntity = none) (hphase : c.destroyPhase ≠ .deleting) :
    Lib.Ledger.Keeps (rowLedger c) (rowLedger (c.settle (.insertClient address worker) true)) := by
  have hbefore : knownRows c = (awaited c).filterMap c.insertedRow := by
    rw [knownRows_of_ne hphase, hnone]
    rfl
  have hafter : knownRows (c.settle (.insertClient address worker) true)
      = c.rows.length :: (awaited c).filterMap c.insertedRow :=
    knownRows_of_ne (c := c.settle (.insertClient address worker) true) hphase
  refine .opened (by simp [rowLedger, ClientConnection.settle, ClientService.insert]) ?_
  show (c.pending.filterMap deletedRow ++ knownRows (c.settle _ true)).Perm
    (_ :: (c.pending.filterMap deletedRow ++ knownRows c))
  rw [hafter, hbefore, show (rowLedger c).live.length = c.rows.length from List.length_map ..]
  exact List.perm_middle

/-- It comes into the table when `destroy` has sent its deletes. -/
theorem loses_insertClient (hphase : c.destroyPhase = .deleting) :
    Lib.Ledger.Loses (rowLedger c) (rowLedger (c.settle (.insertClient address worker) true)) := by
  refine .opened (by simp [rowLedger, ClientConnection.settle, ClientService.insert]) ?_
  show (c.pending.filterMap deletedRow ++ knownRows (c.settle _ true)).Perm
    (c.pending.filterMap deletedRow ++ knownRows c)
  rw [knownRows_deleting hphase,
    knownRows_deleting (c := c.settle (.insertClient address worker) true) hphase]

/-- A heartbeat is no delete. -/
theorem filterMap_deletedRow_heartbeats (promises : List ℕ) (id : ℕ) :
    (promises.map fun _ => ClientStatement.heartbeat id).filterMap deletedRow = [] := by
  induction promises with
  | nil => rfl
  | cons promise promises ih => exact ih

/-- The row of a payout identity comes into the table, and `destroy` is going to find it by its
promise. -/
theorem keeps_insertVirtual (hinserting : c.inserts[promise]? = some .inserting)
    (hnodup : (awaited c).Nodup) (hphase : c.destroyPhase ≠ .deleting) (hmem : promise ∈ awaited c)
    :
    Lib.Ledger.Keeps (rowLedger c)
      (rowLedger (c.settle (.insertVirtual promise key address worker) true)) := by
  set c' := c.settle (.insertVirtual promise key address worker) true with hc'
  have hlt : promise < c.inserts.length := (List.getElem?_eq_some_iff.mp hinserting).1
  have hinserts : c'.inserts = c.inserts.set promise (.inserted c.rows.length) := rfl
  have hfound : ((awaited c).filterMap c'.insertedRow).Perm
      (c.rows.length :: (awaited c).filterMap c.insertedRow) := by
    refine filterMap_perm_cons hnodup hmem (insertedRow_eq hinserting) ?_
      fun other hne => insertedRow_of_set hinserts hne
    exact insertedRow_eq (by rw [hinserts, List.getElem?_set_self hlt])
  have hafter : knownRows c' = c.clientEntity.toList ++ (awaited c).filterMap c'.insertedRow :=
    knownRows_of_ne (c := c') hphase
  refine .opened (by simp [hc', rowLedger, ClientConnection.settle, ClientConnection.send,
    ClientService.insert]) ?_
  show ((c.pending ++ _).filterMap deletedRow ++ knownRows c').Perm
    (_ :: (c.pending.filterMap deletedRow ++ knownRows c))
  rw [List.filterMap_append, filterMap_deletedRow_heartbeats, List.append_nil, hafter,
    knownRows_of_ne hphase, show (rowLedger c).live.length = c.rows.length from List.length_map ..,
    ← List.append_assoc, ← List.append_assoc]
  exact (hfound.append_left _).trans List.perm_middle

/-- The row of a payout identity comes into the table, and nobody is going to look for it. -/
theorem loses_insertVirtual (hmem : promise ∉ awaited c) :
    Lib.Ledger.Loses (rowLedger c)
      (rowLedger (c.settle (.insertVirtual promise key address worker) true)) := by
  set c' := c.settle (.insertVirtual promise key address worker) true with hc'
  have hinserts : c'.inserts = c.inserts.set promise (.inserted c.rows.length) := rfl
  have hsame : (awaited c).filterMap c'.insertedRow = (awaited c).filterMap c.insertedRow := by
    refine List.filterMap_congr fun other hother => insertedRow_of_set hinserts ?_
    rintro rfl
    exact hmem hother
  have hknown : knownRows c' = knownRows c := by
    by_cases hphase : c.destroyPhase = .deleting
    · rw [knownRows_deleting hphase, knownRows_deleting (c := c') hphase]
    · rw [knownRows_of_ne hphase, ← hsame]
      exact knownRows_of_ne (c := c') hphase
  refine .opened (by simp [hc', rowLedger, ClientConnection.settle, ClientConnection.send,
    ClientService.insert]) ?_
  show ((c.pending ++ _).filterMap deletedRow ++ knownRows c').Perm
    (c.pending.filterMap deletedRow ++ knownRows c)
  rw [List.filterMap_append, filterMap_deletedRow_heartbeats, List.append_nil, hknown]

/-- An insert of a payout identity's row fails: there was no row to find by its promise. -/
theorem keeps_insertVirtual_failed (hinserting : c.inserts[promise]? = some .inserting)
    (hentry : c.destroyPhase = .alive → (key, promise) ∈ c.virtualWorkerEntities.entries) :
    Lib.Ledger.Keeps (rowLedger c)
      (rowLedger (c.settle (.insertVirtual promise key address worker) false)) := by
  set c' := c.settle (.insertVirtual promise key address worker) false with hc'
  have hinserts : c'.inserts = c.inserts.set promise .failed := rfl
  have hrow : c.insertedRow promise = none := insertedRow_eq hinserting
  have hrows : c'.insertedRow = c.insertedRow := by
    funext other
    by_cases hother : other = promise
    · subst hother
      have hlt : other < c.inserts.length := (List.getElem?_eq_some_iff.mp hinserting).1
      rw [hrow]
      exact insertedRow_eq (by rw [hinserts, List.getElem?_set_self hlt])
    · exact insertedRow_of_set hinserts hother
  have hknown : knownRows c' = knownRows c := by
    cases hphase : c.destroyPhase with
    | alive =>
      have hne : c.destroyPhase ≠ .deleting := by rw [hphase]; simp
      have hvalues : (c.virtualWorkerEntities.erase key).values.filterMap c.insertedRow
          = c.virtualWorkerEntities.values.filterMap c.insertedRow := by
        simp only [OrdMap.values, OrdMap.erase, List.filterMap_map, List.filterMap_filter]
        refine List.filterMap_congr fun entry hmem => ?_
        by_cases hkey : entry.1 = key
        · have hpromise : entry.2 = promise :=
            OrdMap.entries_unique (hkey ▸ hmem : (key, entry.2) ∈ _) (hentry hphase)
          simp [hkey, hpromise, hrow]
        · simp [hkey]
      rw [knownRows_of_ne hne, knownRows_of_ne (c := c') hne, hrows,
        show awaited c = c.virtualWorkerEntities.values by rw [awaited, hphase],
        show awaited c' = (c.virtualWorkerEntities.erase key).values by
          rw [awaited, show c'.destroyPhase = .alive from hphase]; rfl, hvalues]
      rfl
    | awaiting snapshot =>
      have hne : c.destroyPhase ≠ .deleting := by rw [hphase]; simp
      rw [knownRows_of_ne hne, knownRows_of_ne (c := c') hne, hrows,
        show awaited c = snapshot by rw [awaited, hphase],
        show awaited c' = snapshot by rw [awaited, show c'.destroyPhase = _ from hphase]]
      rfl
    | deleting => rw [knownRows_deleting hphase, knownRows_deleting (c := c') hphase]
  refine .same rfl ?_
  show (c.pending.filterMap deletedRow ++ knownRows c').Perm _
  rw [hknown]
  exact List.Perm.refl _

/-- A refresh of a row that is not deleted changes nothing of the ledger. -/
theorem keeps_refresh {f : ClientEntity → ClientEntity} (hf : ∀ row, (f row).deleted = false)
    (hrows : c'.rows = c.rows.modify id f) (howed : (rowLedger c').owed = (rowLedger c).owed)
    (hlive : ∀ row ∈ c.rows[id]?, row.deleted = false) :
    Lib.Ledger.Keeps (rowLedger c) (rowLedger c') := by
  refine .same ?_ (List.Perm.of_eq howed)
  show c'.rows.map (fun row => !row.deleted) = c.rows.map fun row => !row.deleted
  rw [hrows, live_modify _ _ _ _ hf]
  refine List.ext_getElem? fun n => ?_
  rw [List.getElem?_set, List.length_map, List.getElem?_map]
  by_cases hid : id = n
  · subst hid
    cases hget : c.rows[id]? with
    | none => simp [List.getElem?_eq_none_iff.mp hget]
    | some row =>
      have hlt : id < c.rows.length := (List.getElem?_eq_some_iff.mp hget).1
      have hrow : row.deleted = false := hlive row hget
      simp [hlt, hrow]
  · simp [hid]

/-- A refresh of a deleted row takes the delete back, and there is no other to come. -/
theorem loses_refresh {f : ClientEntity → ClientEntity} (hf : ∀ row, (f row).deleted = false)
    (hrows : c'.rows = c.rows.modify id f) (howed : (rowLedger c').owed = (rowLedger c).owed)
    (hdead : ¬ ∀ row ∈ c.rows[id]?, row.deleted = false) :
    Lib.Ledger.Loses (rowLedger c) (rowLedger c') := by
  simp only [not_forall] at hdead
  obtain ⟨row, hrow, hdeleted⟩ := hdead
  refine .revived id ?_ ?_ (List.Perm.of_eq howed)
  · show (c.rows.map fun row => !row.deleted)[id]? = some false
    rw [List.getElem?_map, Option.mem_def.mp hrow]
    simpa using hdeleted
  · show c'.rows.map (fun row => !row.deleted) = (c.rows.map fun row => !row.deleted).set id true
    rw [hrows, live_modify _ _ _ _ hf]
    rfl

/-- A delete takes effect. -/
theorem keeps_delete (hperm : c.pending.Perm (.delete id :: rest)) :
    Lib.Ledger.Keeps (rowLedger c)
      (rowLedger (({ c with pending := rest }).settle (.delete id) true)) := by
  refine .closed id ?_ (owed_perm hperm)
  exact live_modify _ _ _ true fun _ => rfl

/-- A delete fails, and is not tried again. -/
theorem loses_delete (hperm : c.pending.Perm (.delete id :: rest)) :
    Lib.Ledger.Loses (rowLedger c)
      (rowLedger (({ c with pending := rest }).settle (.delete id) false)) :=
  .dropped id rfl (owed_perm hperm)

/-- The promises that `destroy` looks at. While it is not called, these are all in the map. -/
theorem mem_awaited_iff
    (hentry : c.destroyPhase = .alive → (key, promise) ∈ c.virtualWorkerEntities.entries) :
    (match c.destroyPhase with
      | .alive => True
      | .awaiting snapshot => promise ∈ snapshot
      | .deleting => False) ↔ promise ∈ awaited c := by
  unfold awaited
  cases hphase : c.destroyPhase with
  | alive => exact iff_of_true trivial (OrdMap.mem_values.mpr ⟨key, hentry hphase⟩)
  | awaiting snapshot => exact Iff.rfl
  | deleting => exact iff_of_false id List.not_mem_nil

/-- A pending statement settles: the ledger loses a row exactly when that is too late. -/
theorem settle_ledger (h : Linked c) (hperm : c.pending.Perm (statement :: rest)) {k : ℕ}
    (hk : c.pending[k]? = some statement) (ok : Bool) :
    (InTime c (.settle k ok) → Lib.Ledger.Keeps (rowLedger c)
      (rowLedger (({ c with pending := rest }).settle statement ok))) ∧
    (¬ InTime c (.settle k ok) → Lib.Ledger.Loses (rowLedger c)
      (rowLedger (({ c with pending := rest }).settle statement ok))) := by
  have hrest : Linked { c with pending := rest } := h.without hperm
  -- A statement that is no delete changes what the ledger without it has.
  have hkeeps : deletedRow statement = none → ∀ {after : Lib.Ledger},
      Lib.Ledger.Keeps (rowLedger { c with pending := rest }) after →
      Lib.Ledger.Keeps (rowLedger c) after :=
    fun hnone _ => Lib.Ledger.Keeps.of_perm rfl (owed_perm_without hperm hnone)
  have hloses : deletedRow statement = none → ∀ {after : Lib.Ledger},
      Lib.Ledger.Loses (rowLedger { c with pending := rest }) after →
      Lib.Ledger.Loses (rowLedger c) after :=
    fun hnone _ => Lib.Ledger.Loses.of_perm rfl (owed_perm_without hperm hnone)
  cases statement with
  | insertClient address worker =>
    simp only [InTime, hk]
    cases ok with
    | false => exact ⟨fun _ => hkeeps rfl (.same rfl (List.Perm.refl _)), by simp⟩
    | true =>
      simp only [true_imp_iff, not_not]
      exact ⟨fun hphase => hkeeps rfl (keeps_insertClient (h.insertClient hperm).1 hphase),
        fun hphase => hloses rfl (loses_insertClient hphase)⟩
  | insertVirtual promise key address worker =>
    obtain ⟨hinserting, -, hentry⟩ := h.insertVirtual hperm
    simp only [InTime, hk]
    cases ok with
    | false => exact ⟨fun _ => hkeeps rfl (keeps_insertVirtual_failed hinserting hentry), by simp⟩
    | true =>
      simp only [true_imp_iff]
      rw [mem_awaited_iff hentry]
      constructor
      · intro hmem
        refine hkeeps rfl (keeps_insertVirtual (c := { c with pending := rest }) hinserting
          hrest.awaited_nodup ?_ hmem)
        intro hphase
        rw [awaited, show c.destroyPhase = .deleting from hphase] at hmem
        exact List.not_mem_nil hmem
      · intro hmem
        exact hloses rfl (loses_insertVirtual (c := { c with pending := rest }) hmem)
  | delete id =>
    simp only [InTime, hk]
    cases ok with
    | false => exact ⟨by simp, fun _ => loses_delete hperm⟩
    | true => exact ⟨fun _ => keeps_delete hperm, by simp⟩
  | updateHashRate id hashRate =>
    simp only [InTime, hk]
    cases ok with
    | false => exact ⟨fun _ => hkeeps rfl (.same rfl (List.Perm.refl _)), by simp⟩
    | true =>
      simp only [true_imp_iff]
      exact ⟨fun hlive => hkeeps rfl (keeps_refresh (fun _ => rfl) rfl rfl hlive),
        fun hdead => hloses rfl (loses_refresh (fun _ => rfl) rfl rfl hdead)⟩
  | heartbeat id =>
    simp only [InTime, hk]
    cases ok with
    | false => exact ⟨fun _ => hkeeps rfl (.same rfl (List.Perm.refl _)), by simp⟩
    | true =>
      simp only [true_imp_iff]
      exact ⟨fun hlive => hkeeps rfl (keeps_refresh (fun _ => rfl) rfl rfl hlive),
        fun hdead => hloses rfl (loses_refresh (fun _ => rfl) rfl rfl hdead)⟩

/-- A settled statement leaves the rest linked. -/
theorem Linked.settle (h : Linked c) (hperm : c.pending.Perm (statement :: rest)) (ok : Bool) :
    Linked (({ c with pending := rest }).settle statement ok) := by
  have hrest : Linked { c with pending := rest } := h.without hperm
  cases statement with
  | insertClient address worker =>
    cases ok with
    | false => exact hrest
    | true =>
      obtain ⟨-, hcount, hcreating⟩ := h.insertClient hperm
      refine { hrest with oneInsert := ?_ }
      show rest.countP isInsertClient + 1 ≤ c.creatingEntity.toNat
      rw [hcount, hcreating]
      exact Nat.le_refl 1
  | insertVirtual promise key address worker =>
    obtain ⟨hinserting, hother, hentry⟩ := h.insertVirtual hperm
    have hkept : ∀ value : InsertPromise, ∀ other ∈ rest.filterMap insertPromise,
        (c.inserts.set promise value)[other]? = some .inserting := by
      intro value other hmem
      have hne : promise ≠ other := by
        rintro rfl
        exact hother hmem
      rw [List.getElem?_set_ne hne]
      exact hrest.promises other hmem
    cases ok with
    | true =>
      have hnone : ∀ (waiting : List ℕ) (id : ℕ),
          (waiting.map fun _ => ClientStatement.heartbeat id).filterMap insertPromise = [] := by
        intro waiting id
        induction waiting with
        | nil => rfl
        | cons _ waiting ih => exact ih
      refine { hrest with oneInsert := ?_, promises := ?_, distinct := ?_, mapped := ?_,
                          awaited_lt := ?_ }
      · have hzero : ∀ (waiting : List ℕ) (id : ℕ),
            (waiting.map fun _ => ClientStatement.heartbeat id).countP isInsertClient = 0 := by
          intro waiting id
          induction waiting with
          | nil => rfl
          | cons _ waiting ih => exact ih
        show (rest ++ _).countP isInsertClient + c.clientEntity.toList.length ≤ _
        rw [List.countP_append, hzero]
        exact hrest.oneInsert
      · intro other hmem
        rw [ClientConnection.settle, ClientConnection.send, List.filterMap_append, hnone,
          List.append_nil] at hmem
        exact hkept _ other hmem
      · show ((rest ++ _).filterMap insertPromise).Nodup
        rw [List.filterMap_append, hnone, List.append_nil]
        exact hrest.distinct
      · intro halive other key' address' worker' hmem
        rcases List.mem_append.mp hmem with hmem | hmem
        · exact hrest.mapped halive other key' address' worker' hmem
        · obtain ⟨_, -, heq⟩ := List.mem_map.mp hmem
          cases heq
      · intro other hmem
        show other < (c.inserts.set promise _).length
        rw [List.length_set]
        exact hrest.awaited_lt other hmem
    | false =>
      have hsub : (awaited (({ c with pending := rest }).settle
          (.insertVirtual promise key address worker) false)).Sublist (awaited c) := by
        unfold awaited
        show (match c.destroyPhase with
          | .alive => (c.virtualWorkerEntities.erase key).values
          | .awaiting snapshot => snapshot
          | .deleting => []).Sublist _
        cases c.destroyPhase with
        | alive => exact List.filter_sublist.map Prod.snd
        | awaiting snapshot => exact List.Sublist.refl _
        | deleting => exact List.Sublist.refl _
      refine { hrest with promises := hkept _, mapped := ?_, awaited_nodup := ?_,
                          awaited_lt := ?_, noVirtual := ?_ }
      · intro halive other key' address' worker' hmem
        have hentry' := hrest.mapped halive other key' address' worker' hmem
        refine OrdMap.mem_entries_erase.mpr ⟨hentry', ?_⟩
        rintro rfl
        have hsame : other = promise := OrdMap.entries_unique hentry' (hentry halive)
        exact hother (hsame ▸ List.mem_filterMap.mpr ⟨_, hmem, rfl⟩)
      · exact h.awaited_nodup.sublist hsub
      · intro other hmem
        show other < (c.inserts.set promise _).length
        rw [List.length_set]
        exact h.awaited_lt other (hsub.subset hmem)
      · intro hversion
        have hempty : c.virtualWorkerEntities.entries = [] := h.noVirtual hversion
        show c.virtualWorkerEntities.entries.filter _ = []
        rw [hempty]
        rfl
  | delete id => cases ok <;> exact { hrest with }
  | updateHashRate id hashRate => cases ok <;> exact { hrest with }
  | heartbeat id => cases ok <;> exact { hrest with }

end Settles

/-! ### The calls -/

section Calls

variable {c : ClientConnection}

/-- A statement that is no insert of a row and no delete. -/
def IsRefresh : ClientStatement → Prop
  | .updateHashRate _ _ | .heartbeat _ => True
  | _ => False

theorem Linked.send_refresh (h : Linked c) {statement : ClientStatement}
    (hrefresh : IsRefresh statement) : Linked (c.send [statement]) := by
  cases statement with
  | updateHashRate id hashRate | heartbeat id =>
    refine { h with oneInsert := ?_, promises := ?_, distinct := ?_, mapped := ?_ }
    · show (c.pending ++ [_]).countP isInsertClient + c.clientEntity.toList.length ≤ _
      rw [List.countP_append]
      exact h.oneInsert
    · simpa [ClientConnection.send, insertPromise] using h.promises
    · simpa [ClientConnection.send, insertPromise, List.filterMap_cons] using h.distinct
    · intro halive promise key address worker hmem
      refine h.mapped halive promise key address worker ?_
      simpa [ClientConnection.send] using hmem
  | insertClient address worker => exact hrefresh.elim
  | insertVirtual promise key address worker => exact hrefresh.elim
  | delete id => exact hrefresh.elim

variable {c' : ClientConnection}

/-- A statement that deletes nothing leaves what is owed. -/
theorem keeps_send {statement : ClientStatement} (hpending : c'.pending = c.pending ++ [statement])
    (hnone : deletedRow statement = none) (hknown : knownRows c' = knownRows c)
    (hrows : c'.rows = c.rows) : Lib.Ledger.Keeps (rowLedger c) (rowLedger c') := by
  refine .same (congrArg (List.map fun row : ClientEntity => !row.deleted) hrows)
    (List.Perm.of_eq ?_)
  show c'.pending.filterMap deletedRow ++ knownRows c' = _ ++ _
  rw [hpending, hknown, List.filterMap_append, List.filterMap_cons, hnone, List.filterMap_nil,
    List.append_nil]

theorem linked_ensureClientEntity (h : Linked c) :
    Linked c.ensureClientEntity ∧ Lib.Ledger.Keeps (rowLedger c) (rowLedger c.ensureClientEntity) := by
  unfold ClientConnection.ensureClientEntity
  split
  · exact ⟨h, .same rfl (List.Perm.refl _)⟩
  split
  · exact ⟨h, .same rfl (List.Perm.refl _)⟩
  rename_i hentity hcreating
  have hnone : c.pending.countP isInsertClient + c.clientEntity.toList.length = 0 := by
    have hone := h.oneInsert
    rw [Bool.not_eq_true] at hcreating
    rw [hcreating, Bool.toNat_false] at hone
    omega
  have hcreate : Linked { c with creatingEntity := true } := by
    refine { h with oneInsert := ?_ }
    show _ ≤ 1
    rw [hnone]
    exact Nat.zero_le 1
  dsimp only
  split
  · exact ⟨hcreate, .same rfl (List.Perm.refl _)⟩
  · refine ⟨{ hcreate with oneInsert := ?_, promises := ?_, distinct := ?_, mapped := ?_ },
      keeps_send rfl rfl rfl rfl⟩
    · show (c.pending ++ [_]).countP isInsertClient + c.clientEntity.toList.length ≤ 1
      rw [List.countP_append]
      show c.pending.countP isInsertClient + 1 + _ ≤ 1
      omega
    · simpa [ClientConnection.send, insertPromise] using h.promises
    · simpa [ClientConnection.send, insertPromise, List.filterMap_cons] using h.distinct
    · intro halive promise key address worker hmem
      refine h.mapped halive promise key address worker ?_
      simpa [ClientConnection.send] using hmem

theorem linked_persistClientHashRate (h : Linked c) (hashRate : Option ℚ) (now : ℕ) :
    Linked (c.persistClientHashRate hashRate now) ∧
      Lib.Ledger.Keeps (rowLedger c) (rowLedger (c.persistClientHashRate hashRate now)) := by
  have hsame : Lib.Ledger.Keeps (rowLedger c) (rowLedger c) := .same rfl (List.Perm.refl _)
  unfold ClientConnection.persistClientHashRate
  split
  · split
    · exact ⟨h, hsame⟩
    · split
      · exact ⟨h, hsame⟩
      · have hlast : Linked { c with lastHashRatePersistedAt := now } := { h with }
        exact ⟨hlast.send_refresh trivial, keeps_send rfl rfl rfl rfl⟩
  · exact ⟨h, hsame⟩

/-- What `destroy` will look at, when a payout identity has been added to the map. -/
theorem awaited_of_set {key : String} {promise : ℕ} (hphase : c'.destroyPhase = c.destroyPhase)
    (hmap : c'.virtualWorkerEntities.entries
      = c.virtualWorkerEntities.entries ++ [(key, promise)]) :
    awaited c' = awaited c ∨ awaited c' = awaited c ++ [promise] := by
  unfold awaited
  rw [hphase]
  cases c.destroyPhase with
  | alive =>
    right
    show c'.virtualWorkerEntities.entries.map Prod.snd = _
    rw [hmap, List.map_append]
    rfl
  | awaiting snapshot => exact Or.inl rfl
  | deleting => exact Or.inl rfl

/-- A payout identity that is not in the map: its row is inserted, and the map has the promise. -/
theorem linked_insertPresence (h : Linked c) (hversion : c.version = .v1)
    {key address worker : String} (hpending : c'.pending
      = c.pending ++ [.insertVirtual c.inserts.length key address worker])
    (hinserts : c'.inserts = c.inserts ++ [.inserting]) (hmap : c'.virtualWorkerEntities.entries
      = c.virtualWorkerEntities.entries ++ [(key, c.inserts.length)])
    (hphase : c'.destroyPhase = c.destroyPhase) (hentity : c'.clientEntity = c.clientEntity)
    (hcreating : c'.creatingEntity = c.creatingEntity) (hversion' : c'.version = c.version)
    (hrows : c'.rows = c.rows) : Linked c' ∧ Lib.Ledger.Keeps (rowLedger c) (rowLedger c') := by
  have hold : ∀ promise, promise < c.inserts.length →
      c'.inserts[promise]? = c.inserts[promise]? := by
    intro promise hlt
    rw [hinserts]
    exact List.getElem?_append_left hlt
  have hnew : c'.inserts[c.inserts.length]? = some .inserting := by
    rw [hinserts]
    exact List.getElem?_concat_length
  have hlt : ∀ promise ∈ c.pending.filterMap insertPromise, promise < c.inserts.length :=
    fun promise hmem => (List.getElem?_eq_some_iff.mp (h.promises promise hmem)).1
  have hawaited := awaited_of_set hphase hmap
  have hpromises : c'.pending.filterMap insertPromise
      = c.pending.filterMap insertPromise ++ [c.inserts.length] := by
    rw [hpending, List.filterMap_append]
    rfl
  constructor
  · refine ⟨?_, ?_, ?_, ?_, ?_, ?_, ?_⟩
    · rw [hpending, hentity, hcreating, List.countP_append]
      exact h.oneInsert
    · intro promise hmem
      rw [hpromises] at hmem
      rcases List.mem_append.mp hmem with hmem | hmem
      · rw [hold promise (hlt promise hmem)]
        exact h.promises promise hmem
      · rw [List.mem_singleton.mp hmem]
        exact hnew
    · rw [hpromises]
      refine List.Nodup.append h.distinct (List.nodup_singleton _) ?_
      intro promise hmem hother
      rw [List.mem_singleton.mp hother] at hmem
      exact Nat.lt_irrefl _ (hlt _ hmem)
    · intro halive promise key' address' worker' hmem
      rw [hpending] at hmem
      rw [hmap]
      rcases List.mem_append.mp hmem with hmem | hmem
      · exact List.mem_append_left _ (h.mapped (hphase ▸ halive) promise key' address' worker' hmem)
      · simp only [List.mem_singleton, ClientStatement.insertVirtual.injEq] at hmem
        obtain ⟨rfl, rfl, -, -⟩ := hmem
        exact List.mem_append_right _ List.mem_cons_self
    · rcases hawaited with heq | heq
      · rw [heq]
        exact h.awaited_nodup
      · rw [heq]
        refine List.Nodup.append h.awaited_nodup (List.nodup_singleton _) ?_
        intro promise hmem hother
        rw [List.mem_singleton.mp hother] at hmem
        exact Nat.lt_irrefl _ (h.awaited_lt _ hmem)
    · intro promise hmem
      rw [hinserts, List.length_append, List.length_singleton]
      rcases hawaited with heq | heq
      · rw [heq] at hmem
        exact Nat.lt_succ_of_lt (h.awaited_lt promise hmem)
      · rw [heq] at hmem
        rcases List.mem_append.mp hmem with hmem | hmem
        · exact Nat.lt_succ_of_lt (h.awaited_lt promise hmem)
        · rw [List.mem_singleton.mp hmem]
          exact Nat.lt_succ_self _
    · intro hv2
      rw [hversion', hversion] at hv2
      cases hv2
  · refine keeps_send hpending rfl ?_ hrows
    by_cases hdeleting : c.destroyPhase = .deleting
    · rw [knownRows_deleting hdeleting, knownRows_deleting (hphase.trans hdeleting)]
    · have hrow : (awaited c).filterMap c'.insertedRow = (awaited c).filterMap c.insertedRow := by
        refine List.filterMap_congr fun promise hmem => ?_
        rw [ClientConnection.insertedRow, hold promise (h.awaited_lt promise hmem)]
        rfl
      have hfresh : c'.insertedRow c.inserts.length = none := insertedRow_eq hnew
      rw [knownRows_of_ne hdeleting, knownRows_of_ne (by rw [hphase]; exact hdeleting), hentity]
      rcases hawaited with heq | heq
      · rw [heq, hrow]
      · rw [heq, List.filterMap_append, hrow, List.filterMap_cons, hfresh, List.filterMap_nil,
          List.append_nil]

theorem linked_ensurePayoutPresence (h : Linked c) :
    Linked c.ensurePayoutPresence ∧
      Lib.Ledger.Keeps (rowLedger c) (rowLedger c.ensurePayoutPresence) := by
  have hsame : Lib.Ledger.Keeps (rowLedger c) (rowLedger c) := .same rfl (List.Perm.refl _)
  unfold ClientConnection.ensurePayoutPresence
  split
  · rename_i hversion _ _
    dsimp only
    split
    · exact ⟨h, hsame⟩
    · split
      · rename_i hkey
        exact linked_insertPresence h hversion rfl rfl
          (OrdMap.entries_set_of_notMem (OrdMap.get?_eq_none_iff.mp hkey) _) rfl rfl rfl rfl rfl
      · split
        · exact ⟨{ h with }, .same rfl (List.Perm.refl _)⟩
        · exact ⟨h.send_refresh trivial, keeps_send rfl rfl rfl rfl⟩
        · exact ⟨h, hsame⟩
  · exact ⟨h, hsame⟩

/-- The deletes of the known rows are sent. -/
theorem linked_deletes (h : Linked c) {rowIds : List ℕ}
    (hpending : c'.pending = c.pending ++ rowIds.map .delete) (hphase : c'.destroyPhase = .deleting)
    (hknown : knownRows c = rowIds) (hinserts : c'.inserts = c.inserts)
    (hentity : c'.clientEntity = c.clientEntity) (hcreating : c'.creatingEntity = c.creatingEntity)
    (hmap : c'.version = .v2 → c'.virtualWorkerEntities.entries = []) (hrows : c'.rows = c.rows) :
    Linked c' ∧ Lib.Ledger.Keeps (rowLedger c) (rowLedger c') := by
  have hawaited : awaited c' = [] := by rw [awaited, hphase]
  have hpromises : c'.pending.filterMap insertPromise = c.pending.filterMap insertPromise := by
    have hnone : (rowIds.map ClientStatement.delete).filterMap insertPromise = [] := by
      induction rowIds with
      | nil => rfl
      | cons id rowIds ih => simp [insertPromise]
    rw [hpending, List.filterMap_append, hnone, List.append_nil]
  have hdeletes : (rowIds.map ClientStatement.delete).filterMap deletedRow = rowIds := by
    simp [List.filterMap_map, Function.comp_def, deletedRow]
  have hcount : (rowIds.map ClientStatement.delete).countP isInsertClient = 0 := by
    simp [List.countP_map, Function.comp_def, isInsertClient]
  refine ⟨⟨?_, ?_, ?_, fun halive => ?_, ?_, ?_, hmap⟩, .same ?_ (List.Perm.of_eq ?_)⟩
  · rw [hpending, hentity, hcreating, List.countP_append, hcount]
    exact h.oneInsert
  · rw [hpromises, hinserts]
    exact h.promises
  · rw [hpromises]
    exact h.distinct
  · rw [hphase] at halive
    cases halive
  · rw [hawaited]
    exact List.nodup_nil
  · rw [hawaited]
    exact fun _ hmem => absurd hmem List.not_mem_nil
  · exact congrArg (List.map fun row : ClientEntity => !row.deleted) hrows
  · show c'.pending.filterMap deletedRow ++ knownRows c' = _ ++ knownRows c
    rw [hpending, List.filterMap_append, hdeletes, knownRows_deleting hphase, hknown,
      List.append_nil]

/-- The rest of `destroy` sends the deletes of the rows that were known. -/
theorem linked_deleteRows (h : Linked c) :
    Linked c.deleteRows ∧ Lib.Ledger.Keeps (rowLedger c) (rowLedger c.deleteRows) := by
  have hsame : Lib.Ledger.Keeps (rowLedger c) (rowLedger c) := .same rfl (List.Perm.refl _)
  unfold ClientConnection.deleteRows
  cases hphase : c.destroyPhase with
  | awaiting snapshot =>
    have hknown : knownRows c = c.clientEntity.toList ++ snapshot.filterMap c.insertedRow := by
      rw [knownRows_of_ne (by rw [hphase]; simp), awaited, hphase]
    dsimp only
    split
    · exact linked_deletes h rfl rfl hknown rfl rfl rfl (fun _ => rfl) rfl
    · exact ⟨h, hsame⟩
  | alive => exact ⟨h, hsame⟩
  | deleting => exact ⟨h, hsame⟩

/-- `destroy` of an SV1 connection remembers what it waits for; that of an SV2 connection, which
has no other row than its own, sends the delete. -/
theorem linked_destroy (h : Linked c) :
    Linked c.destroy ∧ Lib.Ledger.Keeps (rowLedger c) (rowLedger c.destroy) := by
  unfold ClientConnection.destroy
  cases hphase : c.destroyPhase with
  | alive =>
    have hawaited : awaited c = c.virtualWorkerEntities.values := by rw [awaited, hphase]
    have hknown : knownRows c = c.clientEntity.toList
        ++ c.virtualWorkerEntities.values.filterMap c.insertedRow := by
      rw [knownRows_of_ne (by rw [hphase]; simp), hawaited]
    cases hversion : c.version with
    | v1 =>
      have hsame : awaited c.destroyInternal = awaited c := hawaited.symm
      refine ⟨{ h with mapped := fun halive => ?_, awaited_nodup := ?_, awaited_lt := ?_ },
        .same rfl (List.Perm.of_eq ?_)⟩
      · cases halive
      · rw [hsame]
        exact h.awaited_nodup
      · rw [hsame]
        exact h.awaited_lt
      · show c.pending.filterMap deletedRow ++ knownRows c.destroyInternal
          = c.pending.filterMap deletedRow ++ knownRows c
        rw [hknown]
        rfl
    | v2 =>
      have hnil : c.virtualWorkerEntities.values = [] := by
        rw [OrdMap.values, h.noVirtual hversion]
        rfl
      rw [hnil, List.filterMap_nil, List.append_nil] at hknown
      exact linked_deletes h rfl rfl hknown rfl rfl rfl (fun _ => h.noVirtual hversion) rfl
  | awaiting snapshot => exact ⟨h, .same rfl (List.Perm.refl _)⟩
  | deleting => exact ⟨h, .same rfl (List.Perm.refl _)⟩

end Calls

/-! ### Runs -/

/-- Every turn keeps the rows, the promises and the statements linked. -/
theorem Linked.step {c : ClientConnection} (h : Linked c) (input : ClientRowsInput) :
    Linked (c.step input) := by
  cases input with
  | authorize identity => exact { h with }
  | setPayout address worker => exact { h with }
  | ensureClientEntity => exact (linked_ensureClientEntity h).1
  | ensurePayoutPresence => exact (linked_ensurePayoutPresence h).1
  | persistClientHashRate hashRate now => exact (linked_persistClientHashRate h hashRate now).1
  | destroy => exact (linked_destroy h).1
  | deleteRows => exact (linked_deleteRows h).1
  | settle k ok =>
    cases hk : c.pending[k]? with
    | none =>
      rw [ClientConnection.step, hk]
      exact h
    | some statement =>
      obtain ⟨hlt, hget⟩ := List.getElem?_eq_some_iff.mp hk
      rw [ClientConnection.step, hk]
      exact h.settle (hget ▸ (List.getElem_cons_eraseIdx_perm hlt).symm) ok

/-- A turn keeps the ledger or loses a row from it, according to whether it is in time. -/
theorem step_ledger {c : ClientConnection} (h : Linked c) (input : ClientRowsInput) :
    (InTime c input → Lib.Ledger.Keeps (rowLedger c) (rowLedger (c.step input))) ∧
      (¬ InTime c input → Lib.Ledger.Loses (rowLedger c) (rowLedger (c.step input))) := by
  have hkeeps : ∀ {after : Lib.Ledger}, InTime c input → Lib.Ledger.Keeps (rowLedger c) after →
      (InTime c input → Lib.Ledger.Keeps (rowLedger c) after) ∧
        (¬ InTime c input → Lib.Ledger.Loses (rowLedger c) after) :=
    fun hin hkeep => ⟨fun _ => hkeep, fun hnot => absurd hin hnot⟩
  cases input with
  | authorize identity => exact hkeeps trivial (.same rfl (List.Perm.refl _))
  | setPayout address worker => exact hkeeps trivial (.same rfl (List.Perm.refl _))
  | ensureClientEntity => exact hkeeps trivial (linked_ensureClientEntity h).2
  | ensurePayoutPresence => exact hkeeps trivial (linked_ensurePayoutPresence h).2
  | persistClientHashRate hashRate now =>
    exact hkeeps trivial (linked_persistClientHashRate h hashRate now).2
  | destroy => exact hkeeps trivial (linked_destroy h).2
  | deleteRows => exact hkeeps trivial (linked_deleteRows h).2
  | settle k ok =>
    cases hk : c.pending[k]? with
    | none =>
      rw [ClientConnection.step, hk]
      exact hkeeps (by simp [InTime, hk]) (.same rfl (List.Perm.refl _))
    | some statement =>
      obtain ⟨hlt, hget⟩ := List.getElem?_eq_some_iff.mp hk
      rw [ClientConnection.step, hk]
      exact settle_ledger h (hget ▸ (List.getElem_cons_eraseIdx_perm hlt).symm) hk ok

/-- Once all is settled after `destroy`, nothing is owed, so the ledger is clean when every row is
deleted. -/
theorem clean_iff_of_settled {c : ClientConnection} (h : AllSettled c) :
    (rowLedger c).Clean ↔ ∀ row ∈ c.rows, row.deleted = true := by
  obtain ⟨hphase, hpending⟩ := h
  have howed : (rowLedger c).owed = [] := by
    show c.pending.filterMap deletedRow ++ knownRows c = []
    rw [hpending, knownRows_deleting hphase]
    rfl
  have hlive : ∀ id : ℕ, (rowLedger c).live[id]? = some true ↔
      ∃ row, c.rows[id]? = some row ∧ row.deleted = false := by
    intro id
    show (c.rows.map fun row => !row.deleted)[id]? = some true ↔ _
    rw [List.getElem?_map, Option.map_eq_some_iff]
    simp
  unfold Lib.Ledger.Clean
  rw [howed]
  constructor
  · intro hclean row hmem
    obtain ⟨id, hid⟩ := List.mem_iff_getElem?.mp hmem
    by_contra hnot
    have hnone := hclean id ((hlive id).mpr ⟨row, hid, by simpa using hnot⟩)
    exact List.not_mem_nil hnone
  · intro hdeleted id hid
    obtain ⟨row, hrow, hnot⟩ := (hlive id).mp hid
    rw [hdeleted row (List.mem_of_getElem? hrow)] at hnot
    cases hnot

/-- **Presence rows and the end of a connection.** Once all is settled after `destroy`, every row
that the connection inserted is deleted exactly when all statements settled in time: no insert
came back when `destroy` did not look for its row any more, no hash rate and no heartbeat was
written to a row that was deleted, and no delete failed. -/
theorem rows_deleted_iff (version : StratumVersion) (intervalMs : ℕ)
    (inputs : List ClientRowsInput)
    (hsettled : AllSettled
      (clientRowsMachine.final (ClientConnection.opened version intervalMs) inputs)) :
    (∀ row ∈ (clientRowsMachine.final (ClientConnection.opened version intervalMs) inputs).rows,
        row.deleted = true) ↔
      clientRowsMachine.Along (fun c _ input => InTime c input)
        (ClientConnection.opened version intervalMs) [] inputs := by
  have hnothing : rowLedger (ClientConnection.opened version intervalMs) = ⟨[], []⟩ := rfl
  rw [← clean_iff_of_settled hsettled]
  refine (Lib.Ledger.along_iff_clean clientRowsMachine rowLedger (fun c input h => h.step input)
    (fun c input h => (step_ledger h input).1) (fun c input h => (step_ledger h input).2)
    (linked_opened version intervalMs) ?_ ?_ inputs).symm
  · rw [hnothing]
    exact ⟨List.nodup_nil, fun _ hmem => absurd hmem List.not_mem_nil⟩
  · rw [hnothing]
    intro n hn
    cases hn

namespace ClosedConnectionSample

def identity : UserIdentity := { address := "A", workerName := "rig" }

/-- A connection shows up, works for `B` as well, persists a hash rate, and is closed after all of
that. -/
def inTurn : List ClientRowsInput :=
  [.authorize identity, .ensureClientEntity, .settle 0 true, .setPayout "B" none,
    .ensurePayoutPresence, .settle 0 true, .persistClientHashRate (some 5) 1000, .settle 0 true,
    .destroy, .deleteRows, .settle 0 true, .settle 0 true]

/-- The connection is closed while its row is being inserted. -/
def insertedLate : List ClientRowsInput :=
  [.authorize identity, .ensureClientEntity, .destroy, .deleteRows, .settle 0 true]

/-- A submission that was under way goes on after the delete, and writes the hash rate. -/
def writtenLate : List ClientRowsInput :=
  [.authorize identity, .ensureClientEntity, .settle 0 true, .destroy, .deleteRows, .settle 0 true,
    .persistClientHashRate (some 5) 1000, .settle 0 true]

/-- The row of the payout identity is refreshed after its delete. -/
def refreshedLate : List ClientRowsInput :=
  [.authorize identity, .ensureClientEntity, .settle 0 true, .setPayout "B" none,
    .ensurePayoutPresence, .settle 0 true, .ensurePayoutPresence, .destroy, .deleteRows,
    .settle 2 true, .settle 1 true, .settle 0 true]

def after (version : StratumVersion) (inputs : List ClientRowsInput) : ClientConnection :=
  clientRowsMachine.final (ClientConnection.opened version 60000) inputs

end ClosedConnectionSample

open ClosedConnectionSample in
/-- A run without anything late. -/
theorem rows_deleted_inTurn :
    (after .v1 inTurn).rows.length = 2 ∧
      clientRowsMachine.Along (fun c _ input => InTime c input)
        (ClientConnection.opened .v1 60000) [] inTurn :=
  ⟨by decide +kernel,
    (rows_deleted_iff .v1 60000 inTurn ⟨by decide +kernel, by decide +kernel⟩).mp
      (by decide +kernel)⟩

/-- All is settled, and a row is still there. -/
def LeavesRow (c : ClientConnection) : Prop :=
  AllSettled c ∧ ∃ row ∈ c.rows, row.deleted = false

open ClosedConnectionSample in
/-- A row that comes in after the deletes were sent stays, on either kind of connection, and a row
that is written or refreshed after its delete is back. -/
theorem not_rows_deleted :
    LeavesRow (after .v1 insertedLate) ∧ LeavesRow (after .v2 insertedLate) ∧
      LeavesRow (after .v1 writtenLate) ∧ LeavesRow (after .v2 writtenLate) ∧
      LeavesRow (after .v1 refreshedLate) := by
  refine ⟨⟨⟨?_, ?_⟩, ?_⟩, ⟨⟨?_, ?_⟩, ?_⟩, ⟨⟨?_, ?_⟩, ?_⟩, ⟨⟨?_, ?_⟩, ?_⟩, ⟨⟨?_, ?_⟩, ?_⟩⟩ <;>
    decide +kernel

end PublicPool.Proofs
