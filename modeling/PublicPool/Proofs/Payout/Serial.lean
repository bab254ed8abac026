import PublicPool.Lib.RowLocks
import PublicPool.Proofs.Payout.Steps

/-!
# `PublicPool.Proofs.Payout.Serial`: a finalization is applied as a whole

The two tables of the ledger are one store of rows (`rowsOf`), and a call of
`finalizeSnapshotForBlock` is a transaction over it (`txnOf`). The unit of a lock is a row, and
`RowLocks.Serial` holds in every run: `SerialInv` says it, with what a call found in the snapshot
tables.

It follows that a commit changes the ledger as `Ledger.apply` does, with the entries of the
snapshot and in one piece (`SerialInv.commit`), whatever the other calls did in between. What a
finalization sees is another matter: its guard and its balances are read before.
-/

set_option autoImplicit false

namespace PublicPool.Proofs

open Lib (OrdMap Machine)
open Lib.RowLocks

/-! ### The ledger as a store of rows -/

/-- The keys of the two tables of the ledger. -/
inductive LedgerKey
  | balance (address : String)
  | payout (blockHeight : ℤ) (address : String)
  deriving DecidableEq

abbrev LedgerRow : LedgerKey → Type
  | .balance _ => BalanceRow
  | .payout .. => HistoryRow

/-- The rows of a ledger. -/
def rowsOf (ledger : Ledger) : Store LedgerRow
  | .balance address => ledger.balances.get? address
  | .payout blockHeight address => ledger.history.get? (blockHeight, address)

theorem rowsOf_overlay (committed written : Ledger) :
    rowsOf (committed.overlay written) = overlay (rowsOf committed) (rowsOf written) := by
  funext key
  cases key with
  | balance address => exact OrdMap.get?_setAll ..
  | payout blockHeight address => exact OrdMap.get?_setAll ..

theorem rowsOf_empty : rowsOf { balances := .empty, history := .empty } = fun _ => none := by
  funext key
  cases key <;> rfl

theorem rowsOf_setBalance (ledger : Ledger) (address : String) (row : BalanceRow) :
    rowsOf { ledger with balances := ledger.balances.set address row }
      = Function.update (rowsOf ledger) (.balance address) (some row) := by
  funext key
  by_cases hkey : key = .balance address
  · subst hkey
    rw [Function.update_self]
    exact (OrdMap.get?_set ..).trans (if_pos rfl)
  · rw [Function.update_of_ne hkey]
    cases key with
    | balance address' =>
      have hne : address' ≠ address := fun heq => hkey (heq ▸ rfl)
      exact (OrdMap.get?_set ..).trans (if_neg hne)
    | payout blockHeight address' => rfl

theorem rowsOf_setPayout (ledger : Ledger) (blockHeight : ℤ) (address : String)
    (row : HistoryRow) :
    rowsOf { ledger with history := ledger.history.set (blockHeight, address) row }
      = Function.update (rowsOf ledger) (.payout blockHeight address) (some row) := by
  funext key
  by_cases hkey : key = .payout blockHeight address
  · subst hkey
    rw [Function.update_self]
    exact (OrdMap.get?_set ..).trans (if_pos rfl)
  · rw [Function.update_of_ne hkey]
    cases key with
    | balance address' => rfl
    | payout blockHeight' address' =>
      have hne : (blockHeight', address') ≠ (blockHeight, address) := by
        intro heq
        cases heq
        exact hkey rfl
      exact (OrdMap.get?_set ..).trans (if_neg hne)

/-- The balance upsert of an entry. -/
def balanceWrite (entry : PayoutDistributionEntry) : Write LedgerRow :=
  .upsert (.balance entry.address) (BalanceRow.upsert entry)

/-- The history insert of an entry. -/
def payoutWrite (blockHeight : ℤ) (payoutSnapshotId : ℕ) (coinbaseValue : ℤ)
    (entry : PayoutDistributionEntry) : Write LedgerRow :=
  .insertIfAbsent (.payout blockHeight entry.address)
    (HistoryRow.ofEntry payoutSnapshotId coinbaseValue entry)

/-- The writes of a finalization for some entries. -/
def writesOf (blockHeight : ℤ) (payoutSnapshotId : ℕ) (coinbaseValue : ℤ)
    (entries : List PayoutDistributionEntry) : List (Write LedgerRow) :=
  entries.flatMap fun entry =>
    [balanceWrite entry, payoutWrite blockHeight payoutSnapshotId coinbaseValue entry]

theorem writesOf_append (blockHeight : ℤ) (payoutSnapshotId : ℕ) (coinbaseValue : ℤ)
    (entries : List PayoutDistributionEntry) (entry : PayoutDistributionEntry) :
    writesOf blockHeight payoutSnapshotId coinbaseValue (entries ++ [entry])
      = writesOf blockHeight payoutSnapshotId coinbaseValue entries ++ [balanceWrite entry] ++
        [payoutWrite blockHeight payoutSnapshotId coinbaseValue entry] := by
  simp [writesOf]

/-- Applying a snapshot to a ledger is running its writes. -/
theorem rowsOf_apply (ledger : Ledger) (blockHeight : ℤ) (payoutSnapshotId : ℕ)
    (coinbaseValue : ℤ) (entries : List PayoutDistributionEntry) :
    rowsOf (ledger.apply blockHeight payoutSnapshotId coinbaseValue entries)
      = runAll (writesOf blockHeight payoutSnapshotId coinbaseValue entries) (rowsOf ledger) := by
  induction entries generalizing ledger with
  | nil => rfl
  | cons entry entries ih =>
    have hupsert : rowsOf (ledger.upsertBalance entry)
        = (balanceWrite entry).run (rowsOf ledger) := rowsOf_setBalance ..
    have hinsert : ∀ ledger : Ledger,
        rowsOf (ledger.insertHistory blockHeight payoutSnapshotId coinbaseValue entry)
          = (payoutWrite blockHeight payoutSnapshotId coinbaseValue entry).run
              (rowsOf ledger) := by
      intro ledger
      unfold Ledger.insertHistory
      by_cases hpresent : (ledger.history.get? (blockHeight, entry.address)).isSome
      · rw [if_pos hpresent]
        exact (if_pos hpresent).symm
      · rw [if_neg hpresent, rowsOf_setPayout]
        exact (if_neg hpresent).symm
    refine (ih _).trans ?_
    rw [hinsert, hupsert]
    rfl

/-! ### The transactions of the calls -/

/-- The snapshot that a call found. -/
def snapshotAt : FinalizeStage → Option SnapshotRow
  | .readSnapshot => none
  | .readHistory snapshot | .readEntries snapshot | .upsertBalance snapshot _ _
  | .insertHistory snapshot _ _ | .commit snapshot => some snapshot

/-- The entries that a call has loaded and is not through with. -/
def pendingAt : FinalizeStage → Option (List PayoutDistributionEntry)
  | .readSnapshot | .readHistory _ | .readEntries _ => none
  | .upsertBalance _ entry pending | .insertHistory _ entry pending => some (entry :: pending)
  | .commit _ => some []

/-- The entries whose balance is written and whose payout is not. -/
def halfApplied : FinalizeStage → List PayoutDistributionEntry
  | .insertHistory _ entry _ => [entry]
  | _ => []

/-- The writes that a call has run. -/
def callWrites (call : FinalizeCall) : List (Write LedgerRow) :=
  writesOf call.input.blockHeight call.payoutSnapshotId
    (((snapshotAt call.stage).map (·.coinbaseValueSats)).getD 0) call.applied ++
    (halfApplied call.stage).map balanceWrite

/-- The transaction of a finalization. -/
def finalizeTxn (call : FinalizeCall) : Txn LedgerRow where
  writes := callWrites call
  rows := rowsOf call.written

/-- The transaction of a call. One that creates a snapshot writes no row of the ledger. -/
def txnOf : PayoutCall → Option (Txn LedgerRow)
  | .create .. => none
  | .finalize call => some (finalizeTxn call)

def txnsOf (world : PayoutWorld) (id : ℕ) : Option (Txn LedgerRow) :=
  (world.calls id).bind txnOf

/-- What a call found in the snapshot tables is there, and what it wrote is for the entries it is
through with. -/
structure CallOk (db : Database) (call : FinalizeCall) : Prop where
  found : ∀ snapshot ∈ snapshotAt call.stage,
    db.snapshots.find? (fun row => row.id = call.payoutSnapshotId) = some snapshot
  idle : pendingAt call.stage = none → call.applied = []
  entries : ∀ pending ∈ pendingAt call.stage,
    call.applied ++ pending = db.entriesOf call.payoutSnapshotId ∧
      db.entriesOf call.payoutSnapshotId ≠ []

/-- The invariant of the finalizations. -/
structure SerialInv (world : PayoutWorld) : Prop where
  create : CreateInv world
  serial : Serial (rowsOf world.db.ledger) (txnsOf world)
  calls : ∀ id call, world.calls id = some (.finalize call) → CallOk world.db call

theorem serialInv_initial : SerialInv .initial where
  create :=
    { bounded := fun _ _ hcall => nomatch hcall
      ids := fun _ hmem => nomatch hmem
      entries := fun _ hmem => nomatch hmem
      pending := fun _ _ _ hcall => nomatch hcall
      fresh := fun _ _ _ hcall => nomatch hcall
      apart := fun _ _ _ _ _ _ _ hcall => nomatch hcall }
  serial :=
    { locks := fun _ _ _ _ _ _ htxn => nomatch htxn
      sees := fun _ _ htxn => nomatch htxn
      found := fun _ _ htxn => nomatch htxn }
  calls _ _ hcall := nomatch hcall

/-- A call that loaded its entries found its snapshot. -/
theorem isSome_snapshotAt {stage : FinalizeStage} (h : (pendingAt stage).isSome) :
    (snapshotAt stage).isSome := by
  cases stage with
  | readSnapshot => cases h
  | readHistory | readEntries | upsertBalance | insertHistory | commit => rfl

/-- What a call found stays there. -/
theorem CallOk.of_extends {db db' : Database} {call : FinalizeCall} (h : CallOk db call)
    (hextends : Extends db db') : CallOk db' call where
  found snapshot hsnapshot := hextends.snapshot _ _ (h.found snapshot hsnapshot)
  idle := h.idle
  entries pending hpending := by
    obtain ⟨snapshot, hsnapshot⟩ := Option.isSome_iff_exists.mp
      (isSome_snapshotAt (Option.isSome_of_mem hpending))
    have hfind := h.found snapshot hsnapshot
    have hid : snapshot.id = call.payoutSnapshotId := by simpa using List.find?_some hfind
    rw [hextends.entries _ ⟨snapshot, List.mem_of_find?_eq_some hfind, hid⟩]
    exact h.entries pending hpending

variable {world : PayoutWorld}

theorem txnsOf_setCall (id : ℕ) (call : Option PayoutCall) :
    txnsOf (world.setCall id call) = Function.update (txnsOf world) id (call.bind txnOf) := by
  funext id'
  by_cases hid : id' = id
  · subst hid
    simp only [txnsOf, PayoutWorld.setCall, Function.update_self]
  · simp only [txnsOf, PayoutWorld.setCall, Function.update_of_ne hid]

section
variable {id : ℕ} {call call' : FinalizeCall} {snapshot : SnapshotRow}

theorem txnsOf_of_call (hcall : world.calls id = some (.finalize call)) :
    txnsOf world id = some (finalizeTxn call) := by
  rw [txnsOf, hcall]
  rfl

/-- A transaction is that of a finalization. -/
theorem exists_call_of_txnsOf {txn : Txn LedgerRow} (h : txnsOf world id = some txn) :
    ∃ call, world.calls id = some (.finalize call) ∧ finalizeTxn call = txn := by
  obtain ⟨call, hcall, htxn⟩ := Option.bind_eq_some_iff.mp h
  cases call with
  | create => cases htxn
  | finalize call => exact ⟨call, hcall, Option.some.inj htxn⟩

/-- Nobody else holds a row that a statement does not wait for. -/
theorem rows_none_of_otherCall (h : CreateInv world) {p : PayoutCall → Bool}
    (hfree : world.otherCall id p = false) {key : LedgerKey}
    (hp : ∀ call, p (.finalize call) = (rowsOf call.written key).isSome) :
    ∀ id' txn, id' ≠ id → txnsOf world id' = some txn → txn.rows key = none := by
  intro id' txn hne htxn
  obtain ⟨call, hcall, rfl⟩ := exists_call_of_txnsOf htxn
  have hbelow := h.bounded id' _ hcall
  simp only [PayoutWorld.otherCall, List.any_eq_false, List.mem_range] at hfree
  have hother := hfree id' hbelow
  rw [hcall] at hother
  show rowsOf call.written key = none
  simpa [hne, hp] using hother

@[simp] theorem snapshotAt_next (snapshot : SnapshotRow)
    (pending : List PayoutDistributionEntry) :
    snapshotAt (.next snapshot pending) = some snapshot := by
  cases pending <;> rfl

@[simp] theorem pendingAt_next (snapshot : SnapshotRow) (pending : List PayoutDistributionEntry) :
    pendingAt (.next snapshot pending) = some pending := by
  cases pending <;> rfl

@[simp] theorem halfApplied_next (snapshot : SnapshotRow)
    (pending : List PayoutDistributionEntry) : halfApplied (.next snapshot pending) = [] := by
  cases pending <;> rfl

/-- After the second statement of an entry its payout is among the writes. -/
theorem callWrites_next {entry : PayoutDistributionEntry} {pending : List PayoutDistributionEntry}
    (hstage : call.stage = .insertHistory snapshot entry pending) (written : Ledger) :
    callWrites
        { call with
          stage := .next snapshot pending
          applied := call.applied ++ [entry]
          written := written }
      = callWrites call ++ [payoutWrite call.input.blockHeight call.payoutSnapshotId
          snapshot.coinbaseValueSats entry] := by
  simp only [callWrites, snapshotAt_next, halfApplied_next, hstage, writesOf_append]
  simp [halfApplied, snapshotAt]

/-- A statement of a finalization runs no write, or the next one. -/
theorem CallStep.txn (h : SerialInv world) (hcall : world.calls id = some (.finalize call))
    (hstep : CallStep world id call call') :
    finalizeTxn call' = finalizeTxn call ∨
      ∃ w, finalizeTxn call' = (finalizeTxn call).run (rowsOf world.db.ledger) w ∧
        (Skips (rowsOf world.db.ledger) (finalizeTxn call) w ∨
          ∀ id' txn, id' ≠ id → txnsOf world id' = some txn → txn.rows w.key = none) := by
  have hok := h.calls id call hcall
  -- what the statement sees
  have hsees := rowsOf_overlay world.db.ledger call.written
  cases hstep with
  | found snapshot hstage hfind =>
    left
    have hidle : call.applied = [] := hok.idle (by rw [hstage]; rfl)
    simp only [finalizeTxn, callWrites, hidle, hstage]
    rfl
  | passed snapshot hstage hfree =>
    left
    simp only [finalizeTxn, callWrites, hstage]
    rfl
  | loaded snapshot entry pending hstage hentries =>
    left
    simp only [finalizeTxn, callWrites, hstage]
    rfl
  | upserted snapshot entry pending hstage hfree =>
    right
    refine ⟨balanceWrite entry, ?_, Or.inr (rows_none_of_otherCall h.create hfree fun _ => rfl)⟩
    have hseen := congrFun hsees (.balance entry.address)
    simp only [finalizeTxn, callWrites, hstage, Txn.run, balanceWrite, rowsOf_setBalance]
    rw [← hseen]
    simp [halfApplied, snapshotAt, rowsOf, balanceWrite]
  | skipped snapshot entry pending hstage hpresent =>
    right
    have hseen := congrFun hsees (.payout call.input.blockHeight entry.address)
    have hskips : Skips (rowsOf world.db.ledger) (finalizeTxn call)
        (payoutWrite call.input.blockHeight call.payoutSnapshotId snapshot.coinbaseValueSats
          entry) := by
      refine ⟨trivial, ?_⟩
      show (overlay _ (rowsOf call.written) (.payout call.input.blockHeight entry.address)).isSome
      rw [← hseen]
      exact hpresent
    exact ⟨_, Txn.ext (callWrites_next hstage call.written) (Txn.rows_of_skips hskips).symm,
      Or.inl hskips⟩
  | inserted snapshot entry pending hstage habsent hfree =>
    right
    have hseen := congrFun hsees (.payout call.input.blockHeight entry.address)
    refine ⟨payoutWrite call.input.blockHeight call.payoutSnapshotId snapshot.coinbaseValueSats
      entry, ?_, Or.inr (rows_none_of_otherCall h.create hfree fun _ => rfl)⟩
    have habsent' : ¬ (overlay (rowsOf world.db.ledger) (rowsOf call.written)
        (.payout call.input.blockHeight entry.address)).isSome := hseen ▸ habsent
    refine Txn.ext (callWrites_next hstage _) ?_
    exact (rowsOf_setPayout ..).trans (if_neg habsent').symm

/-- A statement keeps what a call knows. -/
theorem CallStep.callOk (hok : CallOk world.db call) (hstep : CallStep world id call call') :
    CallOk world.db call' := by
  cases hstep with
  | found snapshot hstage hfind =>
    have hidle : call.applied = [] := hok.idle (by rw [hstage]; rfl)
    refine ⟨?_, fun _ => hidle, nofun⟩
    intro snapshot' hsnapshot'
    cases hsnapshot'
    exact hfind
  | passed snapshot hstage hfree =>
    have hidle : call.applied = [] := hok.idle (by rw [hstage]; rfl)
    refine ⟨?_, fun _ => hidle, nofun⟩
    simpa [hstage, snapshotAt] using hok.found
  | loaded snapshot entry pending hstage hentries =>
    have hidle : call.applied = [] := hok.idle (by rw [hstage]; rfl)
    refine ⟨?_, nofun, ?_⟩
    · simpa [hstage, snapshotAt] using hok.found
    · intro pending' hpending'
      cases hpending'
      rw [hidle, hentries]
      exact ⟨rfl, List.cons_ne_nil _ _⟩
  | upserted snapshot entry pending hstage hfree =>
    refine ⟨?_, nofun, ?_⟩
    · simpa [hstage, snapshotAt] using hok.found
    · simpa [hstage, pendingAt] using hok.entries
  | skipped snapshot entry pending hstage hpresent =>
    have hentries := hok.entries (entry :: pending) (by rw [hstage]; rfl)
    have hfound := hok.found snapshot (by rw [hstage]; rfl)
    exact ⟨by simpa using hfound, by simp, by simpa using hentries⟩
  | inserted snapshot entry pending hstage habsent hfree =>
    have hentries := hok.entries (entry :: pending) (by rw [hstage]; rfl)
    have hfound := hok.found snapshot (by rw [hstage]; rfl)
    exact ⟨by simpa using hfound, by simp, by simpa using hentries⟩

/-- The writes of a call that commits are those of its snapshot. -/
theorem SerialInv.commit (h : SerialInv world) (hcall : world.calls id = some (.finalize call))
    (hstage : call.stage = .commit snapshot) :
    world.db.snapshots.find? (fun row => row.id = call.payoutSnapshotId) = some snapshot ∧
      call.applied = world.db.entriesOf call.payoutSnapshotId ∧
      world.db.entriesOf call.payoutSnapshotId ≠ [] ∧
      rowsOf (world.db.ledger.overlay call.written)
        = rowsOf (world.db.ledger.apply call.input.blockHeight call.payoutSnapshotId
            snapshot.coinbaseValueSats (world.db.entriesOf call.payoutSnapshotId)) := by
  have hok := h.calls id call hcall
  obtain ⟨hentries, hne⟩ := hok.entries [] (by rw [hstage]; rfl)
  rw [List.append_nil] at hentries
  refine ⟨hok.found snapshot (by rw [hstage]; rfl), hentries, hne, ?_⟩
  have hwrites : callWrites call = writesOf call.input.blockHeight call.payoutSnapshotId
      snapshot.coinbaseValueSats (world.db.entriesOf call.payoutSnapshotId) := by
    simp only [callWrites, hstage, hentries]
    exact List.append_nil _
  have hsees := h.serial.sees id _ (txnsOf_of_call hcall)
  rw [rowsOf_overlay, rowsOf_apply, ← hwrites]
  exact hsees

end

/-- Every step keeps the invariant. -/
theorem SerialInv.step (h : SerialInv world) {input : PayoutInput} {world' : PayoutWorld}
    {events : List PayoutEvent} (hcreate : CreateInv world')
    (hstep : LedgerStep world input world' events) : SerialInv world' := by
  cases hstep with
  | quiet _ _ _ hledger hextends hcalls =>
    refine ⟨hcreate, ?_, fun id call hcall => (h.calls id call (hcalls id call hcall)).of_extends
      hextends⟩
    rw [hledger]
    refine h.serial.rollback fun id txn htxn => ?_
    obtain ⟨call, hcall, rfl⟩ := exists_call_of_txnsOf htxn
    exact txnsOf_of_call (hcalls id call hcall)
  | begins input payoutSnapshotId =>
    refine ⟨hcreate, ?_, ?_⟩
    · have hempty : Txn.start = finalizeTxn (.start input payoutSnapshotId) :=
        Txn.ext rfl rowsOf_empty.symm
      have hstart := h.serial.start world.nextCall
      rw [hempty] at hstart
      show Serial _ (txnsOf (world.setCall _ (some (.finalize (.start input payoutSnapshotId)))))
      rw [txnsOf_setCall]
      exact hstart
    · intro id call hcall
      by_cases hid : id = world.nextCall
      · subst hid
        simp only [PayoutWorld.begin, PayoutWorld.setCall, Function.update_self,
          Option.some.injEq, PayoutCall.finalize.injEq] at hcall
        subst hcall
        refine ⟨?_, fun _ => rfl, ?_⟩
        · rintro _ ⟨⟩
        · rintro _ ⟨⟩
      · simp only [PayoutWorld.begin, PayoutWorld.setCall, Function.update_of_ne hid] at hcall
        exact h.calls id call hcall
  | goesOn id call call' hcall hgoes =>
    refine ⟨hcreate, ?_, ?_⟩
    · have htxn := txnsOf_of_call hcall
      rw [txnsOf_setCall]
      rcases hgoes.txn h hcall with hsame | ⟨w, hnext, hfree⟩
      · have hkept : Function.update (txnsOf world) id (some (finalizeTxn call'))
            = txnsOf world := by
          rw [hsame, ← htxn, Function.update_eq_self]
        exact hkept.symm ▸ h.serial
      · have hwrite := h.serial.write htxn hfree
        rw [← hnext] at hwrite
        exact hwrite
    · intro id' call'' hcall''
      by_cases hid : id' = id
      · subst hid
        simp only [PayoutWorld.setCall, Function.update_self, Option.some.injEq,
          PayoutCall.finalize.injEq] at hcall''
        have hok := hgoes.callOk (h.calls id' call hcall)
        rw [← hcall'']
        exact hok
      · simp only [PayoutWorld.setCall, Function.update_of_ne hid] at hcall''
        exact h.calls id' call'' hcall''
  | commits id call snapshot hcall hstage =>
    refine ⟨hcreate, ?_, ?_⟩
    · have htxn := txnsOf_of_call hcall
      have hcommit := h.serial.commit htxn
      rw [← h.serial.sees id _ htxn] at hcommit
      show Serial (rowsOf (world.db.ledger.overlay call.written)) (txnsOf (world.setCall id none))
      rw [rowsOf_overlay, txnsOf_setCall]
      exact hcommit
    · intro id' call' hcall'
      by_cases hid : id' = id
      · subst hid
        simp [PayoutWorld.setCall] at hcall'
      · simp only [PayoutWorld.setCall, Function.update_of_ne hid] at hcall'
        obtain ⟨hfound, hidle, hentries⟩ := h.calls id' call' hcall'
        exact ⟨hfound, hidle, hentries⟩

end PublicPool.Proofs
