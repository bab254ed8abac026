import PublicPool.Payout.Interleaving
import PublicPool.Proofs.Payout.Balanced

/-!
# `PublicPool.Proofs.Payout.Steps`: the statements of the payout calls

`payoutStep_spec` says once what a step of `payoutMachine` does. It keeps `CreateInv`, the
invariant of the snapshots: they have distinct ids, a committed one keeps its entries, and every
entry is balanced. To the finalizations it means one of the four cases of `LedgerStep`. The results
about the ledger are derived from these cases.
-/

set_option autoImplicit false

namespace PublicPool.Proofs

open Lib (OrdMap Machine)

/-! ### The snapshots -/

/-- The row that a call inserted. -/
def insertedRow : CreateStage → Option SnapshotRow
  | .insertEntry row _ _ | .commit row _ => some row
  | _ => none

/-- The entries that a call inserts. -/
def insertedEntries : CreateStage → List PayoutDistributionEntry
  | .insertSnapshot _ entries _ | .commit _ entries => entries
  | .insertEntry _ inserted pending => inserted ++ pending
  | _ => []

/-- The snapshots have ids below the next one, and so do those under way, which are new. Every
entry is of a snapshot and balanced. -/
structure CreateInv (world : PayoutWorld) : Prop where
  bounded : ∀ id call, world.calls id = some call → id < world.nextCall
  ids : ∀ snapshot ∈ world.db.snapshots, snapshot.id < world.db.nextSnapshotId
  entries : ∀ row ∈ world.db.snapshotEntries,
    (∃ snapshot ∈ world.db.snapshots, snapshot.id = row.snapshotId) ∧ EntryBalanced row.entry
  pending : ∀ id input stage, world.calls id = some (.create input stage) →
    ∀ entry ∈ insertedEntries stage, EntryBalanced entry
  fresh : ∀ id input stage, world.calls id = some (.create input stage) →
    ∀ row ∈ insertedRow stage, row.id < world.db.nextSnapshotId ∧
      ∀ snapshot ∈ world.db.snapshots, snapshot.id ≠ row.id
  apart : ∀ id id' input input' stage stage', id ≠ id' →
    world.calls id = some (.create input stage) →
    world.calls id' = some (.create input' stage') →
    ∀ row ∈ insertedRow stage, ∀ row' ∈ insertedRow stage', row.id ≠ row'.id

/-- The entries of the snapshots are balanced. -/
theorem CreateInv.entryBalanced {world : PayoutWorld} (h : CreateInv world)
    (payoutSnapshotId : ℕ) :
    ∀ entry ∈ world.db.entriesOf payoutSnapshotId, EntryBalanced entry := by
  intro entry hentry
  rw [Database.entriesOf, List.mem_insertionSort] at hentry
  obtain ⟨row, hrow, rfl⟩ := List.mem_map.mp hentry
  exact (h.entries row (List.mem_filter.mp hrow).1).2

/-- The database after a step still has every snapshot, with the same entries. -/
structure Extends (db db' : Database) : Prop where
  snapshot : ∀ id snapshot, db.snapshots.find? (fun row => row.id = id) = some snapshot →
    db'.snapshots.find? (fun row => row.id = id) = some snapshot
  entries : ∀ id, (∃ snapshot ∈ db.snapshots, snapshot.id = id) →
    db'.entriesOf id = db.entriesOf id

theorem Extends.of_eq {db db' : Database} (hsnapshots : db'.snapshots = db.snapshots)
    (hentries : db'.snapshotEntries = db.snapshotEntries) : Extends db db' where
  snapshot _ _ h := by rw [hsnapshots]; exact h
  entries id _ := by rw [Database.entriesOf, hentries, Database.entriesOf]

theorem Extends.exists_snapshot {db db' : Database} (h : Extends db db') {snapshot : SnapshotRow}
    (hsnapshot : snapshot ∈ db.snapshots) :
    ∃ snapshot' ∈ db'.snapshots, snapshot'.id = snapshot.id := by
  have hsome : (db.snapshots.find? fun row => row.id = snapshot.id).isSome := by
    rw [List.find?_isSome]
    exact ⟨snapshot, hsnapshot, by simp⟩
  obtain ⟨found, hfind⟩ := Option.isSome_iff_exists.mp hsome
  have hfind' := h.snapshot _ _ hfind
  exact ⟨found, List.mem_of_find?_eq_some hfind', by simpa using List.find?_some hfind'⟩

/-- A committed snapshot extends the database. -/
theorem extends_commit {world : PayoutWorld} {row : SnapshotRow}
    (hfresh : ∀ snapshot ∈ world.db.snapshots, snapshot.id ≠ row.id)
    (entries : List PayoutDistributionEntry) :
    Extends world.db
      { world.db with
        snapshots := world.db.snapshots ++ [row]
        snapshotEntries := world.db.snapshotEntries ++
          entries.map fun entry => { snapshotId := row.id, entry } } where
  snapshot id snapshot hfind := by
    show (world.db.snapshots ++ [row]).find? _ = _
    rw [List.find?_append, hfind]
    rfl
  entries id hid := by
    obtain ⟨snapshot, hsnapshot, rfl⟩ := hid
    have hne : row.id ≠ snapshot.id := Ne.symm (hfresh snapshot hsnapshot)
    have hnone : (entries.map fun entry => SnapshotEntryRow.mk row.id entry).filter
        (fun entryRow => decide (entryRow.snapshotId = snapshot.id)) = [] := by
      rw [List.filter_eq_nil_iff]
      intro entryRow hmem
      obtain ⟨entry, -, rfl⟩ := List.mem_map.mp hmem
      simpa using hne
    simp only [Database.entriesOf, List.filter_append, hnone, List.append_nil]

section
variable {env : PayoutEnv} {config : PayoutConfig} {world : PayoutWorld}

/-- A step that leaves the creating calls and the snapshots as they were, up to calls that end. -/
theorem CreateInv.of_calls (h : CreateInv world) {world' : PayoutWorld}
    (hbounded : ∀ id call, world'.calls id = some call → id < world'.nextCall)
    (hsnapshots : world'.db.snapshots = world.db.snapshots)
    (hentries : world'.db.snapshotEntries = world.db.snapshotEntries)
    (hnext : world.db.nextSnapshotId ≤ world'.db.nextSnapshotId)
    (hcalls : ∀ id input stage, world'.calls id = some (.create input stage) →
      world.calls id = some (.create input stage) ∨
        insertedRow stage = none ∧ insertedEntries stage = []) : CreateInv world' where
  bounded := hbounded
  ids snapshot hsnapshot := by
    rw [hsnapshots] at hsnapshot
    exact lt_of_lt_of_le (h.ids snapshot hsnapshot) hnext
  entries := by
    rw [hsnapshots, hentries]
    exact h.entries
  pending id input stage hcall entry hentry := by
    rcases hcalls id input stage hcall with hold | ⟨-, hnone⟩
    · exact h.pending id input stage hold entry hentry
    · rw [hnone] at hentry
      cases hentry
  fresh id input stage hcall row hrow := by
    rw [hsnapshots]
    rcases hcalls id input stage hcall with hold | ⟨hnone, -⟩
    · obtain ⟨hlt, hfresh⟩ := h.fresh id input stage hold row hrow
      exact ⟨lt_of_lt_of_le hlt hnext, hfresh⟩
    · rw [hnone] at hrow
      cases hrow
  apart id id' input input' stage stage' hne hcall hcall' row hrow row' hrow' := by
    rcases hcalls id input stage hcall with hold | ⟨hnone, -⟩
    · rcases hcalls id' input' stage' hcall' with hold' | ⟨hnone', -⟩
      · exact h.apart id id' input input' stage stage' hne hold hold' row hrow row' hrow'
      · rw [hnone'] at hrow'
        cases hrow'
    · rw [hnone] at hrow
      cases hrow

variable {id : ℕ} {call : PayoutCall} {input : CreateSnapshotInput} {db : Database}

/-- A call that goes on or ends keeps the calls below the next one. -/
theorem CreateInv.bounded_setCall (h : CreateInv world) (hcall : world.calls id = some call)
    (next : Option PayoutCall) :
    ∀ id' call', (world.setCall id next).calls id' = some call' → id' < world.nextCall := by
  intro id' call' hcall'
  by_cases hid : id' = id
  · exact hid ▸ h.bounded id call hcall
  · refine h.bounded id' call' ?_
    simpa [PayoutWorld.setCall, Function.update_of_ne hid] using hcall'

/-- A creating call that goes on with the rows it has. -/
theorem CreateInv.setStage (h : CreateInv world) {stage stage' : CreateStage}
    (hcall : world.calls id = some (.create input stage))
    (hsnapshots : db.snapshots = world.db.snapshots)
    (hentries : db.snapshotEntries = world.db.snapshotEntries)
    (hnext : world.db.nextSnapshotId ≤ db.nextSnapshotId)
    (hbalanced : ∀ entry ∈ insertedEntries stage', EntryBalanced entry)
    (hrow : ∀ row ∈ insertedRow stage', insertedRow stage = some row ∨
      world.db.nextSnapshotId ≤ row.id ∧ row.id < db.nextSnapshotId) :
    CreateInv { world.setCall id (some (.create input stage')) with db := db } := by
  have hcalls : ∀ id' input' stage'', (world.setCall id (some (.create input stage'))).calls id'
      = some (.create input' stage'') →
      (id' = id ∧ stage'' = stage') ∨ id' ≠ id ∧ world.calls id' = some (.create input' stage'') := by
    intro id' input' stage'' hcall'
    by_cases hid : id' = id
    · subst hid
      simp only [PayoutWorld.setCall, Function.update_self, Option.some.injEq,
        PayoutCall.create.injEq] at hcall'
      exact Or.inl ⟨rfl, hcall'.2.symm⟩
    · simp only [PayoutWorld.setCall, Function.update_of_ne hid] at hcall'
      exact Or.inr ⟨hid, hcall'⟩
  -- a row of the call is new to the snapshots and to the other calls
  have hnew : ∀ row ∈ insertedRow stage', row.id < db.nextSnapshotId ∧
      (∀ snapshot ∈ world.db.snapshots, snapshot.id ≠ row.id) ∧
      ∀ id' input' stage'', id' ≠ id → world.calls id' = some (.create input' stage'') →
        ∀ row' ∈ insertedRow stage'', row.id ≠ row'.id := by
    intro row hmem
    rcases hrow row hmem with hold | ⟨hle, hlt⟩
    · obtain ⟨hlt, hfresh⟩ := h.fresh id input stage hcall row hold
      exact ⟨by omega, hfresh, fun id' input' stage'' hne hcall' =>
        h.apart id id' input input' stage stage'' (Ne.symm hne) hcall hcall' row hold⟩
    · refine ⟨hlt, fun snapshot hsnapshot => ?_, fun id' input' stage'' hne hcall' row' hrow' => ?_⟩
      · have hbelow := h.ids snapshot hsnapshot
        omega
      · have hbelow := (h.fresh id' input' stage'' hcall' row' hrow').1
        omega
  refine ⟨h.bounded_setCall hcall _, ?_, ?_, ?_, ?_, ?_⟩
  · show ∀ snapshot ∈ db.snapshots, snapshot.id < db.nextSnapshotId
    rw [hsnapshots]
    intro snapshot hsnapshot
    have hbelow := h.ids snapshot hsnapshot
    omega
  · show ∀ row ∈ db.snapshotEntries, (∃ snapshot ∈ db.snapshots, _) ∧ _
    rw [hsnapshots, hentries]
    exact h.entries
  · intro id' input' stage'' hcall'
    rcases hcalls id' input' stage'' hcall' with ⟨rfl, rfl⟩ | ⟨-, hold⟩
    · exact hbalanced
    · exact h.pending id' input' stage'' hold
  · intro id' input' stage'' hcall' row hmem
    show row.id < db.nextSnapshotId ∧ ∀ snapshot ∈ db.snapshots, snapshot.id ≠ row.id
    rw [hsnapshots]
    rcases hcalls id' input' stage'' hcall' with ⟨rfl, rfl⟩ | ⟨-, hold⟩
    · exact ⟨(hnew row hmem).1, (hnew row hmem).2.1⟩
    · obtain ⟨hlt, hfresh⟩ := h.fresh id' input' stage'' hold row hmem
      exact ⟨by omega, hfresh⟩
  · intro id₁ id₂ input₁ input₂ stage₁ stage₂ hne hcall₁ hcall₂ row₁ hrow₁ row₂ hrow₂
    rcases hcalls id₁ input₁ stage₁ hcall₁ with ⟨rfl, rfl⟩ | ⟨hne₁, hold₁⟩
    · rcases hcalls id₂ input₂ stage₂ hcall₂ with ⟨rfl, rfl⟩ | ⟨hne₂, hold₂⟩
      · exact absurd rfl hne
      · exact (hnew row₁ hrow₁).2.2 id₂ input₂ stage₂ hne₂ hold₂ row₂ hrow₂
    · rcases hcalls id₂ input₂ stage₂ hcall₂ with ⟨rfl, rfl⟩ | ⟨hne₂, hold₂⟩
      · exact Ne.symm ((hnew row₂ hrow₂).2.2 id₁ input₁ stage₁ hne₁ hold₁ row₁ hrow₁)
      · exact h.apart id₁ id₂ input₁ input₂ stage₁ stage₂ hne hold₁ hold₂ row₁ hrow₁ row₂ hrow₂

/-- A call that ends. -/
theorem CreateInv.endCall (h : CreateInv world) (hcall : world.calls id = some call)
    (hsnapshots : db.snapshots = world.db.snapshots)
    (hentries : db.snapshotEntries = world.db.snapshotEntries)
    (hnext : world.db.nextSnapshotId ≤ db.nextSnapshotId) :
    CreateInv { world.setCall id none with db := db } := by
  refine h.of_calls (h.bounded_setCall hcall none) hsnapshots hentries hnext ?_
  intro id' input stage hcall'
  by_cases hid : id' = id
  · subst hid
    simp [PayoutWorld.setCall] at hcall'
  · simp only [PayoutWorld.setCall, Function.update_of_ne hid] at hcall'
    exact Or.inl hcall'

/-- The commit of a snapshot. -/
theorem CreateInv.commitSnapshot (h : CreateInv world) {row : SnapshotRow}
    {entries : List PayoutDistributionEntry}
    (hcall : world.calls id = some (.create input (.commit row entries))) :
    CreateInv
      { world.setCall id none with
        db :=
          { world.db with
            snapshots := world.db.snapshots ++ [row]
            snapshotEntries := world.db.snapshotEntries ++
              entries.map fun entry => { snapshotId := row.id, entry } } } := by
  obtain ⟨hlt, -⟩ := h.fresh id input _ hcall row rfl
  have hbalanced := h.pending id input _ hcall
  have hcalls : ∀ id' input' stage, (world.setCall id none).calls id'
      = some (.create input' stage) →
      id' ≠ id ∧ world.calls id' = some (.create input' stage) := by
    intro id' input' stage hcall'
    by_cases hid : id' = id
    · subst hid
      simp [PayoutWorld.setCall] at hcall'
    · simp only [PayoutWorld.setCall, Function.update_of_ne hid] at hcall'
      exact ⟨hid, hcall'⟩
  refine ⟨h.bounded_setCall hcall none, ?_, ?_, ?_, ?_, ?_⟩
  · intro snapshot hsnapshot
    rcases List.mem_append.mp hsnapshot with hold | hlast
    · exact h.ids snapshot hold
    · rw [List.mem_singleton.mp hlast]
      exact hlt
  · intro entryRow hmem
    rcases List.mem_append.mp hmem with hold | hnew
    · obtain ⟨⟨snapshot, hsnapshot, hid⟩, hentry⟩ := h.entries entryRow hold
      exact ⟨⟨snapshot, List.mem_append_left _ hsnapshot, hid⟩, hentry⟩
    · obtain ⟨entry, hentry, rfl⟩ := List.mem_map.mp hnew
      exact ⟨⟨row, List.mem_append_right _ (List.mem_singleton_self row), rfl⟩,
        hbalanced entry hentry⟩
  · intro id' input' stage hcall'
    exact h.pending id' input' stage (hcalls id' input' stage hcall').2
  · intro id' input' stage hcall' row' hrow'
    obtain ⟨hid, hold⟩ := hcalls id' input' stage hcall'
    obtain ⟨hlt', hfresh'⟩ := h.fresh id' input' stage hold row' hrow'
    refine ⟨hlt', ?_⟩
    intro snapshot hsnapshot
    rcases List.mem_append.mp hsnapshot with hmem | hlast
    · exact hfresh' snapshot hmem
    · rw [List.mem_singleton.mp hlast]
      exact h.apart id id' input input' _ stage (Ne.symm hid) hcall hold row rfl row' hrow'
  · intro id₁ id₂ input₁ input₂ stage₁ stage₂ hne hcall₁ hcall₂
    exact h.apart id₁ id₂ input₁ input₂ stage₁ stage₂ hne (hcalls id₁ input₁ stage₁ hcall₁).2
      (hcalls id₂ input₂ stage₂ hcall₂).2

/-! ### What a step means to the finalizations -/

/-- The finalizations that came to their end: the height and the snapshot of each. -/
def finalizedOf (history : List PayoutEvent) : List (ℤ × ℕ) :=
  history.filterMap fun
    | .finalizeEnded input (.finalized payoutSnapshotId _ _) =>
      some (input.blockHeight, payoutSnapshotId)
    | _ => none

theorem finalizedOf_append (history more : List PayoutEvent) :
    finalizedOf (history ++ more) = finalizedOf history ++ finalizedOf more :=
  List.filterMap_append

variable (world)

/-- How a finalization goes on. -/
inductive CallStep (id : ℕ) (call : FinalizeCall) : FinalizeCall → Prop
  | found (snapshot : SnapshotRow) (hstage : call.stage = .readSnapshot)
      (hfind : world.db.snapshots.find? (fun row => row.id = call.payoutSnapshotId)
        = some snapshot) :
    CallStep id call { call with stage := .readHistory snapshot }
  | passed (snapshot : SnapshotRow) (hstage : call.stage = .readHistory snapshot)
      (hfree : (world.db.ledger.overlay call.written).finalizedAt call.input.blockHeight
        = false) :
    CallStep id call { call with stage := .readEntries snapshot }
  | loaded (snapshot : SnapshotRow) (entry : PayoutDistributionEntry)
      (pending : List PayoutDistributionEntry) (hstage : call.stage = .readEntries snapshot)
      (hentries : world.db.entriesOf call.payoutSnapshotId = entry :: pending) :
    CallStep id call { call with stage := .upsertBalance snapshot entry pending }
  | upserted (snapshot : SnapshotRow) (entry : PayoutDistributionEntry)
      (pending : List PayoutDistributionEntry)
      (hstage : call.stage = .upsertBalance snapshot entry pending)
      (hfree : world.otherCall id (·.holdsBalance entry.address) = false) :
    CallStep id call
      { call with
        stage := .insertHistory snapshot entry pending
        written :=
          { call.written with
            balances := call.written.balances.set entry.address (BalanceRow.upsert entry
              ((world.db.ledger.overlay call.written).balances.get? entry.address)) } }
  | skipped (snapshot : SnapshotRow) (entry : PayoutDistributionEntry)
      (pending : List PayoutDistributionEntry)
      (hstage : call.stage = .insertHistory snapshot entry pending)
      (hpresent : ((world.db.ledger.overlay call.written).history.get?
        (call.input.blockHeight, entry.address)).isSome = true) :
    CallStep id call
      { call with
        stage := FinalizeStage.next snapshot pending
        applied := call.applied ++ [entry] }
  | inserted (snapshot : SnapshotRow) (entry : PayoutDistributionEntry)
      (pending : List PayoutDistributionEntry)
      (hstage : call.stage = .insertHistory snapshot entry pending)
      (habsent : ¬ ((world.db.ledger.overlay call.written).history.get?
        (call.input.blockHeight, entry.address)).isSome = true)
      (hfree : world.otherCall id (·.holdsPayout call.input.blockHeight entry.address)
        = false) :
    CallStep id call
      { call with
        stage := FinalizeStage.next snapshot pending
        applied := call.applied ++ [entry]
        written :=
          { call.written with
            history := call.written.history.set (call.input.blockHeight, entry.address)
              (HistoryRow.ofEntry call.payoutSnapshotId snapshot.coinbaseValueSats entry) } }

/-- What a step means to the finalizations and to the ledger. -/
inductive LedgerStep : PayoutInput → PayoutWorld → List PayoutEvent → Prop
  | quiet (input : PayoutInput) (world' : PayoutWorld) (events : List PayoutEvent)
      (hledger : world'.db.ledger = world.db.ledger) (hextends : Extends world.db world'.db)
      (hcalls : ∀ id call, world'.calls id = some (.finalize call) →
        world.calls id = some (.finalize call))
      (hfinalized : finalizedOf events = [])
      (hrefused : ∀ input, .finalizeEnded input (.refused .alreadyFinalized) ∈ events →
        ∃ id call snapshot, world.calls id = some (.finalize call) ∧ call.input = input ∧
          call.stage = .readHistory snapshot ∧
          (world.db.ledger.overlay call.written).finalizedAt input.blockHeight = true) :
    LedgerStep input world' events
  | begins (input : FinalizeInput) (payoutSnapshotId : ℕ) :
    LedgerStep (.finalizeSnapshotForBlock input)
      (world.begin (.finalize (.start input payoutSnapshotId))) []
  | goesOn (id : ℕ) (call call' : FinalizeCall) (hcall : world.calls id = some (.finalize call))
      (hstep : CallStep world id call call') :
    LedgerStep (.statement id) (world.setCall id (some (.finalize call'))) []
  | commits (id : ℕ) (call : FinalizeCall) (snapshot : SnapshotRow)
      (hcall : world.calls id = some (.finalize call)) (hstage : call.stage = .commit snapshot) :
    LedgerStep (.statement id)
      { world.setCall id none with
        db := { world.db with ledger := world.db.ledger.overlay call.written } }
      [.finalizeEnded call.input (.finalized call.payoutSnapshotId call.applied.length
        call.applied.length)]

variable {world}

/-- A creating call leaves the ledger and the committed snapshots alone. -/
structure LeavesLedger (world : PayoutWorld) (db : Database) : Prop where
  ledger : db.ledger = world.db.ledger
  extends_db : Extends world.db db

/-- What a statement of a creating call comes to. -/
theorem createStatement_spec (h : CreateInv world) {id : ℕ} {input : CreateSnapshotInput}
    {stage : CreateStage} (hcall : world.calls id = some (.create input stage)) :
    match createStatement env config world id input stage with
    | .waits => True
    | .goesOn db call => CreateInv { world.setCall id (some call) with db := db } ∧
        LeavesLedger world db ∧ ∃ stage', call = .create input stage'
    | .ends db event => CreateInv { world.setCall id none with db := db } ∧
        LeavesLedger world db ∧ ∃ result, event = .created input result := by
  have hsame : LeavesLedger world world.db := ⟨rfl, .of_eq rfl rfl⟩
  have hended : CreateInv { world.setCall id none with db := world.db } :=
    h.endCall hcall rfl rfl le_rfl
  have hpending := h.pending id input stage hcall
  -- a stage without rows and entries
  have hplain : ∀ stage', insertedRow stage' = none → insertedEntries stage' = [] →
      CreateInv { world.setCall id (some (.create input stage')) with db := world.db } := by
    intro stage' hrow hentries
    refine h.setStage hcall rfl rfl le_rfl ?_ ?_
    · intro entry hentry
      rw [hentries] at hentry
      cases hentry
    · intro row hmem
      rw [hrow] at hmem
      cases hmem
  cases stage with
  | readFactor => exact ⟨hplain _ rfl rfl, hsame, _, rfl⟩
  | readWindow effectiveWindowFactor =>
    simp only [createStatement]
    cases getPplnsWindow world.db (input.networkDifficulty * effectiveWindowFactor) with
    | none => exact ⟨hended, hsame, _, rfl⟩
    | some window =>
      by_cases hnothing : window.totalCreditedDifficulty ≤ 0
      · simp only [if_pos hnothing]
        exact ⟨hended, hsame, _, rfl⟩
      · simp only [if_neg hnothing]
        exact ⟨hplain _ rfl rfl, hsame, _, rfl⟩
  | readExisting window =>
    simp only [createStatement]
    cases getExistingSnapshot config world.db input window.windowEndShareIndex with
    | some existing => exact ⟨hended, hsame, _, rfl⟩
    | none => exact ⟨hplain _ rfl rfl, hsame, _, rfl⟩
  | readWork window => exact ⟨hplain _ rfl rfl, hsame, _, rfl⟩
  | readBalances window addressWork =>
    simp only [createStatement]
    cases hdistribute : distributeTemplate env config input.coinbaseValueSats addressWork
        (getOpenBalances world.db) with
    | none => exact ⟨hended, hsame, _, rfl⟩
    | some distributed =>
      obtain ⟨entries, consideredAddressCount⟩ := distributed
      refine ⟨h.setStage hcall rfl rfl le_rfl ?_ (fun row hrow => nomatch hrow), hsame, _, rfl⟩
      exact entryBalanced_distributeTemplate env hdistribute
  | insertSnapshot window entries consideredAddressCount =>
    simp only [createStatement]
    by_cases hlocked : world.otherCall id (·.holdsSnapshot config.method input.blockHeight
        input.coinbaseValueSats window.windowEndShareIndex) = true
    · simp only [if_pos hlocked]
    · simp only [if_neg hlocked]
      -- the id is taken from the sequence even when the insert fails
      have hnext : LeavesLedger world
          { world.db with nextSnapshotId := world.db.nextSnapshotId + 1 } :=
        ⟨rfl, .of_eq rfl rfl⟩
      by_cases hexists : world.db.snapshots.any (·.hasKey config.method input.blockHeight
          input.coinbaseValueSats window.windowEndShareIndex) = true
      · simp only [if_pos hexists]
        exact ⟨h.endCall hcall rfl rfl (Nat.le_succ _), hnext, _, rfl⟩
      · simp only [if_neg hexists]
        refine ⟨h.setStage hcall rfl rfl (Nat.le_succ _) hpending ?_, hnext, _, rfl⟩
        intro row hrow
        obtain rfl := Option.some.inj hrow
        exact Or.inr ⟨le_rfl, Nat.lt_succ_self _⟩
  | insertEntry row inserted pending =>
    have hkeeps : ∀ stage', insertedRow stage' = some row →
        insertedEntries stage' = inserted ++ pending →
        CreateInv { world.setCall id (some (.create input stage')) with db := world.db } := by
      intro stage' hrow hentries
      refine h.setStage hcall rfl rfl le_rfl ?_ ?_
      · rw [hentries]
        exact hpending
      · intro row' hrow'
        left
        rw [hrow] at hrow'
        exact hrow'
    cases pending with
    | nil =>
      refine ⟨hkeeps _ rfl ?_, hsame, _, rfl⟩
      exact (List.append_nil inserted).symm
    | cons entry pending =>
      simp only [createStatement]
      by_cases hdouble : entry.address ∈ inserted.map (·.address)
      · simp only [if_pos hdouble]
        exact ⟨hended, hsame, _, rfl⟩
      · simp only [if_neg hdouble]
        refine ⟨hkeeps _ rfl ?_, hsame, _, rfl⟩
        exact List.append_assoc inserted [entry] pending
  | commit row entries =>
    have hcommit := h.commitSnapshot hcall
    have hleaves : LeavesLedger world
        { world.db with
          snapshots := world.db.snapshots ++ [row]
          snapshotEntries := world.db.snapshotEntries ++
            entries.map fun entry => { snapshotId := row.id, entry } } :=
      ⟨rfl, extends_commit (h.fresh id input _ hcall row rfl).2 entries⟩
    simp only [createStatement]
    cases getSnapshotById
        { world.db with
          snapshots := world.db.snapshots ++ [row]
          snapshotEntries := world.db.snapshotEntries ++
            entries.map fun entry => { snapshotId := row.id, entry } } row.id with
    | none => exact ⟨hcommit, hleaves, _, rfl⟩
    | some snapshot => exact ⟨hcommit, hleaves, _, rfl⟩

/-- What a statement of a finalization comes to. -/
theorem finalizeStatement_spec {id : ℕ} {call : FinalizeCall}
    (hcall : world.calls id = some (.finalize call)) :
    match finalizeStatement world id call with
    | .waits => True
    | .goesOn db call' => db = world.db ∧ ∃ finalizing, call' = .finalize finalizing ∧
        CallStep world id call finalizing
    | .ends db event => (∃ ledger, db = { world.db with ledger := ledger }) ∧
        (∃ result, event = .finalizeEnded call.input result) ∧
        LedgerStep world (.statement id) { world.setCall id none with db := db } [event] := by
  have hrefused : ∀ reason, (reason = .alreadyFinalized → ∃ snapshot,
        call.stage = .readHistory snapshot ∧
        (world.db.ledger.overlay call.written).finalizedAt call.input.blockHeight = true) →
      (∃ ledger, world.db = { world.db with ledger := ledger }) ∧
        (∃ result, PayoutEvent.finalizeEnded call.input (.refused reason)
          = .finalizeEnded call.input result) ∧
        LedgerStep world (.statement id) { world.setCall id none with db := world.db }
          [.finalizeEnded call.input (.refused reason)] := by
    intro reason hreason
    refine ⟨⟨world.db.ledger, rfl⟩, ⟨_, rfl⟩, ?_⟩
    refine .quiet _ _ _ rfl (.of_eq rfl rfl) ?_ rfl ?_
    · intro id' call' hcall'
      by_cases hid : id' = id
      · subst hid
        simp [PayoutWorld.setCall] at hcall'
      · simpa [PayoutWorld.setCall, Function.update_of_ne hid] using hcall'
    · intro input hmem
      rw [List.mem_singleton] at hmem
      cases hmem
      obtain ⟨snapshot, hstage, hfinalized⟩ := hreason rfl
      exact ⟨id, call, snapshot, hcall, rfl, hstage, hfinalized⟩
  unfold finalizeStatement
  cases hstage : call.stage with
  | readSnapshot =>
    simp only
    cases hfind : world.db.snapshots.find? (fun row => row.id = call.payoutSnapshotId) with
    | none => exact hrefused _ nofun
    | some snapshot => exact ⟨rfl, _, rfl, .found snapshot hstage hfind⟩
  | readHistory snapshot =>
    simp only
    by_cases hfinalized :
        (world.db.ledger.overlay call.written).finalizedAt call.input.blockHeight = true
    · simp only [if_pos hfinalized]
      exact hrefused _ fun _ => ⟨snapshot, hstage, hfinalized⟩
    · simp only [if_neg hfinalized]
      exact ⟨trivial, _, rfl, .passed snapshot hstage (by simpa using hfinalized)⟩
  | readEntries snapshot =>
    simp only
    cases hentries : world.db.entriesOf call.payoutSnapshotId with
    | nil => exact hrefused _ nofun
    | cons entry pending => exact ⟨rfl, _, rfl, .loaded snapshot entry pending hstage hentries⟩
  | upsertBalance snapshot entry pending =>
    simp only
    by_cases hlocked : world.otherCall id (·.holdsBalance entry.address) = true
    · simp only [if_pos hlocked]
    · simp only [if_neg hlocked]
      exact ⟨trivial, _, rfl, .upserted snapshot entry pending hstage (by simpa using hlocked)⟩
  | insertHistory snapshot entry pending =>
    simp only
    by_cases hpresent : ((world.db.ledger.overlay call.written).history.get?
        (call.input.blockHeight, entry.address)).isSome = true
    · simp only [if_pos hpresent]
      exact ⟨trivial, _, rfl, .skipped snapshot entry pending hstage hpresent⟩
    · simp only [if_neg hpresent]
      by_cases hlocked :
          world.otherCall id (·.holdsPayout call.input.blockHeight entry.address) = true
      · simp only [if_pos hlocked]
      · simp only [if_neg hlocked]
        exact ⟨trivial, _, rfl,
          .inserted snapshot entry pending hstage hpresent (by simpa using hlocked)⟩
  | commit snapshot => exact ⟨⟨_, rfl⟩, ⟨_, rfl⟩, .commits id call snapshot hcall hstage⟩

/-- A call that begins. -/
theorem CreateInv.begin (h : CreateInv world) {call : PayoutCall}
    (hcreate : ∀ input stage, call = .create input stage →
      insertedRow stage = none ∧ insertedEntries stage = []) :
    CreateInv (world.begin call) := by
  refine h.of_calls ?_ rfl rfl le_rfl ?_
  · intro id call' hcall'
    show id < world.nextCall + 1
    by_cases hid : id = world.nextCall
    · omega
    · simp only [PayoutWorld.begin, PayoutWorld.setCall, Function.update_of_ne hid] at hcall'
      exact Nat.lt_succ_of_lt (h.bounded id call' hcall')
  · intro id input stage hcall'
    by_cases hid : id = world.nextCall
    · subst hid
      simp only [PayoutWorld.begin, PayoutWorld.setCall, Function.update_self,
        Option.some.injEq] at hcall'
      exact Or.inr (hcreate input stage hcall')
    · simp only [PayoutWorld.begin, PayoutWorld.setCall, Function.update_of_ne hid] at hcall'
      exact Or.inl hcall'

/-- A step that only ends a call, makes no finalization and leaves the ledger. -/
theorem ledgerStep_endCall {input : PayoutInput} {id : ℕ} {db : Database} {event : PayoutEvent}
    (hleaves : LeavesLedger world db) (hfinalized : finalizedOf [event] = [])
    (hevent : ∀ input, event ≠ .finalizeEnded input (.refused .alreadyFinalized)) :
    LedgerStep world input { world.setCall id none with db := db } [event] := by
  refine .quiet _ _ _ hleaves.ledger hleaves.extends_db ?_ hfinalized ?_
  · intro id' call' hcall'
    by_cases hid : id' = id
    · subst hid
      simp [PayoutWorld.setCall] at hcall'
    · simpa [PayoutWorld.setCall, Function.update_of_ne hid] using hcall'
  · intro input hmem
    exact absurd (List.mem_singleton.mp hmem).symm (hevent input)

/-- Every step keeps the invariant of the snapshots, and is one of the four kinds. -/
theorem payoutStep_spec (h : CreateInv world) (input : PayoutInput) :
    CreateInv (payoutStep env config world input).1 ∧
      LedgerStep world input (payoutStep env config world input).1
        (payoutStep env config world input).2 := by
  have hsame : LeavesLedger world world.db := ⟨rfl, .of_eq rfl rfl⟩
  have hidle : ∀ input (events : List PayoutEvent), finalizedOf events = [] →
      (∀ ended, .finalizeEnded ended (.refused .alreadyFinalized) ∉ events) →
      LedgerStep world input world events := by
    intro input events hfinalized hevents
    exact .quiet _ _ _ rfl (.of_eq rfl rfl) (fun _ _ hcall => hcall) hfinalized
      fun input hmem => absurd hmem (hevents input)
  cases input with
  | createSnapshotForTemplate input =>
    simp only [payoutStep, PayoutWorld.beginCreate]
    split
    · exact ⟨h, hidle _ _ rfl (by simp)⟩
    · refine ⟨h.begin ?_, ?_⟩
      · intro input' stage heq
        cases heq
        exact ⟨rfl, rfl⟩
      · refine .quiet _ _ _ rfl (.of_eq rfl rfl) ?_ rfl (by simp)
        intro id call hcall
        by_cases hid : id = world.nextCall
        · subst hid
          simp [PayoutWorld.begin, PayoutWorld.setCall] at hcall
        · simpa [PayoutWorld.begin, PayoutWorld.setCall, Function.update_of_ne hid] using hcall
  | finalizeSnapshotForBlock input =>
    have hrefused : ∀ reason, reason ≠ .alreadyFinalized →
        LedgerStep world (.finalizeSnapshotForBlock input) world
          [.finalizeEnded input (.refused reason)] := by
      intro reason hreason
      refine hidle _ _ rfl ?_
      intro input' hmem
      rw [List.mem_singleton] at hmem
      cases hmem
      exact hreason rfl
    simp only [payoutStep, PayoutWorld.beginFinalize]
    split
    · exact ⟨h, hrefused _ nofun⟩
    · split
      · exact ⟨h, hrefused _ nofun⟩
      · split
        · exact ⟨h, hrefused _ nofun⟩
        · cases input.payoutSnapshotId with
          | none => exact ⟨h, hrefused _ nofun⟩
          | some payoutSnapshotId =>
            refine ⟨h.begin fun input' stage hcall => ?_, .begins input payoutSnapshotId⟩
            cases hcall
  | statement id =>
    simp only [payoutStep]
    cases hcall : world.calls id with
    | none => exact ⟨h, hidle _ _ rfl (by simp)⟩
    | some call =>
      cases call with
      | create input stage =>
        have hspec := @createStatement_spec env config world h id input stage hcall
        simp only [PayoutCall.statement]
        cases hresult : createStatement env config world id input stage with
        | waits => exact ⟨h, hidle _ _ rfl (by simp)⟩
        | goesOn db call' =>
          rw [hresult] at hspec
          obtain ⟨hinv, hleaves, stage', rfl⟩ := hspec
          refine ⟨hinv, .quiet _ _ _ hleaves.ledger hleaves.extends_db ?_ rfl (by simp)⟩
          intro id' call'' hcall''
          by_cases hid : id' = id
          · subst hid
            simp [PayoutWorld.setCall] at hcall''
          · simpa [PayoutWorld.setCall, Function.update_of_ne hid] using hcall''
        | ends db event =>
          rw [hresult] at hspec
          obtain ⟨hinv, hleaves, result, rfl⟩ := hspec
          exact ⟨hinv, ledgerStep_endCall hleaves rfl nofun⟩
      | finalize call =>
        have hspec := finalizeStatement_spec hcall
        simp only [PayoutCall.statement]
        cases hresult : finalizeStatement world id call with
        | waits => exact ⟨h, hidle _ _ rfl (by simp)⟩
        | goesOn db call' =>
          rw [hresult] at hspec
          obtain ⟨rfl, finalizing, rfl, hstep⟩ := hspec
          refine ⟨?_, .goesOn id call finalizing hcall hstep⟩
          refine h.of_calls (h.bounded_setCall hcall _) rfl rfl le_rfl ?_
          intro id' input stage hcall'
          by_cases hid : id' = id
          · subst hid
            simp [PayoutWorld.setCall] at hcall'
          · left
            simpa [PayoutWorld.setCall, Function.update_of_ne hid] using hcall'
        | ends db event =>
          rw [hresult] at hspec
          obtain ⟨⟨ledger, rfl⟩, -, hstep⟩ := hspec
          exact ⟨h.endCall hcall rfl rfl le_rfl, hstep⟩
  | rollback id =>
    simp only [payoutStep]
    cases hcall : world.calls id with
    | none => exact ⟨h, hidle _ _ rfl (by simp)⟩
    | some call =>
      have hended : CreateInv { world.setCall id none with db := world.db } :=
        h.endCall hcall rfl rfl le_rfl
      exact ⟨hended, ledgerStep_endCall hsame rfl nofun⟩
  | rollup rollupBatches rollupSummaries =>
    refine ⟨h.of_calls h.bounded rfl rfl le_rfl fun _ _ _ hcall => Or.inl hcall, ?_⟩
    exact .quiet _ _ _ rfl (.of_eq rfl rfl) (fun _ _ hcall => hcall) rfl
      fun input hmem => nomatch hmem

end

end PublicPool.Proofs
