import PublicPool.Proofs.Payout.CoinbasePays

/-!
# `PublicPool.Proofs.Payout.SameSnapshot`: one snapshot for one template

`createSnapshotForTemplate` looks for a snapshot of its template and window, and inserts one when
there is none. Nothing but the unique index stands between the two statements, so of two calls that
have both looked, only one can insert; the other waits for it and fails as a whole.

`same_snapshot_iff` is the exact account for runs of any number of calls for one template. When all
of them have ended, they have returned one and the same snapshot if and only if the table had it at
the start, or the distribution can be stored and no call looked while another one was past its own
look.

`Move` says once what a statement does in such a run. A call that has looked is `past`; it has
inserted when it holds a row.
-/

set_option autoImplicit false

namespace PublicPool.Proofs

open Lib (OrdMap Machine)

/-- A template and the window that its payouts are for. -/
structure TemplateWindow where
  blockHeight : ℤ
  coinbaseValueSats : ℤ
  window : PplnsWindow

section
variable (env : PayoutEnv) (config : PayoutConfig) (base : Database) (target : TemplateWindow)

/-- A call for a template that is to create a snapshot for a window. -/
structure CallFor (input : CreateSnapshotInput) : Prop where
  blockHeight : input.blockHeight = target.blockHeight
  coinbaseValueSats : input.coinbaseValueSats = target.coinbaseValueSats
  starts : (!config.snapshotsEnabled || decide (input.coinbaseValueSats ≤ 0)
    || decide (input.networkDifficulty ≤ 0)) = false
  window : getPplnsWindow base
    (input.networkDifficulty * getEffectiveWindowFactor config base) = some target.window
  worked : 0 < target.window.totalCreditedDifficulty

/-- What happens is that calls for the template are made and take their turns. -/
def OnlyCallsFor : PayoutInput → Prop
  | .createSnapshotForTemplate input => CallFor config base target input
  | .statement _ => True
  | _ => False

/-- The rows with the key of the template and window. -/
def keyRows (db : Database) : List SnapshotRow :=
  db.snapshots.filter fun row => row.hasKey config.method target.blockHeight
    target.coinbaseValueSats target.window.windowEndShareIndex

/-- What the constraints of the tables say of their rows. -/
structure SnapshotTables (db : Database) : Prop where
  ids : (db.snapshots.map (·.id)).Nodup
  ids_lt : ∀ row ∈ db.snapshots, row.id < db.nextSnapshotId
  references : ∀ entryRow ∈ db.snapshotEntries, entryRow.snapshotId < db.nextSnapshotId
  addresses : (db.snapshotEntries.map fun entryRow =>
    (entryRow.snapshotId, entryRow.entry.address)).Nodup
  keyed : (keyRows config target db).length ≤ 1

/-- All calls returned the snapshot of the one row for the template, which has one set of
entries. -/
structure OneSnapshot (db : Database) (history : List PayoutEvent) (row : SnapshotRow)
    (snapshot : PayoutSnapshotForTemplate) : Prop where
  only : keyRows config target db = [row]
  read : getSnapshotById db row.id = some snapshot
  entries : ((db.snapshotEntries.filter fun entryRow => entryRow.snapshotId = row.id).map
    (·.entry.address)).Nodup
  returned : ∀ event ∈ history, ∃ input, event = .created input (.snapshot snapshot)

/-- The distribution of the template. -/
def targetDistribution : Option (List PayoutDistributionEntry × ℕ) :=
  distributeTemplate env config target.coinbaseValueSats (getAddressWork base target.window)
    (getOpenBalances base)

/-- The distribution pays somebody, and has no address twice. -/
def Storable : Prop :=
  ∃ entries count, targetDistribution env config base target = some (entries, count) ∧
    (entries.map (·.address)).Nodup

/-- A call that has looked for a snapshot and found none. -/
def past : CreateStage → Bool
  | .readFactor | .readWindow _ | .readExisting _ => false
  | _ => true

/-- A call looks only while no other one is past its look, unless there is a snapshot. -/
def LooksAlone (world : PayoutWorld) (_ : List PayoutEvent) : PayoutInput → Prop
  | .statement id =>
    ∀ input window, world.calls id = some (.create input (.readExisting window)) →
      keyRows config target world.db ≠ [] ∨
        ∀ id' input' stage, world.calls id' = some (.create input' stage) → past stage = false
  | _ => True

/-! ### What a call has read -/

/-- What the stage of a call holds. -/
def StageFor : CreateStage → Prop
  | .readFactor => True
  | .readWindow effectiveWindowFactor =>
    effectiveWindowFactor = getEffectiveWindowFactor config base
  | .readExisting window | .readWork window => window = target.window
  | .readBalances window addressWork =>
    window = target.window ∧ addressWork = getAddressWork base target.window
  | .insertSnapshot window entries count =>
    window = target.window ∧ targetDistribution env config base target = some (entries, count)
  | .insertEntry row inserted pending =>
    row.hasKey config.method target.blockHeight target.coinbaseValueSats
        target.window.windowEndShareIndex = true ∧
      (∃ count, targetDistribution env config base target = some (inserted ++ pending, count)) ∧
      (inserted.map (·.address)).Nodup
  | .commit row entries =>
    row.hasKey config.method target.blockHeight target.coinbaseValueSats
        target.window.windowEndShareIndex = true ∧
      (∃ count, targetDistribution env config base target = some (entries, count)) ∧
      (entries.map (·.address)).Nodup

/-- The invariant of all runs for one template. -/
structure SameInv (world : PayoutWorld) : Prop where
  rollupBatches : world.db.rollupBatches = base.rollupBatches
  rollupSummaries : world.db.rollupSummaries = base.rollupSummaries
  ledger : world.db.ledger = base.ledger
  tables : SnapshotTables config target world.db
  calls : ∀ id call, world.calls id = some call → id < world.nextCall ∧ ∃ input stage,
    call = .create input stage ∧ CallFor config base target input ∧
      StageFor env config base target stage
  fresh : ∀ id input stage row, world.calls id = some (.create input stage) →
    insertedRow stage = some row → row.id < world.db.nextSnapshotId ∧
      (∀ other ∈ world.db.snapshots, other.id ≠ row.id) ∧
      (∀ entryRow ∈ world.db.snapshotEntries, entryRow.snapshotId ≠ row.id) ∧
      keyRows config target world.db = []
  one : ∀ id id' input input' stage stage', world.calls id = some (.create input stage) →
    world.calls id' = some (.create input' stage') → (insertedRow stage).isSome →
    (insertedRow stage').isSome → id = id'

/-- Whether another call has inserted its row. -/
def OtherInserted (world : PayoutWorld) (id : ℕ) : Prop :=
  ∃ id' input stage, id' ≠ id ∧ world.calls id' = some (.create input stage) ∧
    (insertedRow stage).isSome

/-- What a statement of a call does. -/
inductive Move (world : PayoutWorld) (id : ℕ) (input : CreateSnapshotInput) :
    CreateStage → StatementResult → Prop
  | reads {stage stage' : CreateStage} (before : past stage = false)
      (still : ∀ window, stage ≠ .readExisting window) (after : past stage' = false)
      (holds : StageFor env config base target stage') :
      Move world id input stage (.goesOn world.db (.create input stage'))
  | finds {window : PplnsWindow} {row : SnapshotRow} {snapshot : PayoutSnapshotForTemplate}
      (only : keyRows config target world.db = [row])
      (read : getSnapshotById world.db row.id = some snapshot) :
      Move world id input (.readExisting window)
        (.ends world.db (.created input (.snapshot snapshot)))
  | passes {window : PplnsWindow} {stage' : CreateStage}
      (none : keyRows config target world.db = [])
      (after : past stage' = true) (holds : StageFor env config base target stage')
      (free : insertedRow stage' = .none) :
      Move world id input (.readExisting window) (.goesOn world.db (.create input stage'))
  | computes {stage stage' : CreateStage} (before : past stage = true)
      (after : past stage' = true) (holds : StageFor env config base target stage')
      (free : insertedRow stage = none) (free' : insertedRow stage' = none) :
      Move world id input stage (.goesOn world.db (.create input stage'))
  | paysNobody {stage : CreateStage} (before : past stage = true)
      (none : targetDistribution env config base target = .none) :
      Move world id input stage (.ends world.db (.created input .none))
  | waits {stage : CreateStage} (before : past stage = true) (other : OtherInserted world id) :
      Move world id input stage .waits
  | conflicts {stage : CreateStage} (before : past stage = true)
      (taken : keyRows config target world.db ≠ []) :
      Move world id input stage
        (.ends { world.db with nextSnapshotId := world.db.nextSnapshotId + 1 }
          (.created input .failed))
  | inserts {stage : CreateStage} {row : SnapshotRow} {entries : List PayoutDistributionEntry}
      (before : past stage = true) (free : ¬ OtherInserted world id)
      (none : keyRows config target world.db = []) (rowId : row.id = world.db.nextSnapshotId)
      (holds : StageFor env config base target (.insertEntry row [] entries)) :
      Move world id input stage
        (.goesOn { world.db with nextSnapshotId := world.db.nextSnapshotId + 1 }
          (.create input (.insertEntry row [] entries)))
  | entry {stage stage' : CreateStage} {row : SnapshotRow} (before : insertedRow stage = some row)
      (after : insertedRow stage' = some row) (holds : StageFor env config base target stage') :
      Move world id input stage (.goesOn world.db (.create input stage'))
  | twice {stage : CreateStage} (before : past stage = true)
      (doubled : ¬ Storable env config base target) :
      Move world id input stage (.ends world.db (.created input .failed))
  | commits {row : SnapshotRow} {entries : List PayoutDistributionEntry}
      {snapshot : PayoutSnapshotForTemplate}
      (storable : Storable env config base target)
      (read : getSnapshotById (storeSnapshot world.db row entries) row.id = some snapshot) :
      Move world id input (.commit row entries)
        (.ends (storeSnapshot world.db row entries) (.created input (.snapshot snapshot)))

end

/-! ### Rows with the key -/

section
variable {env : PayoutEnv} {config : PayoutConfig} {base : Database} {target : TemplateWindow}
  {world : PayoutWorld}

variable {db : Database} {row : SnapshotRow} {input : CreateSnapshotInput} {id : ℕ}

/-- A row of the table is read by its id. -/
theorem getSnapshotById_of_mem (hrow : row ∈ db.snapshots) :
    ∃ snapshot, getSnapshotById db row.id = some snapshot := by
  have hfound : (db.snapshots.find? fun other => other.id = row.id).isSome := by
    rw [List.find?_isSome]
    exact ⟨row, hrow, decide_eq_true rfl⟩
  obtain ⟨found, hfind⟩ := Option.isSome_iff_exists.mp hfound
  exact ⟨_, by rw [getSnapshotById, hfind]; rfl⟩

/-- The look finds the row with the key. -/
theorem getExistingSnapshot_of_keyRows (hfor : CallFor config base target input)
    (htables : SnapshotTables config target db) :
    getExistingSnapshot config db input target.window.windowEndShareIndex
      = match keyRows config target db with
        | [] => none
        | row :: _ => getSnapshotById db row.id := by
  unfold getExistingSnapshot
  rw [hfor.blockHeight, hfor.coinbaseValueSats]
  have hkeyed := htables.keyed
  show (((keyRows config target db).map (·.id)).max?).bind _ = _
  match hrows : keyRows config target db with
  | [] => rfl
  | [row] => rfl
  | _ :: _ :: _ =>
    rw [hrows] at hkeyed
    simp at hkeyed

/-- Whether some row has the key. -/
theorem any_hasKey_iff (hfor : CallFor config base target input) :
    (db.snapshots.any (·.hasKey config.method input.blockHeight input.coinbaseValueSats
        target.window.windowEndShareIndex)) = true ↔ keyRows config target db ≠ [] := by
  rw [hfor.blockHeight, hfor.coinbaseValueSats, keyRows, Ne, List.filter_eq_nil_iff]
  simp

/-- Another call holds a row with the key when it has inserted one. -/
theorem otherCall_iff (h : SameInv env config base target world)
    (hfor : CallFor config base target input) :
    world.otherCall id (·.holdsSnapshot config.method input.blockHeight
        input.coinbaseValueSats target.window.windowEndShareIndex) = true ↔
      OtherInserted world id := by
  rw [hfor.blockHeight, hfor.coinbaseValueSats]
  unfold PayoutWorld.otherCall
  rw [List.any_eq_true]
  constructor
  · rintro ⟨id', -, hholds⟩
    obtain ⟨hne, hany⟩ := Bool.and_eq_true_iff.mp hholds
    obtain ⟨call, hcall, hholds⟩ := (Option.any_eq_true _ _).mp hany
    obtain ⟨-, input', stage, rfl, -, -⟩ := h.calls id' call hcall
    refine ⟨id', input', stage, of_decide_eq_true hne, hcall, ?_⟩
    cases stage <;> simp_all [PayoutCall.holdsSnapshot, insertedRow]
  · rintro ⟨id', input', stage, hne, hcall, hinserted⟩
    obtain ⟨hlt, _, _, heq, -, hstage⟩ := h.calls id' _ hcall
    cases heq
    refine ⟨id', List.mem_range.mpr hlt, ?_⟩
    rw [hcall, decide_eq_true hne]
    cases stage with
    | insertEntry row inserted pending => exact hstage.1
    | commit row entries => exact hstage.1
    | readFactor | readWindow | readExisting | readWork | readBalances | insertSnapshot =>
      simp [insertedRow] at hinserted

/-! ### One statement -/

/-- The rows with the key are among the rows. -/
theorem mem_of_keyRows (h : row ∈ keyRows config target db) : row ∈ db.snapshots :=
  (List.mem_filter.mp h).1

variable {stage : CreateStage} {db' : Database}

/-- Every statement of a call is one of the moves. -/
theorem move_statement (h : SameInv env config base target world)
    (hcall : world.calls id = some (.create input stage)) :
    Move env config base target world id input stage
      (createStatement env config world id input stage) := by
  obtain ⟨-, _, _, heq, hfor, hstage⟩ := h.calls id _ hcall
  cases heq
  cases stage with
  | readFactor =>
    refine .reads rfl (by simp) rfl ?_
    show getEffectiveWindowFactor config world.db = _
    rw [getEffectiveWindowFactor, getFinalizedPayoutBlockCount, h.ledger]
    rfl
  | readWindow effectiveWindowFactor =>
    have hwindow : getPplnsWindow world.db (input.networkDifficulty * effectiveWindowFactor)
        = some target.window := by
      rw [show effectiveWindowFactor = getEffectiveWindowFactor config base from hstage,
        ← hfor.window, getPplnsWindow, h.rollupBatches]
      rfl
    simp only [createStatement, hwindow]
    rw [if_neg (not_le.mpr hfor.worked)]
    exact .reads rfl (by simp) rfl rfl
  | readExisting window =>
    obtain rfl : window = target.window := hstage
    simp only [createStatement, getExistingSnapshot_of_keyRows hfor h.tables]
    cases hrows : keyRows config target world.db with
    | nil => exact .passes hrows rfl rfl rfl
    | cons row rest =>
      have hmem : row ∈ keyRows config target world.db := hrows ▸ List.mem_cons_self
      obtain ⟨snapshot, hread⟩ := getSnapshotById_of_mem (mem_of_keyRows hmem)
      have honly : rest = [] := by
        have hkeyed := h.tables.keyed
        rw [hrows, List.length_cons] at hkeyed
        exact List.length_eq_zero_iff.mp (by omega)
      rw [honly] at hrows
      simp only [hread]
      exact .finds hrows hread
  | readWork window =>
    obtain rfl : window = target.window := hstage
    refine .computes rfl rfl ⟨rfl, ?_⟩ rfl rfl
    rw [getAddressWork, h.rollupBatches, h.rollupSummaries]
    rfl
  | readBalances window addressWork =>
    obtain ⟨rfl, rfl⟩ := hstage
    have hbalances : getOpenBalances world.db = getOpenBalances base := by
      rw [getOpenBalances, h.ledger]
      rfl
    simp only [createStatement, hbalances, hfor.coinbaseValueSats]
    cases hdistribution : distributeTemplate env config target.coinbaseValueSats
        (getAddressWork base target.window) (getOpenBalances base) with
    | none => exact .paysNobody rfl hdistribution
    | some distributed => exact .computes rfl rfl ⟨rfl, hdistribution⟩ rfl rfl
  | insertSnapshot window entries count =>
    obtain ⟨rfl, hdistribution⟩ := hstage
    simp only [createStatement]
    split
    · rename_i hother
      exact .waits rfl ((otherCall_iff h hfor).mp hother)
    · rename_i hother
      have hfree : ¬ OtherInserted world id := fun hinserted =>
        hother ((otherCall_iff h hfor).mpr hinserted)
      split
      · rename_i htaken
        exact .conflicts rfl ((any_hasKey_iff hfor).mp htaken)
      · rename_i htaken
        have hnone : keyRows config target world.db = [] := by
          by_contra hrow
          exact htaken ((any_hasKey_iff hfor).mpr hrow)
        refine .inserts rfl hfree hnone rfl ⟨?_, ⟨count, hdistribution⟩, List.nodup_nil⟩
        simp [snapshotRowOf, SnapshotRow.hasKey, hfor.blockHeight, hfor.coinbaseValueSats]
  | insertEntry row inserted pending =>
    obtain ⟨hkey, ⟨count, hdistribution⟩, hnodup⟩ := hstage
    cases pending with
    | nil =>
      rw [List.append_nil] at hdistribution
      exact .entry rfl rfl ⟨hkey, ⟨count, hdistribution⟩, hnodup⟩
    | cons entry pending =>
      simp only [createStatement]
      split
      · rename_i hdoubled
        refine .twice rfl ?_
        rintro ⟨entries, count', hentries, hdistinct⟩
        rw [hdistribution] at hentries
        cases hentries
        rw [List.map_append, List.map_cons] at hdistinct
        exact (List.nodup_append.mp hdistinct).2.2 _ hdoubled _ List.mem_cons_self rfl
      · rename_i hdistinct
        refine .entry rfl rfl ⟨hkey, ⟨count, ?_⟩, ?_⟩
        · rw [List.append_assoc]
          exact hdistribution
        · rw [List.map_append, List.map_singleton]
          refine List.Nodup.append hnodup (List.nodup_singleton _) ?_
          exact List.disjoint_singleton.mpr hdistinct
  | commit row entries =>
    obtain ⟨hkey, ⟨count, hdistribution⟩, hnodup⟩ := hstage
    have hmem : row ∈ (storeSnapshot world.db row entries).snapshots :=
      List.mem_append_right _ (List.mem_singleton_self _)
    obtain ⟨snapshot, hread⟩ := getSnapshotById_of_mem hmem
    have hstatement : createStatement env config world id input (.commit row entries)
        = .ends (storeSnapshot world.db row entries) (.created input (.snapshot snapshot)) := by
      simp only [storeSnapshot] at hread
      simp only [createStatement, storeSnapshot, hread]
    rw [hstatement]
    exact .commits ⟨entries, count, hdistribution, hnodup⟩ hread

/-! ### The invariant -/

/-- The database but for the id sequence, which moves on. -/
structure RowsStay (db db' : Database) : Prop where
  rollupBatches : db'.rollupBatches = db.rollupBatches
  rollupSummaries : db'.rollupSummaries = db.rollupSummaries
  ledger : db'.ledger = db.ledger
  snapshots : db'.snapshots = db.snapshots
  snapshotEntries : db'.snapshotEntries = db.snapshotEntries
  nextSnapshotId : db.nextSnapshotId ≤ db'.nextSnapshotId

theorem RowsStay.refl (db : Database) : RowsStay db db := ⟨rfl, rfl, rfl, rfl, rfl, le_rfl⟩

theorem RowsStay.takesId (db : Database) :
    RowsStay db { db with nextSnapshotId := db.nextSnapshotId + 1 } :=
  ⟨rfl, rfl, rfl, rfl, rfl, Nat.le_succ _⟩

theorem RowsStay.keyRows (h : RowsStay db db') :
    keyRows config target db' = PublicPool.Proofs.keyRows config target db := by
  rw [PublicPool.Proofs.keyRows, h.snapshots]
  rfl

theorem RowsStay.tables (h : RowsStay db db') (htables : SnapshotTables config target db) :
    SnapshotTables config target db' where
  ids := by
    rw [h.snapshots]
    exact htables.ids
  ids_lt row hrow := by
    rw [h.snapshots] at hrow
    exact lt_of_lt_of_le (htables.ids_lt row hrow) h.nextSnapshotId
  references entryRow hentry := by
    rw [h.snapshotEntries] at hentry
    exact lt_of_lt_of_le (htables.references entryRow hentry) h.nextSnapshotId
  addresses := by
    rw [h.snapshotEntries]
    exact htables.addresses
  keyed := by
    rw [h.keyRows]
    exact htables.keyed

/-- The calls after one of them has gone on or ended. -/
theorem calls_setCall {id' : ℕ} {call : Option PayoutCall} {call' : PayoutCall}
    (h : (world.setCall id call).calls id' = some call') :
    (id' = id ∧ call = some call') ∨ (id' ≠ id ∧ world.calls id' = some call') := by
  by_cases hid : id' = id
  · subst hid
    left
    refine ⟨rfl, ?_⟩
    simpa [PayoutWorld.setCall] using h
  · right
    refine ⟨hid, ?_⟩
    simpa [PayoutWorld.setCall, Function.update_of_ne hid] using h

/-- A call ends, and the rows stay. -/
theorem SameInv.ends (h : SameInv env config base target world) (id : ℕ)
    (hdb : RowsStay world.db db) :
    SameInv env config base target { world.setCall id none with db := db } where
  rollupBatches := hdb.rollupBatches.trans h.rollupBatches
  rollupSummaries := hdb.rollupSummaries.trans h.rollupSummaries
  ledger := hdb.ledger.trans h.ledger
  tables := hdb.tables h.tables
  calls id' call hcall := by
    rcases calls_setCall hcall with ⟨-, hnone⟩ | ⟨-, hold⟩
    · cases hnone
    · exact h.calls id' call hold
  fresh id' input stage row hcall hrow := by
    rcases calls_setCall hcall with ⟨-, hnone⟩ | ⟨-, hold⟩
    · cases hnone
    · obtain ⟨hlt, hids, hrefs, hkey⟩ := h.fresh id' input stage row hold hrow
      refine ⟨lt_of_lt_of_le hlt hdb.nextSnapshotId, ?_, ?_, hdb.keyRows.trans hkey⟩
      · intro other hother
        exact hids other (hdb.snapshots ▸ hother)
      · intro entryRow hentry
        exact hrefs entryRow (hdb.snapshotEntries ▸ hentry)
  one id₁ id₂ input₁ input₂ stage₁ stage₂ hcall₁ hcall₂ hrow₁ hrow₂ := by
    rcases calls_setCall hcall₁ with ⟨-, hnone⟩ | ⟨-, hold₁⟩
    · cases hnone
    · rcases calls_setCall hcall₂ with ⟨-, hnone⟩ | ⟨-, hold₂⟩
      · cases hnone
      · exact h.one id₁ id₂ input₁ input₂ stage₁ stage₂ hold₁ hold₂ hrow₁ hrow₂

/-- A call goes on: it holds the row that it held, or inserts one that no other call can. -/
theorem SameInv.goesOn (h : SameInv env config base target world) {id : ℕ}
    {input : CreateSnapshotInput} {stage stage' : CreateStage} {db : Database}
    (hcall : world.calls id = some (.create input stage)) (hdb : RowsStay world.db db)
    (hstage : StageFor env config base target stage')
    (hrow : ∀ row, insertedRow stage' = some row → insertedRow stage = some row ∨
      (¬ OtherInserted world id ∧ keyRows config target world.db = [] ∧
        row.id = world.db.nextSnapshotId ∧ row.id < db.nextSnapshotId)) :
    SameInv env config base target
      { world.setCall id (some (.create input stage')) with db := db } := by
  obtain ⟨hlt, _, _, heq, hfor, -⟩ := h.calls id _ hcall
  cases heq
  have hold := h.ends id hdb
  constructor
  · exact hold.rollupBatches
  · exact hold.rollupSummaries
  · exact hold.ledger
  · exact hold.tables
  · intro id' call hcall'
    rcases calls_setCall hcall' with ⟨rfl, hnew⟩ | ⟨-, hbefore⟩
    · cases hnew
      exact ⟨hlt, input, stage', rfl, hfor, hstage⟩
    · exact h.calls id' call hbefore
  · intro id' input' stage'' row hcall' hinserted
    rcases calls_setCall hcall' with ⟨rfl, hnew⟩ | ⟨hne, hbefore⟩
    · cases hnew
      rcases hrow row hinserted with hheld | ⟨-, hnone, hid, hidlt⟩
      · obtain ⟨hlt, hids, hrefs, hkey⟩ := h.fresh id' input stage row hcall hheld
        refine ⟨lt_of_lt_of_le hlt hdb.nextSnapshotId, ?_, ?_, hdb.keyRows.trans hkey⟩
        · intro other hother
          exact hids other (hdb.snapshots ▸ hother)
        · intro entryRow hentry
          exact hrefs entryRow (hdb.snapshotEntries ▸ hentry)
      · -- the id comes from the sequence, and all ids so far are below it
        refine ⟨hidlt, ?_, ?_, hdb.keyRows.trans hnone⟩
        · intro other hother
          have hbelow := h.tables.ids_lt other (hdb.snapshots ▸ hother)
          omega
        · intro entryRow hentry
          have hbelow := h.tables.references entryRow (hdb.snapshotEntries ▸ hentry)
          omega
    · have hcalls : (world.setCall id none).calls id' = some (.create input' stage'') := by
        simpa [PayoutWorld.setCall, Function.update_of_ne hne] using hbefore
      exact hold.fresh id' input' stage'' row hcalls hinserted
  · -- of two calls with a row, neither is this one unless both are
    have hother : ∀ id' input' stage'', id' ≠ id → world.calls id' = some (.create input' stage'') →
        (insertedRow stage'').isSome → (insertedRow stage').isSome → False := by
      intro id' input' stage'' hne hbefore hinserted hnew
      obtain ⟨row, hsome⟩ := Option.isSome_iff_exists.mp hnew
      rcases hrow row hsome with hheld | ⟨hfree, -⟩
      · refine hne (h.one id' id input' input stage'' stage hbefore hcall hinserted ?_)
        rw [hheld]
        rfl
      · exact hfree ⟨id', input', stage'', hne, hbefore, hinserted⟩
    intro id₁ id₂ input₁ input₂ stage₁ stage₂ hcall₁ hcall₂ hrow₁ hrow₂
    rcases calls_setCall hcall₁ with ⟨rfl, hnew₁⟩ | ⟨hne₁, hbefore₁⟩
    · rcases calls_setCall hcall₂ with ⟨rfl, -⟩ | ⟨hne₂, hbefore₂⟩
      · rfl
      · cases hnew₁
        exact (hother id₂ input₂ stage₂ hne₂ hbefore₂ hrow₂ hrow₁).elim
    · rcases calls_setCall hcall₂ with ⟨rfl, hnew₂⟩ | ⟨-, hbefore₂⟩
      · cases hnew₂
        exact (hother id₁ input₁ stage₁ hne₁ hbefore₁ hrow₁ hrow₂).elim
      · exact h.one id₁ id₂ input₁ input₂ stage₁ stage₂ hbefore₁ hbefore₂ hrow₁ hrow₂

/-- A call commits its snapshot. -/
theorem SameInv.commits (h : SameInv env config base target world)
    {entries : List PayoutDistributionEntry}
    (hcall : world.calls id = some (.create input (.commit row entries))) :
    SameInv env config base target
        { world.setCall id none with db := storeSnapshot world.db row entries } ∧
      keyRows config target (storeSnapshot world.db row entries) = [row] := by
  obtain ⟨hlt, _, _, heq, hfor, hstage⟩ := h.calls id _ hcall
  cases heq
  obtain ⟨hkey, -, hdistinct⟩ := hstage
  obtain ⟨hidlt, hids, hrefs, hnone⟩ := h.fresh id input _ row hcall rfl
  have hrows : keyRows config target (storeSnapshot world.db row entries) = [row] := by
    show List.filter _ (world.db.snapshots ++ [row]) = [row]
    rw [List.filter_append, show List.filter _ world.db.snapshots = [] from hnone,
      List.filter_singleton, hkey]
    rfl
  refine ⟨?_, hrows⟩
  constructor
  · exact h.rollupBatches
  · exact h.rollupSummaries
  · exact h.ledger
  · constructor
    · show ((world.db.snapshots ++ [row]).map (·.id)).Nodup
      rw [List.map_append, List.map_singleton]
      refine List.Nodup.append h.tables.ids (List.nodup_singleton _) ?_
      rw [List.disjoint_singleton]
      rintro hmem
      obtain ⟨other, hother, hsame⟩ := List.mem_map.mp hmem
      exact hids other hother hsame
    · intro other hother
      rcases List.mem_append.mp hother with hold | hnew
      · exact h.tables.ids_lt other hold
      · rw [List.mem_singleton.mp hnew]
        exact hidlt
    · intro entryRow hentry
      rcases List.mem_append.mp hentry with hold | hnew
      · exact h.tables.references entryRow hold
      · obtain ⟨entry, -, rfl⟩ := List.mem_map.mp hnew
        exact hidlt
    · show ((world.db.snapshotEntries ++ entries.map fun entry =>
        SnapshotEntryRow.mk row.id entry).map _).Nodup
      rw [List.map_append, List.map_map]
      refine List.Nodup.append h.tables.addresses ?_ ?_
      · refine List.Nodup.of_map Prod.snd ?_
        rw [List.map_map]
        exact hdistinct
      · intro pair hold hnew
        obtain ⟨entryRow, hentry, rfl⟩ := List.mem_map.mp hold
        obtain ⟨entry, -, hsame⟩ := List.mem_map.mp hnew
        exact hrefs entryRow hentry (congrArg Prod.fst hsame).symm
    · rw [hrows]
      rfl
  · intro id' call hcall'
    rcases calls_setCall hcall' with ⟨-, hnew⟩ | ⟨-, hbefore⟩
    · cases hnew
    · exact h.calls id' call hbefore
  · -- no other call holds a row
    intro id' input' stage' other hcall' hinserted
    rcases calls_setCall hcall' with ⟨-, hnew⟩ | ⟨hne, hbefore⟩
    · cases hnew
    · refine absurd (h.one id' id input' input stage' _ hbefore hcall ?_ rfl) hne
      rw [hinserted]
      rfl
  · exact (h.ends id (.refl world.db)).one

/-- A call begins. -/
theorem SameInv.begin (h : SameInv env config base target world)
    (hfor : CallFor config base target input) :
    SameInv env config base target (world.begin (.create input .readFactor)) := by
  constructor
  · exact h.rollupBatches
  · exact h.rollupSummaries
  · exact h.ledger
  · exact h.tables
  · intro id call hcall
    rcases calls_setCall hcall with ⟨rfl, hnew⟩ | ⟨-, hbefore⟩
    · cases hnew
      exact ⟨Nat.lt_succ_self _, input, .readFactor, rfl, hfor, trivial⟩
    · obtain ⟨hlt, hcall⟩ := h.calls id call hbefore
      exact ⟨Nat.lt_succ_of_lt hlt, hcall⟩
  · intro id input' stage row hcall hrow
    rcases calls_setCall hcall with ⟨rfl, hnew⟩ | ⟨-, hbefore⟩
    · cases hnew
      cases hrow
    · exact h.fresh id input' stage row hbefore hrow
  · intro id₁ id₂ input₁ input₂ stage₁ stage₂ hcall₁ hcall₂ hrow₁ hrow₂
    rcases calls_setCall hcall₁ with ⟨rfl, hnew⟩ | ⟨-, hbefore₁⟩
    · cases hnew
      cases hrow₁
    · rcases calls_setCall hcall₂ with ⟨rfl, hnew⟩ | ⟨-, hbefore₂⟩
      · cases hnew
        cases hrow₂
      · exact h.one id₁ id₂ input₁ input₂ stage₁ stage₂ hbefore₁ hbefore₂ hrow₁ hrow₂

/-- What the result of a statement makes of the calls. -/
def applyResult (world : PayoutWorld) (id : ℕ) : StatementResult → PayoutWorld × List PayoutEvent
  | .waits => (world, [])
  | .goesOn db call => ({ world.setCall id (some call) with db }, [])
  | .ends db event => ({ world.setCall id none with db }, [event])

@[simp] theorem applyResult_nextCall (id : ℕ) (result : StatementResult) :
    (applyResult world id result).1.nextCall = world.nextCall := by
  cases result <;> rfl

theorem payoutStep_statement (hcall : world.calls id = some (.create input stage)) :
    payoutStep env config world (.statement id)
      = applyResult world id (createStatement env config world id input stage) := by
  simp only [payoutStep, hcall, PayoutCall.statement]
  cases createStatement env config world id input stage <;> rfl

theorem payoutStep_create (hfor : CallFor config base target input) :
    payoutStep env config world (.createSnapshotForTemplate input)
      = (world.begin (.create input .readFactor), []) := by
  simp only [payoutStep, PayoutWorld.beginCreate]
  rw [hfor.starts]
  rfl

/-- Every move keeps the invariant. -/
theorem SameInv.move (h : SameInv env config base target world) {id : ℕ}
    {input : CreateSnapshotInput} {stage : CreateStage} {result : StatementResult}
    (hcall : world.calls id = some (.create input stage))
    (hmove : Move env config base target world id input stage result) :
    SameInv env config base target (applyResult world id result).1 := by
  cases hmove with
  | reads before still after holds =>
    refine h.goesOn hcall (.refl _) holds fun row hrow => ?_
    rename_i stage'
    cases stage' <;> simp_all [past, insertedRow]
  | finds => exact h.ends id (.refl _)
  | passes none after holds free =>
    refine h.goesOn hcall (.refl _) holds fun row hrow => ?_
    rw [free] at hrow
    cases hrow
  | computes before after holds free free' =>
    refine h.goesOn hcall (.refl _) holds fun row hrow => ?_
    rw [free'] at hrow
    cases hrow
  | paysNobody => exact h.ends id (.refl _)
  | waits => exact h
  | conflicts => exact h.ends id (.takesId _)
  | inserts before free none rowId holds =>
    refine h.goesOn hcall (.takesId _) holds fun row hrow => .inr ⟨free, none, ?_, ?_⟩
    · cases hrow
      exact rowId
    · cases hrow
      show _ < world.db.nextSnapshotId + 1
      omega
  | entry before after holds =>
    refine h.goesOn hcall (.refl _) holds fun row hrow => .inl ?_
    rw [before, ← after, hrow]
  | twice => exact h.ends id (.refl _)
  | commits => exact (h.commits hcall).1

/-- The step of a run for one template: a call begins, there is no such call, or one of the moves. -/
theorem sameStep_cases (h : SameInv env config base target world) {input : PayoutInput}
    (honly : OnlyCallsFor config base target input) :
    (∃ create, input = .createSnapshotForTemplate create ∧ CallFor config base target create ∧
        payoutStep env config world input = (world.begin (.create create .readFactor), [])) ∨
      (∃ id, input = .statement id ∧ payoutStep env config world input = (world, [])) ∨
      ∃ id create stage result, input = .statement id ∧
        world.calls id = some (.create create stage) ∧
        Move env config base target world id create stage result ∧
        payoutStep env config world input = applyResult world id result := by
  cases input with
  | createSnapshotForTemplate create => exact .inl ⟨create, rfl, honly, payoutStep_create honly⟩
  | statement id =>
    right
    cases hcall : world.calls id with
    | none => exact .inl ⟨id, rfl, by simp only [payoutStep, hcall]⟩
    | some call =>
      obtain ⟨-, create, stage, rfl, -, -⟩ := h.calls id call hcall
      exact .inr ⟨id, create, stage, _, rfl, hcall, move_statement h hcall,
        payoutStep_statement hcall⟩
  | finalizeSnapshotForBlock | rollback | rollup => exact honly.elim

theorem SameInv.step (h : SameInv env config base target world) {input : PayoutInput}
    (honly : OnlyCallsFor config base target input) :
    SameInv env config base target (payoutStep env config world input).1 := by
  rcases sameStep_cases h honly with ⟨create, -, hfor, hstep⟩ | ⟨-, -, hstep⟩ |
    ⟨id, create, stage, result, -, hcall, hmove, hstep⟩
  · rw [hstep]
    exact h.begin hfor
  · rw [hstep]
    exact h
  · rw [hstep]
    exact h.move hcall hmove

end

end PublicPool.Proofs
