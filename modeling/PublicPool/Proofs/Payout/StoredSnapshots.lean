import PublicPool.Proofs.Payout.Remainder
import PublicPool.Proofs.Payout.Steps

/-!
# `PublicPool.Proofs.Payout.StoredSnapshots`: what is stored is what was distributed

A property of the entries of a distribution is one of the entries of every snapshot, if their order
does not matter to it: `StoredInv` follows it from the statement that reads the balances to the
commit. A snapshot that `createSnapshotForTemplate` returns is stored as it was returned, and it
stays so.
-/

set_option autoImplicit false

namespace PublicPool.Proofs

open Lib (OrdMap Machine)

/-- The recipient that a snapshot returns for an entry. -/
def recipientOf (coinbaseValueSats : ℤ) (entry : PayoutDistributionEntry) : AddressObject where
  address := entry.address
  percent := some (percentOfValue entry.payoutSats coinbaseValueSats)
  amountSats := some entry.payoutSats

section
variable (P : List PayoutDistributionEntry → ℤ → Prop)

/-- The order of the entries does not matter. -/
def KeepsOrder : Prop :=
  ∀ entries entries' coinbaseValueSats, P entries coinbaseValueSats → entries'.Perm entries →
    P entries' coinbaseValueSats

/-- What a creating call inserts has a property, and is for its coinbase value. -/
def StageHas (input : CreateSnapshotInput) : CreateStage → Prop
  | .insertSnapshot _ entries _ => P entries input.coinbaseValueSats
  | .insertEntry row inserted pending =>
    row.coinbaseValueSats = input.coinbaseValueSats ∧
      P (inserted ++ pending) input.coinbaseValueSats
  | .commit row entries =>
    row.coinbaseValueSats = input.coinbaseValueSats ∧ P entries input.coinbaseValueSats
  | _ => True

/-- The stored snapshots have ids of their own and entries with a property, and so will those under
way. A snapshot that was returned is stored as it was returned. -/
structure StoredInv (world : PayoutWorld) (history : List PayoutEvent) : Prop where
  create : CreateInv world
  distinct : (world.db.snapshots.map (·.id)).Nodup
  stored : ∀ row ∈ world.db.snapshots, P (world.db.entriesOf row.id) row.coinbaseValueSats
  pending : ∀ id input stage, world.calls id = some (.create input stage) →
    StageHas P input stage
  returned : ∀ input snapshot, .created input (.snapshot snapshot) ∈ history →
    getSnapshotById world.db snapshot.id = some snapshot ∧
      snapshot.coinbaseValueSats = input.coinbaseValueSats

/-- The distribution that a call comes to when it reads the balances has a property. -/
def Distributes (env : PayoutEnv) (config : PayoutConfig) (world : PayoutWorld)
    (input : PayoutInput) : Prop :=
  ∀ id create window addressWork entries consideredAddressCount, input = .statement id →
    world.calls id = some (.create create (.readBalances window addressWork)) →
    distributeTemplate env config create.coinbaseValueSats addressWork (getOpenBalances world.db)
      = some (entries, consideredAddressCount) → P entries create.coinbaseValueSats

end

section
variable {env : PayoutEnv} {config : PayoutConfig} {world : PayoutWorld}
  {history : List PayoutEvent} {P : List PayoutDistributionEntry → ℤ → Prop}

theorem storedInv_initial : StoredInv P .initial [] where
  create := by constructor <;> simp [PayoutWorld.initial]
  distinct := List.nodup_nil
  stored _ hrow := nomatch hrow
  pending _ _ _ hcall := nomatch hcall
  returned _ _ hevent := nomatch hevent

variable {db : Database} {id : ℕ} {snapshot : PayoutSnapshotForTemplate}
  {input : CreateSnapshotInput} {row : SnapshotRow}

/-- A snapshot is read as the first row with its id. -/
theorem getSnapshotById_eq_some (h : getSnapshotById db id = some snapshot) :
    ∃ row ∈ db.snapshots, row.id = id ∧ snapshot.id = id ∧
      snapshot.coinbaseValueSats = row.coinbaseValueSats ∧
      snapshot.payoutOutputs
        = (outputsOf (db.entriesOf id)).map (recipientOf row.coinbaseValueSats) := by
  obtain ⟨row, hfind, rfl⟩ := Option.map_eq_some_iff.mp h
  have hid : row.id = id := by simpa using List.find?_some hfind
  exact ⟨row, List.mem_of_find?_eq_some hfind, hid, hid, rfl, rfl⟩

/-- A stored snapshot stays as it is. -/
theorem Extends.getSnapshotById {db' : Database} (h : Extends db db')
    (hget : getSnapshotById db id = some snapshot) :
    PublicPool.getSnapshotById db' id = some snapshot := by
  obtain ⟨row, hfind, rfl⟩ := Option.map_eq_some_iff.mp hget
  have hentries : db'.entriesOf id = db.entriesOf id :=
    h.entries id ⟨row, List.mem_of_find?_eq_some hfind, by simpa using List.find?_some hfind⟩
  rw [PublicPool.getSnapshotById, h.snapshot id row hfind, hentries]
  rfl

/-- A step that stores no snapshot. -/
theorem StoredInv.keeps (h : StoredInv P world history) {world' : PayoutWorld}
    {events : List PayoutEvent} (hcreate : CreateInv world')
    (hsnapshots : world'.db.snapshots = world.db.snapshots)
    (hentries : world'.db.snapshotEntries = world.db.snapshotEntries)
    (hcalls : ∀ id input stage, world'.calls id = some (.create input stage) →
      world.calls id = some (.create input stage) ∨ StageHas P input stage)
    (hevents : ∀ input snapshot, .created input (.snapshot snapshot) ∈ events →
      getSnapshotById world.db snapshot.id = some snapshot ∧
        snapshot.coinbaseValueSats = input.coinbaseValueSats) :
    StoredInv P world' (history ++ events) where
  create := hcreate
  distinct := by
    rw [hsnapshots]
    exact h.distinct
  stored := by
    intro row hrow
    rw [hsnapshots] at hrow
    rw [Database.entriesOf, hentries]
    exact h.stored row hrow
  pending id input stage hcall := by
    rcases hcalls id input stage hcall with hold | hhas
    · exact h.pending id input stage hold
    · exact hhas
  returned input snapshot hevent := by
    have hextends : Extends world.db world'.db := .of_eq hsnapshots hentries
    rcases List.mem_append.mp hevent with hold | hnew
    · obtain ⟨hget, hvalue⟩ := h.returned input snapshot hold
      exact ⟨hextends.getSnapshotById hget, hvalue⟩
    · obtain ⟨hget, hvalue⟩ := hevents input snapshot hnew
      exact ⟨hextends.getSnapshotById hget, hvalue⟩

/-- The newest snapshot with the key of a template is one for its coinbase value. -/
theorem value_of_existing (h : StoredInv P world history) {windowEndShareIndex : ℕ}
    {existing : PayoutSnapshotForTemplate}
    (hexisting : getExistingSnapshot config world.db input windowEndShareIndex = some existing) :
    getSnapshotById world.db existing.id = some existing ∧
      existing.coinbaseValueSats = input.coinbaseValueSats := by
  obtain ⟨id, hmax, hget⟩ := Option.bind_eq_some_iff.mp hexisting
  obtain ⟨row, hrow, hid, hexistingId, hvalue, -⟩ := getSnapshotById_eq_some hget
  obtain ⟨candidate, hcandidate, hcandidateId⟩ := List.mem_map.mp (List.max?_mem hmax)
  obtain ⟨hmem, hkey⟩ := List.mem_filter.mp hcandidate
  -- there is one row with the id
  have hsame : candidate = row :=
    List.inj_on_of_nodup_map h.distinct hmem hrow (hcandidateId.trans hid.symm)
  rw [hexistingId]
  refine ⟨hget, ?_⟩
  rw [hvalue, ← hsame]
  simp only [SnapshotRow.hasKey, Bool.and_eq_true, decide_eq_true_eq] at hkey
  exact hkey.1.2

/-- The database once a snapshot is stored. -/
def storeSnapshot (db : Database) (row : SnapshotRow) (entries : List PayoutDistributionEntry) :
    Database :=
  { db with
    snapshots := db.snapshots ++ [row]
    snapshotEntries := db.snapshotEntries ++
      entries.map fun entry => { snapshotId := row.id, entry } }

/-- The entries of a snapshot that is new are those stored with it. -/
theorem entriesOf_storeSnapshot (h : CreateInv world)
    (hfresh : ∀ snapshot ∈ world.db.snapshots, snapshot.id ≠ row.id)
    (entries : List PayoutDistributionEntry) :
    ((storeSnapshot world.db row entries).entriesOf row.id).Perm entries := by
  have hold : world.db.snapshotEntries.filter
      (fun entryRow => decide (entryRow.snapshotId = row.id)) = [] := by
    rw [List.filter_eq_nil_iff]
    intro entryRow hmem hid
    obtain ⟨⟨snapshot, hsnapshot, hsnapshotId⟩, -⟩ := h.entries entryRow hmem
    exact hfresh snapshot hsnapshot (hsnapshotId.trans (of_decide_eq_true hid))
  have hnew : (entries.map fun entry => SnapshotEntryRow.mk row.id entry).filter
      (fun entryRow => decide (entryRow.snapshotId = row.id))
        = entries.map fun entry => SnapshotEntryRow.mk row.id entry := by
    rw [List.filter_eq_self]
    intro entryRow hmem
    obtain ⟨entry, -, rfl⟩ := List.mem_map.mp hmem
    exact decide_eq_true rfl
  refine (List.perm_insertionSort _ _).trans (List.Perm.of_eq ?_)
  show List.map _ (List.filter _ (_ ++ _)) = _
  rw [List.filter_append, hold, hnew, List.nil_append, List.map_map]
  exact List.map_id entries

/-- A snapshot whose entries have the property is stored. -/
theorem StoredInv.commitSnapshot (hperm : KeepsOrder P) (h : StoredInv P world history)
    {entries : List PayoutDistributionEntry}
    (hcall : world.calls id = some (.create input (.commit row entries)))
    {result : CreateSnapshotResult} (hresult : ∀ snapshot, result = .snapshot snapshot →
      getSnapshotById (storeSnapshot world.db row entries) row.id = some snapshot) :
    StoredInv P { world.setCall id none with db := storeSnapshot world.db row entries }
      (history ++ [.created input result]) := by
  obtain ⟨hvalue, hhas⟩ := h.pending id input _ hcall
  obtain ⟨-, hfresh⟩ := h.create.fresh id input _ hcall row rfl
  have hextends : Extends world.db (storeSnapshot world.db row entries) :=
    extends_commit hfresh entries
  have hstored : P ((storeSnapshot world.db row entries).entriesOf row.id)
      row.coinbaseValueSats := by
    rw [hvalue]
    exact hperm _ _ _ hhas (entriesOf_storeSnapshot h.create hfresh entries)
  refine ⟨h.create.commitSnapshot hcall, ?_, ?_, ?_, ?_⟩
  · show ((world.db.snapshots ++ [row]).map (·.id)).Nodup
    rw [List.map_append, List.map_singleton, List.nodup_append_comm, List.singleton_append,
      List.nodup_cons]
    refine ⟨fun hmem => ?_, h.distinct⟩
    obtain ⟨snapshot, hsnapshot, hid⟩ := List.mem_map.mp hmem
    exact hfresh snapshot hsnapshot hid
  · intro snapshot hsnapshot
    rcases List.mem_append.mp hsnapshot with hold | hlast
    · show P ((storeSnapshot world.db row entries).entriesOf snapshot.id) _
      rw [hextends.entries snapshot.id ⟨snapshot, hold, rfl⟩]
      exact h.stored snapshot hold
    · rw [List.mem_singleton.mp hlast]
      exact hstored
  · intro id' input' stage hcall'
    by_cases hid : id' = id
    · subst hid
      simp [PayoutWorld.setCall] at hcall'
    · simp only [PayoutWorld.setCall, Function.update_of_ne hid] at hcall'
      exact h.pending id' input' stage hcall'
  · intro input' snapshot hevent
    rcases List.mem_append.mp hevent with hold | hnew
    · obtain ⟨hget, hsats⟩ := h.returned input' snapshot hold
      exact ⟨hextends.getSnapshotById hget, hsats⟩
    · rw [List.mem_singleton] at hnew
      cases hnew
      have hget := hresult snapshot rfl
      obtain ⟨stored, hmem, hid, hsnapshotId, hsats, -⟩ := getSnapshotById_eq_some hget
      refine ⟨?_, ?_⟩
      · show getSnapshotById (storeSnapshot world.db row entries) snapshot.id = some snapshot
        rw [hsnapshotId]
        exact hget
      · -- the row with the id is the one that was stored
        rcases List.mem_append.mp hmem with hold | hlast
        · exact absurd hid (hfresh stored hold)
        · rw [hsats, List.mem_singleton.mp hlast]
          exact hvalue

/-- What a statement of a creating call comes to for the snapshots. -/
theorem createStatement_has (h : StoredInv P world history) {stage : CreateStage}
    (hcall : world.calls id = some (.create input stage))
    (hdistributes : Distributes P env config world (.statement id)) :
    match createStatement env config world id input stage with
    | .waits => True
    | .goesOn db call => db.snapshots = world.db.snapshots ∧
        db.snapshotEntries = world.db.snapshotEntries ∧
        ∃ stage', call = .create input stage' ∧ StageHas P input stage'
    | .ends db event => ∃ result, event = .created input result ∧
        ((db.snapshots = world.db.snapshots ∧ db.snapshotEntries = world.db.snapshotEntries ∧
            ∀ snapshot, result = .snapshot snapshot →
              getSnapshotById world.db snapshot.id = some snapshot ∧
                snapshot.coinbaseValueSats = input.coinbaseValueSats) ∨
          ∃ row entries, stage = .commit row entries ∧
            db = storeSnapshot world.db row entries ∧
            ∀ snapshot, result = .snapshot snapshot →
              getSnapshotById (storeSnapshot world.db row entries) row.id = some snapshot) := by
  have hpending := h.pending id input stage hcall
  cases stage with
  | readFactor => exact ⟨rfl, rfl, _, rfl, trivial⟩
  | readWindow effectiveWindowFactor =>
    simp only [createStatement]
    cases getPplnsWindow world.db (input.networkDifficulty * effectiveWindowFactor) with
    | none => exact ⟨_, rfl, Or.inl ⟨rfl, rfl, by rintro _ ⟨⟩⟩⟩
    | some window =>
      by_cases hnothing : window.totalCreditedDifficulty ≤ 0
      · simp only [if_pos hnothing]
        exact ⟨_, rfl, Or.inl ⟨trivial, trivial, by rintro _ ⟨⟩⟩⟩
      · simp only [if_neg hnothing]
        exact ⟨trivial, trivial, _, rfl, trivial⟩
  | readExisting window =>
    simp only [createStatement]
    cases hexisting : getExistingSnapshot config world.db input window.windowEndShareIndex with
    | none => exact ⟨rfl, rfl, _, rfl, trivial⟩
    | some existing =>
      refine ⟨_, rfl, Or.inl ⟨rfl, rfl, ?_⟩⟩
      rintro snapshot ⟨⟩
      exact value_of_existing h hexisting
  | readWork window => exact ⟨rfl, rfl, _, rfl, trivial⟩
  | readBalances window addressWork =>
    simp only [createStatement]
    cases hdistribute : distributeTemplate env config input.coinbaseValueSats addressWork
        (getOpenBalances world.db) with
    | none => exact ⟨_, rfl, Or.inl ⟨rfl, rfl, by rintro _ ⟨⟩⟩⟩
    | some distributed =>
      exact ⟨rfl, rfl, _, rfl, hdistributes id input window addressWork distributed.1 distributed.2
        rfl hcall hdistribute⟩
  | insertSnapshot window entries consideredAddressCount =>
    simp only [createStatement]
    by_cases hlocked : world.otherCall id (·.holdsSnapshot config.method input.blockHeight
        input.coinbaseValueSats window.windowEndShareIndex) = true
    · simp only [if_pos hlocked]
    · simp only [if_neg hlocked]
      by_cases hexists : world.db.snapshots.any (·.hasKey config.method input.blockHeight
          input.coinbaseValueSats window.windowEndShareIndex) = true
      · simp only [if_pos hexists]
        exact ⟨_, rfl, Or.inl ⟨trivial, trivial, by rintro _ ⟨⟩⟩⟩
      · simp only [if_neg hexists]
        exact ⟨trivial, trivial, _, rfl, rfl, hpending⟩
  | insertEntry row inserted pending =>
    obtain ⟨hvalue, hhas⟩ := hpending
    cases pending with
    | nil =>
      rw [List.append_nil] at hhas
      exact ⟨rfl, rfl, _, rfl, hvalue, hhas⟩
    | cons entry pending =>
      simp only [createStatement]
      by_cases hdouble : entry.address ∈ inserted.map (·.address)
      · simp only [if_pos hdouble]
        exact ⟨_, rfl, Or.inl ⟨trivial, trivial, by rintro _ ⟨⟩⟩⟩
      · simp only [if_neg hdouble]
        refine ⟨trivial, trivial, _, rfl, hvalue, ?_⟩
        rw [List.append_assoc]
        exact hhas
  | commit row entries =>
    simp only [createStatement, ← storeSnapshot.eq_def]
    cases hget : getSnapshotById (storeSnapshot world.db row entries) row.id with
    | none => exact ⟨_, rfl, Or.inr ⟨row, entries, rfl, rfl, by rintro _ ⟨⟩⟩⟩
    | some snapshot =>
      refine ⟨_, rfl, Or.inr ⟨row, entries, rfl, rfl, ?_⟩⟩
      rintro other ⟨⟩
      exact hget

/-- A step whose distribution has the property keeps the invariant. -/
theorem StoredInv.step (hperm : KeepsOrder P) (h : StoredInv P world history)
    {input : PayoutInput} (hdistributes : Distributes P env config world input) :
    StoredInv P (payoutStep env config world input).1
      (history ++ (payoutStep env config world input).2) := by
  obtain ⟨hcreate, -⟩ := @payoutStep_spec env config world h.create input
  -- a call that ends or goes on leaves the other calls as they were
  have hothers : ∀ {id : ℕ} {next : Option PayoutCall},
      (∀ input stage, next = some (.create input stage) → StageHas P input stage) →
      ∀ id' input stage, (world.setCall id next).calls id' = some (.create input stage) →
        world.calls id' = some (.create input stage) ∨ StageHas P input stage := by
    intro id next hnext id' input stage hcall'
    by_cases hid : id' = id
    · subst hid
      simp only [PayoutWorld.setCall, Function.update_self] at hcall'
      exact Or.inr (hnext input stage hcall')
    · simp only [PayoutWorld.setCall, Function.update_of_ne hid] at hcall'
      exact Or.inl hcall'
  have hquiet : ∀ events : List PayoutEvent, (∀ input snapshot,
      .created input (.snapshot snapshot) ∉ events) → StoredInv P world (history ++ events) := by
    intro events hevents
    exact h.keeps h.create rfl rfl (fun _ _ _ hcall => Or.inl hcall)
      fun input snapshot hevent => absurd hevent (hevents input snapshot)
  cases input with
  | createSnapshotForTemplate input =>
    simp only [payoutStep, PayoutWorld.beginCreate] at hcreate ⊢
    split at hcreate
    · rename_i hskip
      rw [if_pos hskip]
      exact hquiet _ (by simp)
    · rename_i hbegin
      rw [if_neg hbegin]
      refine h.keeps hcreate rfl rfl (hothers ?_) (by simp)
      rintro input' stage ⟨⟩
      trivial
  | finalizeSnapshotForBlock input =>
    simp only [payoutStep, PayoutWorld.beginFinalize] at hcreate ⊢
    split
    · exact hquiet _ (by simp)
    · split
      · exact hquiet _ (by simp)
      · split
        · exact hquiet _ (by simp)
        · rename_i henabled hmode hsuccess
          rw [if_neg henabled, if_neg hmode, if_neg hsuccess] at hcreate
          cases hid : input.payoutSnapshotId with
          | none => exact hquiet _ (by simp)
          | some payoutSnapshotId =>
            rw [hid] at hcreate
            exact h.keeps hcreate rfl rfl (hothers (by rintro _ _ ⟨⟩)) (by simp)
  | statement id =>
    simp only [payoutStep] at hcreate ⊢
    cases hcall : world.calls id with
    | none => exact hquiet _ (by simp)
    | some call =>
      rw [hcall] at hcreate
      cases call with
      | create input stage =>
        have hspec := createStatement_has h hcall hdistributes
        simp only [PayoutCall.statement] at hcreate ⊢
        cases hresult : createStatement env config world id input stage with
        | waits => exact hquiet _ (by simp)
        | goesOn db call =>
          rw [hresult] at hspec hcreate
          obtain ⟨hsnapshots, hentries, stage', rfl, hhas⟩ := hspec
          refine h.keeps hcreate hsnapshots hentries (hothers ?_) (by simp)
          rintro input' stage'' ⟨⟩
          exact hhas
        | ends db event =>
          rw [hresult] at hspec hcreate
          obtain ⟨result, rfl, ⟨hsnapshots, hentries, hreturned⟩ | ⟨row, entries, rfl, rfl,
            hstored⟩⟩ := hspec
          · refine h.keeps hcreate hsnapshots hentries (hothers (by rintro _ _ ⟨⟩)) ?_
            intro input' snapshot hevent
            rw [List.mem_singleton] at hevent
            cases hevent
            exact hreturned snapshot rfl
          · exact h.commitSnapshot hperm hcall hstored
      | finalize call =>
        have hspec := finalizeStatement_spec hcall
        simp only [PayoutCall.statement] at hcreate ⊢
        cases hresult : finalizeStatement world id call with
        | waits => exact hquiet _ (by simp)
        | goesOn db call' =>
          rw [hresult] at hspec hcreate
          obtain ⟨rfl, finalizing, rfl, -⟩ := hspec
          exact h.keeps hcreate rfl rfl (hothers (by rintro _ _ ⟨⟩)) (by simp)
        | ends db event =>
          rw [hresult] at hspec hcreate
          obtain ⟨⟨ledger, rfl⟩, ⟨result, rfl⟩, -⟩ := hspec
          exact h.keeps hcreate rfl rfl (hothers (by rintro _ _ ⟨⟩)) (by simp)
  | rollback id =>
    simp only [payoutStep] at hcreate ⊢
    cases hcall : world.calls id with
    | none => exact hquiet _ (by simp)
    | some call =>
      rw [hcall] at hcreate
      exact h.keeps hcreate rfl rfl (hothers (by rintro _ _ ⟨⟩)) (by simp)
  | rollup rollupBatches rollupSummaries =>
    exact h.keeps hcreate rfl rfl (fun _ _ _ hcall => Or.inl hcall)
      fun _ _ hevent => absurd hevent List.not_mem_nil

end

end PublicPool.Proofs
