import PublicPool.Proofs.Rollup

/-!
# `PublicPool.Proofs.RollupRanges`: the batches cover disjoint ranges in increasing order

Whatever shares commit when, a rollup starts after the last index that a batch covers, and the
advisory lock keeps the others waiting until its batch is there. So the batches lie one after
the other, under ids of their own, in every run (`ProducedInv`). That they count all their shares
takes more, see `PublicPool.Proofs.Rollup`.

Shares with no negative difficulty give batches and summaries with no negative difficulty.
-/

set_option autoImplicit false

namespace PublicPool.Proofs

open ShareAccounting
open Lib (Machine)

/-- The batches lie one after the other, each with an id of its own. -/
structure RangesInOrder (batches : List RollupBatchRow) : Prop where
  ranges : ∀ batch ∈ batches, batch.startShareIndex ≤ batch.endShareIndex
  ordered : batches.Pairwise fun batch batch' => batch.endShareIndex < batch'.startShareIndex
  ids : (batches.map (·.id)).Nodup

/-- A share that adds no negative work. -/
def AddsNoNegative : RollupInput → Prop
  | .insertShare _ share => 0 ≤ share.creditedDifficulty
  | _ => True

instance (input : RollupInput) : Decidable (AddsNoNegative input) := by
  rcases input with ⟨_, _⟩ | _ | _ | _ | _ | _ <;> unfold AddsNoNegative <;> infer_instance

/-- A batch to come lies after the others. -/
structure ComesAfter (batches : List RollupBatchRow) (nextBatchId : ℕ) (batch : RollupBatchRow) :
    Prop where
  after : lastProcessedShareIndex batches < batch.startShareIndex
  range : batch.startShareIndex ≤ batch.endShareIndex
  credited : 0 ≤ batch.creditedDifficulty
  id : batch.id < nextBatchId ∧ ∀ other ∈ batches, other.id ≠ batch.id

/-- What a rollup knows of the batches at its stage. -/
def StageAfter (batches : List RollupBatchRow) (nextBatchId : ℕ) : RollupStage → Prop
  | .tryLock | .readLast => True
  | .readRange last => last = lastProcessedShareIndex batches
  | .readStats range =>
    lastProcessedShareIndex batches < range.startShareIndex ∧
      range.startShareIndex ≤ range.endShareIndex
  | .insertBatch range stats =>
    (lastProcessedShareIndex batches < range.startShareIndex ∧
      range.startShareIndex ≤ range.endShareIndex) ∧ 0 ≤ stats.creditedDifficulty
  | .insertSummary batch => ComesAfter batches nextBatchId batch
  | .commit batch summaries =>
    ComesAfter batches nextBatchId batch ∧ ∀ summary ∈ summaries, 0 ≤ summary.creditedDifficulty

/-- A rollup either waits for the lock or has it, and knows what its stage knows. -/
structure CallAfter (world : RollupWorld) (id : ℕ) (call : RollupCall) : Prop where
  locked : call.stage = .tryLock ∨ world.lockedBy = some id
  stage : StageAfter world.db.batches world.nextBatchId call.stage

/-- The tables have nothing negative, and the batches are in order. -/
structure TablesInOrder (world : RollupWorld) : Prop where
  batches : RangesInOrder world.db.batches
  ids : ∀ batch ∈ world.db.batches, batch.id < world.nextBatchId
  batchCredit : ∀ batch ∈ world.db.batches, 0 ≤ batch.creditedDifficulty
  summaryCredit : ∀ summary ∈ world.db.summaries, 0 ≤ summary.creditedDifficulty

/-- The invariant of the batches that rollups produce. -/
structure ProducedInv (world : RollupWorld) : Prop where
  tables : TablesInOrder world
  shares : ∀ share ∈ world.db.shares, 0 ≤ share.creditedDifficulty
  inserted : ∀ transaction, ∀ share ∈ world.inserts transaction, 0 ≤ share.creditedDifficulty
  calls : ∀ id call, world.calls id = some call → CallAfter world id call
  /-- No call has the next number. -/
  bounded : ∀ id call, world.calls id = some call → id < world.nextCall

theorem producedInv_initial : ProducedInv .initial where
  tables :=
    { batches := ⟨List.forall_mem_nil _, List.Pairwise.nil, List.nodup_nil⟩
      ids := List.forall_mem_nil _
      batchCredit := List.forall_mem_nil _
      summaryCredit := List.forall_mem_nil _ }
  shares := List.forall_mem_nil _
  inserted _ := List.forall_mem_nil _
  calls _ _ hcall := nomatch hcall
  bounded _ _ hcall := nomatch hcall

/-! ### The statistics -/

section
variable {shares : List AcceptedShareRow}

/-- The work of some shares is not negative. -/
theorem nonneg_creditedDifficultyOf (h : ∀ share ∈ shares, 0 ≤ share.creditedDifficulty) :
    0 ≤ creditedDifficultyOf shares := by
  refine List.sum_nonneg fun x hx => ?_
  obtain ⟨share, hshare, rfl⟩ := List.mem_map.mp hx
  exact h share hshare

theorem nonneg_of_selectStats {range : ShareRange} {stats : ShareStats}
    (hshares : ∀ share ∈ shares, 0 ≤ share.creditedDifficulty)
    (h : selectStats shares range = some stats) : 0 ≤ stats.creditedDifficulty := by
  have hcounts := (counts_of_selectStats h 0).credited
  have hsum : 0 ≤ creditedDifficultyOf (sharesOf shares (batchOf 0 range stats)) :=
    nonneg_creditedDifficultyOf fun share hshare => hshares share (mem_sharesBetween.mp hshare).1
  rwa [← hcounts] at hsum

theorem nonneg_summariesOf {batch : RollupBatchRow}
    (hshares : ∀ share ∈ shares, 0 ≤ share.creditedDifficulty) :
    ∀ summary ∈ summariesOf shares batch, 0 ≤ summary.creditedDifficulty := by
  intro summary hsummary
  obtain ⟨key, -, rfl⟩ := List.mem_map.mp hsummary
  exact nonneg_creditedDifficultyOf fun share hshare =>
    hshares share (mem_sharesBetween.mp (List.mem_filter.mp hshare).1).1

end

/-! ### The steps -/

section
variable {config : RollupConfig} {world : RollupWorld} {id : ℕ} {call : RollupCall}

/-- A rollup ends, and the others know what they knew. -/
theorem ProducedInv.endCall (h : ProducedInv world) (id : ℕ) : ProducedInv (world.endCall id) := by
  have hcalls : ∀ id' call', (world.endCall id).calls id' = some call' →
      id' ≠ id ∧ world.calls id' = some call' := by
    intro id' call' hcall'
    by_cases hid : id' = id
    · subst hid
      simp [RollupWorld.endCall] at hcall'
    · simp only [RollupWorld.endCall, Function.update_of_ne hid] at hcall'
      exact ⟨hid, hcall'⟩
  refine ⟨⟨h.tables.batches, h.tables.ids, h.tables.batchCredit, h.tables.summaryCredit⟩, h.shares,
    h.inserted, fun id' call' hcall' => ?_, fun id' call' hcall' => ?_⟩
  · obtain ⟨hne, hold⟩ := hcalls id' call' hcall'
    obtain ⟨hlocked, hstage⟩ := h.calls id' call' hold
    refine ⟨hlocked.imp_right fun hlock => ?_, hstage⟩
    simp [RollupWorld.endCall, hlock, hne]
  · exact h.bounded id' call' (hcalls id' call' hcall').2

variable {stage : RollupStage} {batches : List RollupBatchRow} {nextBatchId : ℕ}
  {batch : RollupBatchRow}

/-- A rollup goes on with the lock. -/
theorem ProducedInv.setStage (h : ProducedInv world) (hcall : world.calls id = some call)
    (hlock : world.lockedBy = some id)
    (hstage : StageAfter world.db.batches world.nextBatchId stage) :
    ProducedInv (world.setStage id call stage) := by
  refine ⟨⟨h.tables.batches, h.tables.ids, h.tables.batchCredit, h.tables.summaryCredit⟩, h.shares,
    h.inserted, fun id' call' hcall' => ?_, fun id' call' hcall' => ?_⟩
  · by_cases hid : id' = id
    · subst hid
      simp only [RollupWorld.setStage, Function.update_self, Option.some.injEq] at hcall'
      subst hcall'
      exact ⟨Or.inr hlock, hstage⟩
    · simp only [RollupWorld.setStage, Function.update_of_ne hid] at hcall'
      obtain ⟨hlocked, hknows⟩ := h.calls id' call' hcall'
      exact ⟨hlocked, hknows⟩
  · by_cases hid : id' = id
    · subst hid
      exact h.bounded id' call hcall
    · simp only [RollupWorld.setStage, Function.update_of_ne hid] at hcall'
      exact h.bounded id' call' hcall'

/-- A rollup takes the free lock. -/
theorem ProducedInv.lock (h : ProducedInv world) (hcall : world.calls id = some call)
    (hfree : ¬ world.lockedBy.isSome = true) :
    ProducedInv { world.setStage id call .readLast with lockedBy := some id } := by
  refine ⟨⟨h.tables.batches, h.tables.ids, h.tables.batchCredit, h.tables.summaryCredit⟩, h.shares,
    h.inserted, fun id' call' hcall' => ?_, fun id' call' hcall' => ?_⟩
  · by_cases hid : id' = id
    · subst hid
      simp only [RollupWorld.setStage, Function.update_self, Option.some.injEq] at hcall'
      subst hcall'
      exact ⟨Or.inr rfl, trivial⟩
    · simp only [RollupWorld.setStage, Function.update_of_ne hid] at hcall'
      obtain ⟨hlocked, hstage⟩ := h.calls id' call' hcall'
      refine ⟨hlocked.imp_right fun hlock => ?_, hstage⟩
      rw [hlock] at hfree
      exact absurd rfl hfree
  · by_cases hid : id' = id
    · subst hid
      exact h.bounded id' call hcall
    · simp only [RollupWorld.setStage, Function.update_of_ne hid] at hcall'
      exact h.bounded id' call' hcall'

theorem ComesAfter.succ (h : ComesAfter batches nextBatchId batch) :
    ComesAfter batches (nextBatchId + 1) batch :=
  ⟨h.after, h.range, h.credited, Nat.lt_succ_of_lt h.id.1, h.id.2⟩

theorem StageAfter.succ (h : StageAfter batches nextBatchId stage) :
    StageAfter batches (nextBatchId + 1) stage := by
  cases stage with
  | insertSummary batch => exact ComesAfter.succ h
  | commit batch summaries => exact ⟨h.1.succ, h.2⟩
  | _ => exact h

/-- The next batch id is taken. -/
theorem ProducedInv.takeBatchId (h : ProducedInv world) :
    ProducedInv { world with nextBatchId := world.nextBatchId + 1 } := by
  refine ⟨⟨h.tables.batches, fun batch hbatch => Nat.lt_succ_of_lt (h.tables.ids batch hbatch),
    h.tables.batchCredit, h.tables.summaryCredit⟩, h.shares, h.inserted, fun id call hcall => ?_,
    h.bounded⟩
  obtain ⟨hlocked, hstage⟩ := h.calls id call hcall
  exact ⟨hlocked, hstage.succ⟩

/-- A rollup that holds the lock commits its batch. -/
theorem ProducedInv.commit (h : ProducedInv world) (hlock : world.lockedBy = some id)
    {summaries : List RollupSummaryRow}
    (hbatch : ComesAfter world.db.batches world.nextBatchId batch)
    (hsummaries : ∀ summary ∈ summaries, 0 ≤ summary.creditedDifficulty) :
    ProducedInv
      { world.endCall id with
        db :=
          { world.db with
            batches := world.db.batches ++ [batch]
            summaries := world.db.summaries ++ summaries } } := by
  have hended := h.endCall id
  have hbatches := h.tables.batches
  refine ⟨⟨⟨?_, ?_, ?_⟩, ?_, ?_, ?_⟩, h.shares, h.inserted, fun id' call' hcall' => ?_,
    hended.bounded⟩
  · exact List.forall_mem_append.mpr
      ⟨hbatches.ranges, List.forall_mem_singleton.mpr hbatch.range⟩
  · refine List.pairwise_append.mpr ⟨hbatches.ordered, List.pairwise_singleton _ _, ?_⟩
    intro before hbefore after hafter
    rw [List.mem_singleton.mp hafter]
    exact lt_of_le_of_lt (endShareIndex_le_last hbefore) hbatch.after
  · rw [List.map_append, List.nodup_append]
    refine ⟨hbatches.ids, List.nodup_singleton _, ?_⟩
    intro old hold new hnew
    obtain ⟨other, hother, rfl⟩ := List.mem_map.mp hold
    rw [List.map_singleton, List.mem_singleton] at hnew
    rw [hnew]
    exact hbatch.id.2 other hother
  · exact List.forall_mem_append.mpr
      ⟨h.tables.ids, List.forall_mem_singleton.mpr hbatch.id.1⟩
  · exact List.forall_mem_append.mpr
      ⟨h.tables.batchCredit, List.forall_mem_singleton.mpr hbatch.credited⟩
  · exact List.forall_mem_append.mpr ⟨h.tables.summaryCredit, hsummaries⟩
  · -- the others wait for the lock and know nothing of the batches
    have hwaits : call'.stage = .tryLock := by
      by_cases hid : id' = id
      · subst hid
        simp [RollupWorld.endCall] at hcall'
      · simp only [RollupWorld.endCall, Function.update_of_ne hid] at hcall'
        refine (h.calls id' call' hcall').locked.resolve_right fun hlock' => ?_
        rw [hlock] at hlock'
        exact hid (Option.some.inj hlock').symm
    refine ⟨Or.inl hwaits, ?_⟩
    rw [hwaits]
    trivial

/-- A statement of a rollup keeps the batches in order. -/
theorem ProducedInv.statement (h : ProducedInv world) (hcall : world.calls id = some call) :
    ProducedInv (rollupStatement config world id call).1 := by
  obtain ⟨hlocked, hknows⟩ := h.calls id call hcall
  unfold rollupStatement
  cases hstage : call.stage with
  | tryLock =>
    simp only
    split
    · exact h.endCall id
    · rename_i hfree
      exact h.lock hcall hfree
  | readLast =>
    have hlock := hlocked.resolve_left (by rw [hstage]; nofun)
    exact h.setStage hcall hlock rfl
  | readRange last =>
    have hlock := hlocked.resolve_left (by rw [hstage]; nofun)
    rw [hstage] at hknows
    obtain rfl : last = lastProcessedShareIndex world.db.batches := hknows
    simp only
    split
    · exact h.endCall id
    · rename_i range hrange
      have hselected := selected_of_selectRange hrange
      exact h.setStage hcall hlock ⟨hselected.after, hselected.ordered⟩
  | readStats range =>
    have hlock := hlocked.resolve_left (by rw [hstage]; nofun)
    rw [hstage] at hknows
    simp only
    split
    · exact h.endCall id
    · rename_i stats hstats
      exact h.setStage hcall hlock ⟨hknows, nonneg_of_selectStats h.shares hstats⟩
  | insertBatch range stats =>
    have hlock := hlocked.resolve_left (by rw [hstage]; nofun)
    rw [hstage] at hknows
    obtain ⟨⟨hafter, hrange⟩, hcredited⟩ := hknows
    have hnext := h.takeBatchId
    simp only
    split
    · exact hnext.endCall id
    · refine hnext.setStage hcall hlock ⟨hafter, hrange, hcredited, Nat.lt_succ_self _, ?_⟩
      intro other hother
      exact (h.tables.ids other hother).ne
  | insertSummary batch =>
    have hlock := hlocked.resolve_left (by rw [hstage]; nofun)
    rw [hstage] at hknows
    exact h.setStage hcall hlock ⟨hknows, nonneg_summariesOf h.shares⟩
  | commit batch summaries =>
    have hlock := hlocked.resolve_left (by rw [hstage]; nofun)
    rw [hstage] at hknows
    exact h.commit hlock hknows.1 hknows.2

/-- So does every step that adds no negative work. -/
theorem ProducedInv.step (h : ProducedInv world) {input : RollupInput}
    (hcredits : AddsNoNegative input) :
    ProducedInv (rollupStep config world input).1 := by
  cases input with
  | insertShare transaction share =>
    refine ⟨⟨h.tables.batches, h.tables.ids, h.tables.batchCredit, h.tables.summaryCredit⟩,
      h.shares, fun transaction' => ?_, fun id call hcall => ?_, h.bounded⟩
    · by_cases htransaction : transaction' = transaction
      · subst htransaction
        simp only [rollupStep, Function.update_self]
        exact List.forall_mem_append.mpr
          ⟨h.inserted transaction', List.forall_mem_singleton.mpr hcredits⟩
      · simp only [rollupStep, Function.update_of_ne htransaction]
        exact h.inserted transaction'
    · obtain ⟨hlocked, hstage⟩ := h.calls id call hcall
      exact ⟨hlocked, hstage⟩
  | commitInsert transaction =>
    refine ⟨⟨h.tables.batches, h.tables.ids, h.tables.batchCredit, h.tables.summaryCredit⟩,
      List.forall_mem_append.mpr ⟨h.shares, h.inserted transaction⟩, fun transaction' => ?_,
      fun id call hcall => ?_, h.bounded⟩
    · by_cases htransaction : transaction' = transaction
      · subst htransaction
        simp [rollupStep]
      · simp only [rollupStep, Function.update_of_ne htransaction]
        exact h.inserted transaction'
    · obtain ⟨hlocked, hstage⟩ := h.calls id call hcall
      exact ⟨hlocked, hstage⟩
  | rollbackInsert transaction =>
    refine ⟨⟨h.tables.batches, h.tables.ids, h.tables.batchCredit, h.tables.summaryCredit⟩,
      h.shares, fun transaction' => ?_, fun id call hcall => ?_, h.bounded⟩
    · by_cases htransaction : transaction' = transaction
      · subst htransaction
        simp [rollupStep]
      · simp only [rollupStep, Function.update_of_ne htransaction]
        exact h.inserted transaction'
    · obtain ⟨hlocked, hstage⟩ := h.calls id call hcall
      exact ⟨hlocked, hstage⟩
  | processPendingShareRollupBatch now =>
    simp only [rollupStep]
    split
    · exact h
    · refine ⟨⟨h.tables.batches, h.tables.ids, h.tables.batchCredit, h.tables.summaryCredit⟩,
        h.shares, h.inserted, fun id call hcall => ?_, fun id call hcall => ?_⟩
      · by_cases hid : id = world.nextCall
        · subst hid
          simp only [Function.update_self, Option.some.injEq] at hcall
          subst hcall
          exact ⟨Or.inl rfl, trivial⟩
        · simp only [Function.update_of_ne hid] at hcall
          obtain ⟨hlocked, hstage⟩ := h.calls id call hcall
          exact ⟨hlocked, hstage⟩
      · by_cases hid : id = world.nextCall
        · subst hid
          exact Nat.lt_succ_self _
        · simp only [Function.update_of_ne hid] at hcall
          exact Nat.lt_succ_of_lt (h.bounded id call hcall)
  | statement id =>
    simp only [rollupStep]
    split
    · exact h
    · rename_i call hcall
      exact h.statement hcall
  | rollback id =>
    simp only [rollupStep]
    split
    · exact h
    · exact h.endCall id

end

/-- In every run without negative work the batches lie one after the other, and nothing in the
tables is negative. -/
theorem produced_in_order (config : RollupConfig) {inputs : List RollupInput}
    (hcredits : ∀ input ∈ inputs, AddsNoNegative input) :
    TablesInOrder ((rollupMachine config).final .initial inputs) := by
  have hend := @Machine.history_invariant _ _ _ (rollupMachine config)
    (fun world _ => ProducedInv world) (fun _ _ input => AddsNoNegative input)
    (fun _ _ _ hinv hinput => hinv.step hinput) .initial [] producedInv_initial inputs
    ((rollupMachine config).along_of_forall_mem hcredits .initial [])
  exact hend.tables

/-- Whether a batch covers a share. -/
def covers (shareIndex : ℕ) (batch : RollupBatchRow) : Bool :=
  batch.startShareIndex ≤ shareIndex ∧ shareIndex ≤ batch.endShareIndex

theorem RangesInOrder.countP_covers {batches : List RollupBatchRow} (h : RangesInOrder batches)
    (shareIndex : ℕ) : batches.countP (covers shareIndex) ≤ 1 := by
  have hordered := h.ordered
  clear h
  induction batches with
  | nil => exact Nat.zero_le 1
  | cons batch batches ih =>
    obtain ⟨hafter, hrest⟩ := List.pairwise_cons.mp hordered
    rw [List.countP_cons]
    split
    · rename_i hcovers
      -- the later batches start behind this one
      have hnone : batches.countP (covers shareIndex) = 0 := by
        rw [List.countP_eq_zero]
        intro other hother
        have hbehind := hafter other hother
        simp only [covers, decide_eq_true_eq] at hcovers ⊢
        omega
      rw [hnone]
    · exact ih hrest

/-- **No share is rolled up twice.** In every interleaving of the inserts and the rollups of all
processes, a share is in the range of one batch at most. -/
theorem rolled_up_at_most_once (config : RollupConfig) {inputs : List RollupInput}
    (hcredits : ∀ input ∈ inputs, AddsNoNegative input) (shareIndex : ℕ) :
    ((rollupMachine config).final .initial inputs).db.batches.countP (covers shareIndex) ≤ 1 :=
  (produced_in_order config hcredits).batches.countP_covers shareIndex

theorem rolled_up_at_most_once_sample :
    ((rollupMachine sampleRollups).final .initial sampleInTime).db.batches.countP (covers 2) ≤ 1 :=
  rolled_up_at_most_once sampleRollups (by decide +kernel) 2

end PublicPool.Proofs
