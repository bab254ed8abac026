import PublicPool.ShareAccounting.Rollup

/-!
# `PublicPool.Proofs.Rollup`: every share is in one batch

A rollup goes on after the last index that a batch covers. A share whose transaction commits later,
with an index before that, is in no batch and never will be. The safety lag holds the cursor back
before the first share that is young, but it looks at the committed shares only. And a share that
commits between two statements of a rollup may be in the one and not in the other.

`rollups_complete` states when the rollups are complete. The condition is `CommitsAhead`: a
transaction commits no pplns share at an index that a batch or a rollup under way is through with.
Then every batch is the sum of its shares and of its summaries in every state, and when a rollup
finds no more shares while no insert is under way, every share is in exactly one batch.
`rollups_incomplete` has two runs in which a transaction is late.
-/

set_option autoImplicit false

namespace PublicPool.Proofs

open ShareAccounting
open Lib (Machine)

/-! ### Sums over groups -/

/-- A term at one key counts as often as the key occurs. -/
theorem sum_ite_count {κ M : Type*} [DecidableEq κ] [AddCommMonoid M] (keys : List κ) (k : κ)
    (m : M) : (keys.map fun k' => if k = k' then m else 0).sum = keys.count k • m := by
  induction keys with
  | nil => simp
  | cons k' keys ih =>
    rw [List.map_cons, List.sum_cons, ih, List.count_cons]
    by_cases hk : k = k'
    · subst hk
      simp [succ_nsmul']
    · simp [hk, Ne.symm hk]

/-- A sum over rows is the sum over their groups. The keys are any list without repetitions that
has those of the rows, and `p` selects some of the groups. -/
theorem sum_groups {α κ M : Type*} [DecidableEq κ] [AddCommMonoid M] (rows : List α) (key : α → κ)
    (g : α → M) (p : κ → Bool) {keys : List κ} (hnodup : keys.Nodup)
    (hkeys : ∀ row ∈ rows, key row ∈ keys) :
    ((keys.filter p).map fun k => ((rows.filter fun row => key row = k).map g).sum).sum
      = ((rows.filter fun row => p (key row)).map g).sum := by
  induction rows with
  | nil => simp
  | cons row rows ih =>
    obtain ⟨hrow, hrest⟩ := List.forall_mem_cons.mp hkeys
    -- the first row adds to one group
    have hsplit : ∀ k, (((row :: rows).filter fun r => key r = k).map g).sum
        = (if key row = k then g row else 0) + ((rows.filter fun r => key r = k).map g).sum := by
      intro k
      by_cases hk : key row = k
      · simp [hk]
      · simp [hk]
    have hcount : (keys.filter p).count (key row) = if p (key row) then 1 else 0 := by
      by_cases hp : p (key row) = true
      · rw [if_pos hp]
        exact List.count_eq_one_of_mem (hnodup.filter _) (List.mem_filter.mpr ⟨hrow, hp⟩)
      · rw [if_neg hp, List.count_eq_zero]
        intro hmem
        exact hp (List.mem_filter.mp hmem).2
    have hmap := List.map_congr_left fun k (_ : k ∈ keys.filter p) => hsplit k
    rw [hmap, List.sum_map_add, ih hrest, sum_ite_count, hcount, List.filter_cons]
    by_cases hp : p (key row) = true
    · rw [if_pos hp, if_pos hp, one_nsmul, List.map_cons, List.sum_cons]
    · rw [if_neg hp, if_neg hp, zero_nsmul, zero_add]

/-! ### Batches -/

/-- The shares in the range of a batch. -/
def sharesOf (shares : List AcceptedShareRow) (batch : RollupBatchRow) : List AcceptedShareRow :=
  sharesBetween shares batch.startShareIndex batch.endShareIndex

/-- The summaries of a batch. -/
def summariesFor (summaries : List RollupSummaryRow) (batchId : ℕ) : List RollupSummaryRow :=
  summaries.filter (·.batchId = batchId)

/-- A batch counts the shares in its range. -/
structure Counts (shares : List AcceptedShareRow) (batch : RollupBatchRow) : Prop where
  count : batch.acceptedShareCount = (sharesOf shares batch).length
  credited : batch.creditedDifficulty = creditedDifficultyOf (sharesOf shares batch)

/-- The summaries of a batch count its shares, address by address, and add up to the batch. -/
structure Summarizes (shares : List AcceptedShareRow) (summaries : List RollupSummaryRow)
    (batch : RollupBatchRow) : Prop where
  addressCount : ∀ address,
    (((summariesFor summaries batch.id).filter (·.address = address)).map
        (·.acceptedShareCount)).sum
      = ((sharesOf shares batch).filter (·.address = address)).length
  addressCredited : ∀ address,
    (((summariesFor summaries batch.id).filter (·.address = address)).map
        (·.creditedDifficulty)).sum
      = creditedDifficultyOf ((sharesOf shares batch).filter (·.address = address))
  count : ((summariesFor summaries batch.id).map (·.acceptedShareCount)).sum
    = batch.acceptedShareCount
  credited : ((summariesFor summaries batch.id).map (·.creditedDifficulty)).sum
    = batch.creditedDifficulty

/-- Every pplns share is in exactly one batch. -/
def CountedOnce (db : RollupDb) : Prop :=
  ∀ share ∈ db.shares, share.payoutMode = .pplns →
    (db.batches.filter fun batch => batch.startShareIndex ≤ share.shareIndex ∧
      share.shareIndex ≤ batch.endShareIndex).length = 1

/-- The batches are the sums of their shares, and of their summaries. -/
def BatchesExact (db : RollupDb) : Prop :=
  ∀ batch ∈ db.batches, Counts db.shares batch ∧ Summarizes db.shares db.summaries batch

/-- The summaries that a rollup inserts are those of its batch. -/
theorem summarizes_summariesOf {shares : List AcceptedShareRow} {batch : RollupBatchRow}
    (h : Counts shares batch) : Summarizes shares (summariesOf shares batch) batch := by
  have hall : summariesFor (summariesOf shares batch) batch.id = summariesOf shares batch := by
    rw [summariesFor, List.filter_eq_self]
    intro summary hmem
    obtain ⟨key, -, rfl⟩ := List.mem_map.mp hmem
    simp [summaryOf]
  have hkeys : ∀ share ∈ sharesOf shares batch,
      summaryKeyOf share ∈ ((sharesOf shares batch).map summaryKeyOf).dedup :=
    fun share hmem => List.mem_dedup.mpr (List.mem_map_of_mem hmem)
  have hcount : ∀ p : SummaryKey → Bool,
      (((((sharesOf shares batch).map summaryKeyOf).dedup.filter p).map fun key =>
        ((sharesOf shares batch).filter fun share => summaryKeyOf share = key).length)).sum
      = ((sharesOf shares batch).filter fun share => p (summaryKeyOf share)).length := by
    intro p
    have hsum := sum_groups (sharesOf shares batch) summaryKeyOf (fun _ => 1) p
      (List.nodup_dedup _) hkeys
    simpa using hsum
  have hcredited := fun p => sum_groups (sharesOf shares batch) summaryKeyOf
    (·.creditedDifficulty) p (List.nodup_dedup _) hkeys
  have haddress : ∀ address, (summariesOf shares batch).filter (·.address = address)
      = (((sharesOf shares batch).map summaryKeyOf).dedup.filter (·.address = address)).map
          fun key => summaryOf batch.id key
            ((sharesOf shares batch).filter fun share => summaryKeyOf share = key) := by
    intro address
    rw [summariesOf, List.filter_map]
    rfl
  refine ⟨?_, ?_, ?_, ?_⟩
  · intro address
    rw [hall, haddress, List.map_map]
    exact hcount (·.address = address)
  · intro address
    rw [hall, haddress, List.map_map]
    exact hcredited (·.address = address)
  · have hsum := hcount fun _ => true
    rw [List.filter_true, List.filter_true] at hsum
    rw [hall, h.count, summariesOf, List.map_map]
    exact hsum
  · have hsum := hcredited fun _ => true
    rw [List.filter_true, List.filter_true] at hsum
    rw [hall, h.credited, summariesOf, List.map_map]
    exact hsum

/-! ### The condition and the property -/

/-- Whether a share that commits now is still ahead of a rollup: after the range it is through with,
or inside a range whose statistics it has not read. -/
def AheadOf (share : AcceptedShareRow) : RollupStage → Prop
  | .tryLock | .readLast | .readRange _ => True
  | .readStats range => range.startShareIndex ≤ share.shareIndex
  | .insertBatch range _ => range.endShareIndex < share.shareIndex
  | .insertSummary batch | .commit batch _ => batch.endShareIndex < share.shareIndex

instance : ∀ share stage, Decidable (AheadOf share stage) := by
  intro share stage
  rcases stage with _ | _ <;> unfold AheadOf <;> infer_instance

/-- A transaction commits pplns shares ahead of the batches and of the rollups under way only. -/
def CommitsAhead (world : RollupWorld) (_ : List RollupEvent) : RollupInput → Prop
  | .commitInsert transaction =>
    ∀ share ∈ world.inserts transaction, share.payoutMode = .pplns →
      (∀ batch ∈ world.db.batches, batch.endShareIndex < share.shareIndex) ∧
        ∀ id ∈ List.range world.nextCall, ∀ call ∈ world.calls id, AheadOf share call.stage
  | _ => True

instance : ∀ world history input, Decidable (CommitsAhead world history input) := by
  intro world history input
  rcases input with _ | _ <;> unfold CommitsAhead <;> infer_instance

/-- A rollup finds no more shares: no insert is under way, and none of the shares that are left is
held back by the safety lag. -/
def NoMoreShares (config : RollupConfig) (world : RollupWorld) (input : RollupInput) : Prop :=
  .ended (.refused .noShares) ∈ (rollupStep config world input).2 ∧
    (∀ transaction, world.inserts transaction = []) ∧
    ∀ id call, input = .statement id → world.calls id = some call →
      ∀ share ∈ sharesAfter world.db.shares (lastProcessedShareIndex world.db.batches),
        isUnstable config call.now share = false

/-- When a rollup finds no more shares, every share is in exactly one batch. -/
def RollupsComplete (config : RollupConfig) (world : RollupWorld) (_ : List RollupEvent)
    (input : RollupInput) : Prop :=
  NoMoreShares config world input → CountedOnce world.db

/-! ### What the statements select -/

variable {config : RollupConfig} {db : RollupDb}

section
variable {shares : List AcceptedShareRow} {last : ℕ} {share : AcceptedShareRow}

theorem mem_sharesBetween {first : ℕ} :
    share ∈ sharesBetween shares first last ↔ share ∈ shares ∧ first ≤ share.shareIndex ∧
      share.shareIndex ≤ last ∧ share.payoutMode = .pplns := by
  simp [sharesBetween]

theorem mem_sharesAfter :
    share ∈ sharesAfter shares last ↔
      share ∈ shares ∧ last < share.shareIndex ∧ share.payoutMode = .pplns := by
  simp [sharesAfter]

end

/-- No batch ends after the last index. -/
theorem endShareIndex_le_last {batches : List RollupBatchRow} {batch : RollupBatchRow}
    (h : batch ∈ batches) : batch.endShareIndex ≤ lastProcessedShareIndex batches := by
  have hmem : batch.endShareIndex ∈ batches.map (·.endShareIndex) := List.mem_map_of_mem h
  unfold lastProcessedShareIndex
  cases hmax : (batches.map (·.endShareIndex)).max? with
  | none =>
    rw [List.max?_eq_none_iff] at hmax
    rw [hmax] at hmem
    cases hmem
  | some m => exact (List.max?_eq_some_iff.mp hmax).2 _ hmem

/-- The last index is the end of a batch, if there is one. -/
theorem last_eq_zero_or_mem (batches : List RollupBatchRow) :
    (batches = [] ∧ lastProcessedShareIndex batches = 0) ∨
      ∃ batch ∈ batches, batch.endShareIndex = lastProcessedShareIndex batches := by
  unfold lastProcessedShareIndex
  cases hmax : (batches.map (·.endShareIndex)).max? with
  | none =>
    rw [List.max?_eq_none_iff, List.map_eq_nil_iff] at hmax
    exact Or.inl ⟨hmax, rfl⟩
  | some m =>
    obtain ⟨batch, hbatch, heq⟩ := List.mem_map.mp (List.max?_eq_some_iff.mp hmax).1
    exact Or.inr ⟨batch, hbatch, heq⟩

/-- A range that is selected begins with a share after the last index and passes over none. -/
structure SelectedBatch (shares : List AcceptedShareRow) (last first stop : ℕ) : Prop where
  after : last < first
  begins : ∃ share ∈ shares, share.payoutMode = .pplns ∧ share.shareIndex = first
  ordered : first ≤ stop
  whole : ∀ share ∈ shares, share.payoutMode = .pplns → last < share.shareIndex →
    share.shareIndex ≤ stop → first ≤ share.shareIndex

section

variable {shares : List AcceptedShareRow} {now : ℤ} {last : ℕ}

theorem selected_of_selectRange {range : ShareRange}
    (h : selectRange config shares now last = some range) :
    SelectedBatch shares last range.startShareIndex range.endShareIndex := by
  simp only [selectRange] at h
  split at h
  · rename_i first stop hmin hmax
    cases h
    obtain ⟨hfirst, hleast⟩ := List.min?_eq_some_iff.mp hmin
    obtain ⟨hstop, hgreatest⟩ := List.max?_eq_some_iff.mp hmax
    have hordered : first ≤ stop := hgreatest first hfirst
    unfold boundedShareIndexes at hfirst hleast hstop
    split at hfirst
    · cases hfirst
    · rename_i maxStable hstable
      simp only [hstable] at hleast hstop
      -- the candidates in order, of which the first ones are taken
      generalize hsorted : (((sharesAfter shares last).map (·.shareIndex)).filter
        (· ≤ maxStable)).insertionSort (· ≤ ·) = sorted at hfirst hleast hstop
      have hcandidate : ∀ i, i ∈ sorted ↔
          (∃ share ∈ sharesAfter shares last, share.shareIndex = i) ∧ i ≤ maxStable := by
        intro i
        rw [← hsorted, List.mem_insertionSort]
        simp
      have horder : sorted.Pairwise (· ≤ ·) := by
        rw [← hsorted]
        exact List.pairwise_insertionSort _ _
      obtain ⟨⟨least, hmem, hindex⟩, -⟩ := (hcandidate _).mp (List.mem_of_mem_take hfirst)
      obtain ⟨hshares, hlt, hpplns⟩ := mem_sharesAfter.mp hmem
      refine ⟨?_, ⟨least, hshares, hpplns, hindex⟩, hordered, ?_⟩
      · show last < first
        omega
      · intro share hshare hmode hafter hle
        have hbelow := ((hcandidate _).mp (List.mem_of_mem_take hstop)).2
        have hmem : share.shareIndex ∈ sorted :=
          (hcandidate _).mpr ⟨⟨share, mem_sharesAfter.mpr ⟨hshare, hafter, hmode⟩, rfl⟩,
            le_trans hle hbelow⟩
        cases hlist : sorted with
        | nil =>
          rw [hlist] at hmem
          cases hmem
        | cons head rest =>
          rw [hlist] at hmem horder hleast
          have hhead : head ∈ (head :: rest).take config.shareRollupMaxSharesPerBatch := by
            obtain ⟨n, hn⟩ := Nat.exists_eq_succ_of_ne_zero config.maxShares_pos.ne'
            rw [hn]
            exact List.mem_cons_self
          rcases List.mem_cons.mp hmem with heq | hrest
          · rw [heq]
            exact hleast head hhead
          · exact le_trans (hleast head hhead) ((List.pairwise_cons.mp horder).1 _ hrest)
  · cases h

/-- Without young shares the range query finds nothing only where there is nothing. -/
theorem sharesAfter_eq_nil (h : selectRange config shares now last = none)
    (hstable : ∀ share ∈ sharesAfter shares last, isUnstable config now share = false) :
    sharesAfter shares last = [] := by
  have hyoung : firstUnstableShareIndex config shares now last = none := by
    have hnone : (sharesAfter shares last).filter (isUnstable config now) = [] := by
      rw [List.filter_eq_nil_iff]
      intro share hshare
      rw [hstable share hshare]
      exact Bool.false_ne_true
    rw [firstUnstableShareIndex, hnone]
    rfl
  have hempty : boundedShareIndexes config shares now last = [] := by
    simp only [selectRange] at h
    split at h
    · cases h
    · rename_i hno
      by_contra hne
      obtain ⟨first, hfirst⟩ := Option.isSome_iff_exists.mp (List.isSome_min?_of_ne_nil hne)
      obtain ⟨stop, hstop⟩ := Option.isSome_iff_exists.mp (List.isSome_max?_of_ne_nil hne)
      exact hno first stop hfirst hstop
  by_contra hne
  have hindexes : (sharesAfter shares last).map (·.shareIndex) ≠ [] := by
    rwa [ne_eq, List.map_eq_nil_iff]
  obtain ⟨stop, hstop⟩ := Option.isSome_iff_exists.mp (List.isSome_max?_of_ne_nil hindexes)
  have hlast := (List.max?_eq_some_iff.mp hstop).1
  simp only [boundedShareIndexes, maxStableShareIndex, hyoung, hstop] at hempty
  rw [List.take_eq_nil_iff] at hempty
  rcases hempty with hzero | hnone
  · exact absurd hzero config.maxShares_pos.ne'
  · have hmem : stop ∈ (((sharesAfter shares last).map (·.shareIndex)).filter
        (· ≤ stop)).insertionSort (· ≤ ·) := by
      rw [List.mem_insertionSort]
      exact List.mem_filter.mpr ⟨hlast, decide_eq_true le_rfl⟩
    rw [hnone] at hmem
    cases hmem

end

/-! ### Shares that commit outside a range -/

section

variable {shares more : List AcceptedShareRow}

theorem sharesBetween_append_of_outside {first last : ℕ}
    (h : ∀ share ∈ more, share.payoutMode = .pplns →
      share.shareIndex < first ∨ last < share.shareIndex) :
    sharesBetween (shares ++ more) first last = sharesBetween shares first last := by
  have hnone : sharesBetween more first last = [] := by
    rw [List.eq_nil_iff_forall_not_mem]
    intro share hmem
    obtain ⟨hshare, hfirst, hlast, hmode⟩ := mem_sharesBetween.mp hmem
    have hout := h share hshare hmode
    omega
  have hsplit : sharesBetween (shares ++ more) first last
      = sharesBetween shares first last ++ sharesBetween more first last :=
    List.filter_append ..
  rw [hsplit, hnone, List.append_nil]

variable {batch : RollupBatchRow}
  (h : ∀ share ∈ more, share.payoutMode = .pplns → batch.endShareIndex < share.shareIndex)
include h

theorem sharesOf_append : sharesOf (shares ++ more) batch = sharesOf shares batch :=
  sharesBetween_append_of_outside fun share hshare hmode => Or.inr (h share hshare hmode)

theorem Counts.append (hcounts : Counts shares batch) : Counts (shares ++ more) batch := by
  obtain ⟨hcount, hcredited⟩ := hcounts
  rw [← sharesOf_append h] at hcount hcredited
  exact ⟨hcount, hcredited⟩

theorem Summarizes.append {summaries : List RollupSummaryRow}
    (hsummarizes : Summarizes shares summaries batch) :
    Summarizes (shares ++ more) summaries batch := by
  obtain ⟨haddressCount, haddressCredited, hcount, hcredited⟩ := hsummarizes
  rw [← sharesOf_append h] at haddressCount haddressCredited
  exact ⟨haddressCount, haddressCredited, hcount, hcredited⟩

end

section
variable {summaries : List RollupSummaryRow} {batch : RollupBatchRow} {more : List AcceptedShareRow}

/-- The summaries of other batches change nothing. -/
theorem Summarizes.of_summariesFor {shares : List AcceptedShareRow}
    {summaries' : List RollupSummaryRow}
    (hsame : summariesFor summaries' batch.id = summariesFor summaries batch.id)
    (h : Summarizes shares summaries batch) : Summarizes shares summaries' batch := by
  obtain ⟨haddressCount, haddressCredited, hcount, hcredited⟩ := h
  rw [← hsame] at haddressCount haddressCredited hcount hcredited
  exact ⟨haddressCount, haddressCredited, hcount, hcredited⟩

/-! ### The invariant -/

/-- A batch that a rollup is about to insert: it begins after the others and counts its shares. -/
structure BatchAhead (db : RollupDb) (batch : RollupBatchRow) : Prop where
  selected : SelectedBatch db.shares (lastProcessedShareIndex db.batches) batch.startShareIndex
    batch.endShareIndex
  counts : Counts db.shares batch

/-- What a rollup knows at its stage. -/
def StageOk (db : RollupDb) : RollupStage → Prop
  | .tryLock | .readLast => True
  | .readRange last => last = lastProcessedShareIndex db.batches
  | .readStats range =>
    SelectedBatch db.shares (lastProcessedShareIndex db.batches) range.startShareIndex
      range.endShareIndex
  | .insertBatch range stats => ∀ id, BatchAhead db (batchOf id range stats)
  | .insertSummary batch => BatchAhead db batch
  | .commit batch summaries =>
    BatchAhead db batch ∧ Summarizes db.shares summaries batch ∧
      ∀ summary ∈ summaries, summary.batchId = batch.id

/-- The batch that a rollup has inserted and not committed. -/
def insertedBatch : RollupStage → Option RollupBatchRow
  | .insertSummary batch | .commit batch _ => some batch
  | _ => none

/-- The batches cover disjoint ranges, in order, and every share up to the last index. -/
structure BatchInv (db : RollupDb) : Prop where
  ordered : db.batches.Pairwise fun batch batch' => batch.endShareIndex < batch'.startShareIndex
  covered : ∀ share ∈ db.shares, share.payoutMode = .pplns →
    share.shareIndex ≤ lastProcessedShareIndex db.batches →
    ∃ batch ∈ db.batches, batch.startShareIndex ≤ share.shareIndex ∧
      share.shareIndex ≤ batch.endShareIndex
  summaries : ∀ summary ∈ db.summaries, ∃ batch ∈ db.batches, batch.id = summary.batchId
  exact : BatchesExact db

/-- The invariant of the rollups. Only the one that holds the lock is past its first statement. -/
structure RollupInv (world : RollupWorld) : Prop where
  batch : BatchInv world.db
  bounded : ∀ id call, world.calls id = some call → id < world.nextCall
  locked : ∀ id call, world.calls id = some call → call.stage = .tryLock ∨
    world.lockedBy = some id
  stages : ∀ id call, world.calls id = some call → StageOk world.db call.stage
  ids : ∀ batch ∈ world.db.batches, batch.id < world.nextBatchId
  fresh : ∀ id call, world.calls id = some call → ∀ batch ∈ insertedBatch call.stage,
    batch.id < world.nextBatchId ∧ ∀ other ∈ world.db.batches, other.id ≠ batch.id
  indexes : 0 < world.nextShareIndex
  inserted : ∀ transaction, ∀ share ∈ world.inserts transaction, 0 < share.shareIndex

theorem rollupInv_initial : RollupInv .initial where
  batch :=
    { ordered := List.Pairwise.nil
      covered := fun _ hmem => nomatch hmem
      summaries := fun _ hmem => nomatch hmem
      exact := fun _ hmem => nomatch hmem }
  bounded _ _ hcall := nomatch hcall
  locked _ _ hcall := nomatch hcall
  stages _ _ hcall := nomatch hcall
  ids _ hmem := nomatch hmem
  fresh _ _ hcall := nomatch hcall
  indexes := Nat.one_pos
  inserted _ _ hmem := nomatch hmem

/-- Ordered ranges have a share in one of them at most. -/
theorem BatchInv.countedOnce (h : BatchInv db)
    (hnone : sharesAfter db.shares (lastProcessedShareIndex db.batches) = []) :
    CountedOnce db := by
  intro share hshare hmode
  have hle : share.shareIndex ≤ lastProcessedShareIndex db.batches := by
    by_contra hgt
    have hmem : share ∈ sharesAfter db.shares (lastProcessedShareIndex db.batches) :=
      mem_sharesAfter.mpr ⟨hshare, by omega, hmode⟩
    rw [hnone] at hmem
    cases hmem
  obtain ⟨batch, hbatch, hfirst, hlast⟩ := h.covered share hshare hmode hle
  have hmem : batch ∈ db.batches.filter fun b => b.startShareIndex ≤ share.shareIndex ∧
      share.shareIndex ≤ b.endShareIndex :=
    List.mem_filter.mpr ⟨hbatch, decide_eq_true ⟨hfirst, hlast⟩⟩
  have hordered := h.ordered.filter fun b => decide (b.startShareIndex ≤ share.shareIndex ∧
    share.shareIndex ≤ b.endShareIndex)
  -- a second batch with the share would begin after the first one ends
  cases hlist : db.batches.filter fun b => b.startShareIndex ≤ share.shareIndex ∧
      share.shareIndex ≤ b.endShareIndex with
  | nil =>
    rw [hlist] at hmem
    cases hmem
  | cons first rest =>
    cases rest with
    | nil => rfl
    | cons second rest =>
      rw [hlist] at hordered
      have hlt := (List.pairwise_cons.mp hordered).1 second List.mem_cons_self
      have hcovers : ∀ b ∈ first :: second :: rest, b.startShareIndex ≤ share.shareIndex ∧
          share.shareIndex ≤ b.endShareIndex := by
        intro b hb
        rw [← hlist] at hb
        exact of_decide_eq_true (List.mem_filter.mp hb).2
      have hfirst' := hcovers first List.mem_cons_self
      have hsecond' := hcovers second (List.mem_cons_of_mem _ List.mem_cons_self)
      omega

/-- Shares that commit ahead of every batch and of a rollup change neither. -/
theorem StageOk.append {stage : RollupStage} (h : StageOk db stage)
    (hahead : ∀ share ∈ more, share.payoutMode = .pplns → AheadOf share stage) :
    StageOk { db with shares := db.shares ++ more } stage := by
  have hselected : ∀ {first stop : ℕ},
      SelectedBatch db.shares (lastProcessedShareIndex db.batches) first stop →
      (∀ share ∈ more, share.payoutMode = .pplns → share.shareIndex ≤ stop →
        first ≤ share.shareIndex) →
      SelectedBatch (db.shares ++ more) (lastProcessedShareIndex db.batches) first stop := by
    intro first stop hselected hmore
    obtain ⟨least, hleast, hbegins⟩ := hselected.begins
    refine ⟨hselected.after, ⟨least, List.mem_append_left _ hleast, hbegins⟩, hselected.ordered,
      ?_⟩
    intro share hshare hmode hafter hle
    rcases List.mem_append.mp hshare with hold | hnew
    · exact hselected.whole share hold hmode hafter hle
    · exact hmore share hnew hmode hle
  have hbatch : ∀ {batch : RollupBatchRow}, BatchAhead db batch →
      (∀ share ∈ more, share.payoutMode = .pplns → batch.endShareIndex < share.shareIndex) →
      BatchAhead { db with shares := db.shares ++ more } batch := by
    intro batch hold hmore
    refine ⟨hselected hold.selected ?_, hold.counts.append hmore⟩
    intro share hshare hmode hle
    have hlt := hmore share hshare hmode
    omega
  cases stage with
  | tryLock | readLast => trivial
  | readRange last => exact h
  | readStats range => exact hselected h fun share hshare hmode _ => hahead share hshare hmode
  | insertBatch range stats =>
    exact fun id => hbatch (h id) fun share hshare hmode => hahead share hshare hmode
  | insertSummary batch => exact hbatch h fun share hshare hmode => hahead share hshare hmode
  | commit batch summaries =>
    obtain ⟨hold, hsummarizes, hids⟩ := h
    have hmore : ∀ share ∈ more, share.payoutMode = .pplns →
        batch.endShareIndex < share.shareIndex :=
      fun share hshare hmode => hahead share hshare hmode
    exact ⟨hbatch hold hmore, hsummarizes.append hmore, hids⟩

theorem BatchInv.append (h : BatchInv db) (hahead : ∀ share ∈ more, share.payoutMode = .pplns →
      ∀ batch ∈ db.batches, batch.endShareIndex < share.shareIndex)
    (hpositive : ∀ share ∈ more, 0 < share.shareIndex) :
    BatchInv { db with shares := db.shares ++ more } where
  ordered := h.ordered
  covered share hshare hmode hle := by
    rcases List.mem_append.mp hshare with hold | hnew
    · exact h.covered share hold hmode hle
    · -- a new share is after the last index
      exfalso
      have hbelow : share.shareIndex ≤ lastProcessedShareIndex db.batches := hle
      rcases last_eq_zero_or_mem db.batches with ⟨-, hzero⟩ | ⟨batch, hbatch, heq⟩
      · have hpos := hpositive share hnew
        omega
      · have hlt := hahead share hnew hmode batch hbatch
        omega
  summaries := h.summaries
  exact batch hbatch := by
    obtain ⟨hcounts, hsummarizes⟩ := h.exact batch hbatch
    have hmore : ∀ share ∈ more, share.payoutMode = .pplns →
        batch.endShareIndex < share.shareIndex :=
      fun share hshare hmode => hahead share hshare hmode batch hbatch
    exact ⟨hcounts.append hmore, hsummarizes.append hmore⟩

/-- A batch after the others is committed. -/
theorem BatchInv.commit (h : BatchInv db) (hbatch : BatchAhead db batch)
    (hsummarizes : Summarizes db.shares summaries batch)
    (hids : ∀ summary ∈ summaries, summary.batchId = batch.id)
    (hfresh : ∀ other ∈ db.batches, other.id ≠ batch.id) :
    BatchInv
      { db with batches := db.batches ++ [batch], summaries := db.summaries ++ summaries } := by
  obtain ⟨⟨hafter, -, hordered, hwhole⟩, hcounts⟩ := hbatch
  have hlast : lastProcessedShareIndex (db.batches ++ [batch]) = batch.endShareIndex := by
    apply le_antisymm
    · rcases last_eq_zero_or_mem (db.batches ++ [batch]) with ⟨-, hzero⟩ | ⟨other, hother, heq⟩
      · omega
      · rw [← heq]
        rcases List.mem_append.mp hother with hold | hnew
        · have hle := endShareIndex_le_last hold
          omega
        · rw [List.mem_singleton.mp hnew]
    · exact endShareIndex_le_last (List.mem_append_right _ (List.mem_singleton_self batch))
  have hold : summariesFor db.summaries batch.id = [] := by
    rw [summariesFor, List.filter_eq_nil_iff]
    intro summary hmem
    obtain ⟨other, hother, hid⟩ := h.summaries summary hmem
    have hne := hfresh other hother
    simp only [decide_eq_true_eq]
    omega
  have hnew : ∀ other ∈ db.batches, summariesFor summaries other.id = [] := by
    intro other hother
    rw [summariesFor, List.filter_eq_nil_iff]
    intro summary hmem
    have hid := hids summary hmem
    have hne := hfresh other hother
    simp only [decide_eq_true_eq]
    omega
  have hsplit : ∀ id, summariesFor (db.summaries ++ summaries) id
      = summariesFor db.summaries id ++ summariesFor summaries id :=
    fun id => List.filter_append ..
  refine ⟨?_, ?_, ?_, ?_⟩
  · refine List.pairwise_append.mpr ⟨h.ordered, List.pairwise_singleton _ _, ?_⟩
    intro other hother last hmem
    rw [List.mem_singleton.mp hmem]
    have hle := endShareIndex_le_last hother
    omega
  · intro share hshare hmode hle
    by_cases hbefore : share.shareIndex ≤ lastProcessedShareIndex db.batches
    · obtain ⟨other, hother, hcovers⟩ := h.covered share hshare hmode hbefore
      exact ⟨other, List.mem_append_left _ hother, hcovers⟩
    · have hbelow : share.shareIndex ≤ batch.endShareIndex := hlast ▸ hle
      refine ⟨batch, List.mem_append_right _ (List.mem_singleton_self batch), ?_, hbelow⟩
      exact hwhole share hshare hmode (by omega) hbelow
  · intro summary hmem
    rcases List.mem_append.mp hmem with hbefore | hnow
    · obtain ⟨other, hother, hid⟩ := h.summaries summary hbefore
      exact ⟨other, List.mem_append_left _ hother, hid⟩
    · exact ⟨batch, List.mem_append_right _ (List.mem_singleton_self batch),
        (hids summary hnow).symm⟩
  · intro other hother
    rcases List.mem_append.mp hother with hbefore | hnow
    · obtain ⟨hother', hsummarizes'⟩ := h.exact other hbefore
      refine ⟨hother', hsummarizes'.of_summariesFor ?_⟩
      rw [hsplit, hnew other hbefore, List.append_nil]
    · rw [List.mem_singleton.mp hnow]
      refine ⟨hcounts, hsummarizes.of_summariesFor ?_⟩
      rw [hsplit, hold, List.nil_append]

end

/-! ### The steps -/

section

variable {world : RollupWorld} {id : ℕ} {call : RollupCall}

/-- While a rollup is past the lock the others are before it. -/
theorem RollupInv.alone (h : RollupInv world) (hcall : world.calls id = some call)
    (hpast : call.stage ≠ .tryLock) {id' : ℕ} {call' : RollupCall} (hne : id' ≠ id)
    (hcall' : world.calls id' = some call') : call'.stage = .tryLock := by
  have hlock := (h.locked id call hcall).resolve_left hpast
  rcases h.locked id' call' hcall' with hstage | hlock'
  · exact hstage
  · rw [hlock] at hlock'
    exact absurd (Option.some.inj hlock').symm hne

/-- A rollup that holds the lock goes on. -/
theorem RollupInv.setStage (h : RollupInv world) (hcall : world.calls id = some call)
    (hpast : call.stage ≠ .tryLock) {stage : RollupStage} (hok : StageOk world.db stage)
    (hfresh : ∀ batch ∈ insertedBatch stage, batch.id < world.nextBatchId ∧
      ∀ other ∈ world.db.batches, other.id ≠ batch.id) :
    RollupInv (world.setStage id call stage) := by
  have hcalls : ∀ id' call', (world.setStage id call stage).calls id' = some call' →
      (id' = id ∧ call'.stage = stage) ∨ world.calls id' = some call' := by
    intro id' call' hcall'
    by_cases hid : id' = id
    · subst hid
      simp only [RollupWorld.setStage, Function.update_self, Option.some.injEq] at hcall'
      exact Or.inl ⟨rfl, hcall' ▸ rfl⟩
    · simp only [RollupWorld.setStage, Function.update_of_ne hid] at hcall'
      exact Or.inr hcall'
  refine ⟨h.batch, ?_, ?_, ?_, h.ids, ?_, h.indexes, h.inserted⟩
  · intro id' call' hcall'
    rcases hcalls id' call' hcall' with ⟨rfl, -⟩ | hold
    · exact h.bounded id' call hcall
    · exact h.bounded id' call' hold
  · intro id' call' hcall'
    rcases hcalls id' call' hcall' with ⟨rfl, -⟩ | hold
    · exact Or.inr ((h.locked id' call hcall).resolve_left hpast)
    · exact h.locked id' call' hold
  · intro id' call' hcall'
    rcases hcalls id' call' hcall' with ⟨-, rfl⟩ | hold
    · exact hok
    · exact h.stages id' call' hold
  · intro id' call' hcall'
    rcases hcalls id' call' hcall' with ⟨-, rfl⟩ | hold
    · exact hfresh
    · exact h.fresh id' call' hold

/-- A rollup ends. -/
theorem RollupInv.endCall (h : RollupInv world) (id : ℕ) : RollupInv (world.endCall id) := by
  have hcalls : ∀ id' call', (world.endCall id).calls id' = some call' →
      id' ≠ id ∧ world.calls id' = some call' := by
    intro id' call' hcall'
    by_cases hid : id' = id
    · subst hid
      simp [RollupWorld.endCall] at hcall'
    · simp only [RollupWorld.endCall, Function.update_of_ne hid] at hcall'
      exact ⟨hid, hcall'⟩
  refine ⟨h.batch, ?_, ?_, ?_, h.ids, ?_, h.indexes, h.inserted⟩
  · intro id' call' hcall'
    exact h.bounded id' call' (hcalls id' call' hcall').2
  · intro id' call' hcall'
    obtain ⟨hne, hold⟩ := hcalls id' call' hcall'
    rcases h.locked id' call' hold with hstage | hlock
    · exact Or.inl hstage
    · right
      simp [RollupWorld.endCall, hlock, hne]
  · intro id' call' hcall'
    exact h.stages id' call' (hcalls id' call' hcall').2
  · intro id' call' hcall'
    exact h.fresh id' call' (hcalls id' call' hcall').2

/-- A rollup takes the lock, which nobody holds. -/
theorem RollupInv.lock (h : RollupInv world) (hcall : world.calls id = some call)
    (hfree : ¬ world.lockedBy.isSome = true) :
    RollupInv { world.setStage id call .readLast with lockedBy := some id } := by
  have hcalls : ∀ id' call', (world.setStage id call .readLast).calls id' = some call' →
      (id' = id ∧ call'.stage = .readLast) ∨ world.calls id' = some call' := by
    intro id' call' hcall'
    by_cases hid : id' = id
    · subst hid
      simp only [RollupWorld.setStage, Function.update_self, Option.some.injEq] at hcall'
      exact Or.inl ⟨rfl, hcall' ▸ rfl⟩
    · simp only [RollupWorld.setStage, Function.update_of_ne hid] at hcall'
      exact Or.inr hcall'
  refine ⟨h.batch, ?_, ?_, ?_, h.ids, ?_, h.indexes, h.inserted⟩
  · intro id' call' hcall'
    rcases hcalls id' call' hcall' with ⟨rfl, -⟩ | hold
    · exact h.bounded id' call hcall
    · exact h.bounded id' call' hold
  · intro id' call' hcall'
    rcases hcalls id' call' hcall' with ⟨rfl, -⟩ | hold
    · exact Or.inr rfl
    · rcases h.locked id' call' hold with hstage | hlock
      · exact Or.inl hstage
      · rw [hlock] at hfree
        exact absurd rfl hfree
  · intro id' call' hcall'
    rcases hcalls id' call' hcall' with ⟨-, hstage⟩ | hold
    · rw [hstage]
      trivial
    · exact h.stages id' call' hold
  · intro id' call' hcall'
    rcases hcalls id' call' hcall' with ⟨-, hstage⟩ | hold
    · rw [hstage]
      nofun
    · exact h.fresh id' call' hold

/-- The next batch id is taken, also by an insert that fails. -/
theorem RollupInv.takeBatchId (h : RollupInv world) :
    RollupInv { world with nextBatchId := world.nextBatchId + 1 } := by
  refine ⟨h.batch, h.bounded, h.locked, h.stages, ?_, ?_, h.indexes, h.inserted⟩
  · intro batch hbatch
    exact Nat.lt_succ_of_lt (h.ids batch hbatch)
  · intro id call hcall batch hbatch
    obtain ⟨hlt, hother⟩ := h.fresh id call hcall batch hbatch
    exact ⟨Nat.lt_succ_of_lt hlt, hother⟩

/-- A rollup commits its batch. -/
theorem RollupInv.commit (h : RollupInv world) (hcall : world.calls id = some call)
    {batch : RollupBatchRow} {summaries : List RollupSummaryRow}
    (hstage : call.stage = .commit batch summaries) :
    RollupInv
      { world.endCall id with
        db :=
          { world.db with
            batches := world.db.batches ++ [batch]
            summaries := world.db.summaries ++ summaries } } := by
  have hok := h.stages id call hcall
  obtain ⟨hlt, hother⟩ := h.fresh id call hcall batch (by rw [hstage]; rfl)
  rw [hstage] at hok
  obtain ⟨hahead, hsummarizes, hids⟩ := hok
  have hended := h.endCall id
  have hpast : call.stage ≠ .tryLock := by rw [hstage]; nofun
  -- the other rollups wait for the lock and know nothing of the batches
  have hwaits : ∀ id' call', (world.endCall id).calls id' = some call' →
      call'.stage = .tryLock := by
    intro id' call' hcall'
    by_cases hid : id' = id
    · subst hid
      simp [RollupWorld.endCall] at hcall'
    · simp only [RollupWorld.endCall, Function.update_of_ne hid] at hcall'
      exact h.alone hcall hpast hid hcall'
  refine ⟨h.batch.commit hahead hsummarizes hids hother, hended.bounded, hended.locked, ?_, ?_, ?_,
    h.indexes, h.inserted⟩
  · intro id' call' hcall'
    rw [hwaits id' call' hcall']
    trivial
  · intro other hmem
    rcases List.mem_append.mp hmem with hold | hnew
    · exact h.ids other hold
    · rw [List.mem_singleton.mp hnew]
      exact hlt
  · intro id' call' hcall'
    rw [hwaits id' call' hcall']
    nofun

variable {shares : List AcceptedShareRow} {range : ShareRange}

/-- The statistics of a selected range are there. -/
theorem selectStats_ne_none {last : ℕ}
    (h : SelectedBatch shares last range.startShareIndex range.endShareIndex) :
    selectStats shares range ≠ none := by
  obtain ⟨share, hshare, hmode, hindex⟩ := h.begins
  have hmem : share ∈ sharesBetween shares range.startShareIndex range.endShareIndex := by
    refine mem_sharesBetween.mpr ⟨hshare, by omega, ?_, hmode⟩
    have hordered := h.ordered
    omega
  have hne : (sharesBetween shares range.startShareIndex range.endShareIndex).map (·.acceptedAt)
      ≠ [] := by
    intro hnil
    rw [List.map_eq_nil_iff] at hnil
    rw [hnil] at hmem
    cases hmem
  intro hnone
  simp only [selectStats] at hnone
  split at hnone
  · cases hnone
  · rename_i hno
    obtain ⟨start, hstart⟩ := Option.isSome_iff_exists.mp (List.isSome_min?_of_ne_nil hne)
    obtain ⟨stop, hstop⟩ := Option.isSome_iff_exists.mp (List.isSome_max?_of_ne_nil hne)
    exact hno start stop hstart hstop

/-- The statistics count the shares in the range. -/
theorem counts_of_selectStats {stats : ShareStats} (h : selectStats shares range = some stats)
    (id : ℕ) : Counts shares (batchOf id range stats) := by
  simp only [selectStats] at h
  split at h
  · cases h
    exact ⟨rfl, rfl⟩
  · cases h

/-- A statement of a rollup keeps the invariant. When it finds no shares although none is young,
every share is in a batch. -/
theorem RollupInv.statement (h : RollupInv world) (hcall : world.calls id = some call) :
    RollupInv (rollupStatement config world id call).1 ∧
      (.ended (.refused .noShares) ∈ (rollupStatement config world id call).2 →
        (∀ share ∈ sharesAfter world.db.shares (lastProcessedShareIndex world.db.batches),
          isUnstable config call.now share = false) →
        CountedOnce world.db) := by
  have hok := h.stages id call hcall
  have hfresh := h.fresh id call hcall
  unfold rollupStatement
  cases hstage : call.stage with
  | tryLock =>
    simp only
    by_cases hlocked : world.lockedBy.isSome = true
    · simp only [if_pos hlocked]
      exact ⟨h.endCall id, by simp⟩
    · simp only [if_neg hlocked]
      exact ⟨h.lock hcall hlocked, nofun⟩
  | readLast =>
    have hpast : call.stage ≠ .tryLock := by rw [hstage]; nofun
    exact ⟨h.setStage hcall hpast rfl nofun, nofun⟩
  | readRange last =>
    have hpast : call.stage ≠ .tryLock := by rw [hstage]; nofun
    rw [hstage] at hok
    obtain rfl : last = lastProcessedShareIndex world.db.batches := hok
    simp only
    cases hrange : selectRange config world.db.shares call.now
        (lastProcessedShareIndex world.db.batches) with
    | none =>
      exact ⟨h.endCall id, fun _ hstable => h.batch.countedOnce
        (sharesAfter_eq_nil hrange hstable)⟩
    | some range =>
      exact ⟨h.setStage hcall hpast (selected_of_selectRange hrange) nofun, nofun⟩
  | readStats range =>
    have hpast : call.stage ≠ .tryLock := by rw [hstage]; nofun
    rw [hstage] at hok
    simp only
    cases hstats : selectStats world.db.shares range with
    | none => exact absurd hstats (selectStats_ne_none hok)
    | some stats =>
      refine ⟨h.setStage hcall hpast ?_ nofun, nofun⟩
      exact fun id => ⟨hok, counts_of_selectStats hstats id⟩
  | insertBatch range stats =>
    have hpast : call.stage ≠ .tryLock := by rw [hstage]; nofun
    rw [hstage] at hok
    have hnext := h.takeBatchId
    simp only
    split
    · exact ⟨hnext.endCall id, by simp⟩
    · refine ⟨hnext.setStage hcall hpast (hok world.nextBatchId) ?_, nofun⟩
      intro batch hbatch
      obtain rfl := Option.some.inj hbatch
      refine ⟨Nat.lt_succ_self _, fun other hother => ?_⟩
      have hlt := h.ids other hother
      exact hlt.ne
  | insertSummary batch =>
    have hpast : call.stage ≠ .tryLock := by rw [hstage]; nofun
    rw [hstage] at hok hfresh
    have hahead : BatchAhead world.db batch := hok
    refine ⟨h.setStage hcall hpast ⟨hahead, summarizes_summariesOf hahead.counts, ?_⟩ hfresh, nofun⟩
    intro summary hmem
    obtain ⟨key, -, rfl⟩ := List.mem_map.mp hmem
    rfl
  | commit batch summaries =>
    exact ⟨h.commit hcall hstage, by simp⟩

/-- Every step under the condition keeps the invariant, and finds no more shares only when every
share is in a batch. -/
theorem RollupInv.step (h : RollupInv world) {history : List RollupEvent} {input : RollupInput}
    (hahead : CommitsAhead world history input) :
    RollupsComplete config world history input ∧ RollupInv (rollupStep config world input).1 := by
  cases input with
  | insertShare transaction share =>
    refine ⟨(fun hdone => nomatch hdone.1), h.batch, h.bounded, h.locked, h.stages, h.ids, h.fresh,
      Nat.succ_pos _, ?_⟩
    intro transaction' row hmem
    by_cases htransaction : transaction' = transaction
    · subst htransaction
      simp only [rollupStep, Function.update_self] at hmem
      rcases List.mem_append.mp hmem with hold | hnew
      · exact h.inserted transaction' row hold
      · rw [List.mem_singleton.mp hnew]
        exact h.indexes
    · simp only [rollupStep, Function.update_of_ne htransaction] at hmem
      exact h.inserted transaction' row hmem
  | commitInsert transaction =>
    have hafter : ∀ share ∈ world.inserts transaction, share.payoutMode = .pplns →
        ∀ batch ∈ world.db.batches, batch.endShareIndex < share.shareIndex :=
      fun share hshare hmode => (hahead share hshare hmode).1
    refine ⟨(fun hdone => nomatch hdone.1), h.batch.append hafter (h.inserted transaction),
      h.bounded, h.locked, ?_, h.ids, h.fresh, h.indexes, ?_⟩
    · intro id call hcall
      refine (h.stages id call hcall).append fun share hshare hmode => ?_
      exact (hahead share hshare hmode).2 id (List.mem_range.mpr (h.bounded id call hcall)) call
        hcall
    · intro transaction' row hmem
      by_cases htransaction : transaction' = transaction
      · subst htransaction
        simp [rollupStep] at hmem
      · simp only [rollupStep, Function.update_of_ne htransaction] at hmem
        exact h.inserted transaction' row hmem
  | rollbackInsert transaction =>
    refine ⟨(fun hdone => nomatch hdone.1), h.batch, h.bounded, h.locked, h.stages, h.ids, h.fresh,
      h.indexes, ?_⟩
    intro transaction' row hmem
    by_cases htransaction : transaction' = transaction
    · subst htransaction
      simp [rollupStep] at hmem
    · simp only [rollupStep, Function.update_of_ne htransaction] at hmem
      exact h.inserted transaction' row hmem
  | processPendingShareRollupBatch now =>
    simp only [rollupStep]
    by_cases henabled : config.shareRollupEnabled = true
    · have hcalls : ∀ id call, Function.update world.calls world.nextCall
          (some { now, stage := .tryLock }) id = some call →
          (id = world.nextCall ∧ call.stage = .tryLock) ∨ world.calls id = some call := by
        intro id call hcall
        by_cases hid : id = world.nextCall
        · subst hid
          rw [Function.update_self] at hcall
          cases hcall
          exact Or.inl ⟨rfl, rfl⟩
        · rw [Function.update_of_ne hid] at hcall
          exact Or.inr hcall
      simp only [henabled, Bool.not_true, Bool.false_eq_true, if_false]
      refine ⟨?_, h.batch, ?_, ?_, ?_, h.ids, ?_, h.indexes, h.inserted⟩
      · intro hdone
        simp [NoMoreShares, rollupStep, henabled] at hdone
      · intro id call hcall
        rcases hcalls id call hcall with ⟨rfl, -⟩ | hold
        · exact Nat.lt_succ_self _
        · exact Nat.lt_succ_of_lt (h.bounded id call hold)
      · intro id call hcall
        rcases hcalls id call hcall with ⟨-, hstage⟩ | hold
        · exact Or.inl hstage
        · exact h.locked id call hold
      · intro id call hcall
        rcases hcalls id call hcall with ⟨-, hstage⟩ | hold
        · rw [hstage]
          trivial
        · exact h.stages id call hold
      · intro id call hcall
        rcases hcalls id call hcall with ⟨-, hstage⟩ | hold
        · rw [hstage]
          nofun
        · exact h.fresh id call hold
    · simp only [henabled, Bool.not_false, if_true]
      refine ⟨?_, h⟩
      intro hdone
      simp [NoMoreShares, rollupStep, henabled] at hdone
  | statement id =>
    cases hcall : world.calls id with
    | none =>
      simp only [rollupStep, hcall]
      exact ⟨fun hdone => by simp [NoMoreShares, rollupStep, hcall] at hdone, h⟩
    | some call =>
      obtain ⟨hinv, hall⟩ := @RollupInv.statement config world id call h hcall
      have hstep : rollupStep config world (.statement id) = rollupStatement config world id call :=
        by simp only [rollupStep, hcall]
      rw [hstep]
      refine ⟨?_, hinv⟩
      rintro ⟨hends, -, hstable⟩
      rw [hstep] at hends
      exact hall hends (hstable id call rfl hcall)
  | rollback id =>
    cases hcall : world.calls id with
    | none =>
      simp only [rollupStep, hcall]
      exact ⟨fun hdone => by simp [NoMoreShares, rollupStep, hcall] at hdone, h⟩
    | some call =>
      simp only [rollupStep, hcall]
      exact ⟨fun hdone => by simp [NoMoreShares, rollupStep, hcall] at hdone, h.endCall id⟩

end

/-! ### The result -/

/-- **The rollups are complete**, in every run in which no transaction commits shares that a batch or
a rollup under way is through with. Every batch is the sum of its shares and of its summaries in
every state, and when a rollup finds no more shares, every pplns share is in exactly one batch. -/
theorem rollups_complete (config : RollupConfig) (inputs : List RollupInput)
    (hahead : (rollupMachine config).Along CommitsAhead .initial [] inputs) :
    BatchesExact ((rollupMachine config).final .initial inputs).db ∧
      (rollupMachine config).Along (RollupsComplete config) .initial [] inputs := by
  have hstep : ∀ (world : RollupWorld) (history : List RollupEvent) (input : RollupInput),
      RollupInv world → CommitsAhead world history input →
      RollupsComplete config world history input ∧
        RollupInv ((rollupMachine config).step world input).1 :=
    fun world history input hinv hahead => hinv.step hahead
  have hend := (rollupMachine config).history_invariant
    (fun world history input hinv hahead => (hstep world history input hinv hahead).2)
    rollupInv_initial hahead
  exact ⟨hend.batch.exact, (rollupMachine config).along_of_invariant hstep rollupInv_initial hahead⟩

/-! ### Late transactions -/

def sampleRollups : RollupConfig where
  shareRollupEnabled := true
  shareRollupSafetyLagSeconds := 10
  shareRollupMaxSharesPerBatch := 5000000
  maxShares_pos := by decide

/-- A share with 8 units of work, accepted 100 seconds before the rollups. -/
def sampleAccepted (address : String) : AcceptedShare where
  payoutMode := .pplns
  protocol := .sv1
  address := address
  clientName := "worker"
  blockHeight := 5
  acceptedAt := 0
  creditedDifficulty := 8
  submissionDifficulty := 9

/-- Two shares are inserted by two transactions. -/
def sampleInserts : List RollupInput :=
  [.insertShare 0 (sampleAccepted "A"), .insertShare 1 (sampleAccepted "B")]

/-- A rollup takes its turns. -/
def sampleRollup (call turns : ℕ) : List RollupInput :=
  .processPendingShareRollupBatch 100000000 :: List.replicate turns (.statement call)

/-- Both transactions commit before the rollup. -/
def sampleInTime : List RollupInput :=
  sampleInserts ++ [.commitInsert 0, .commitInsert 1] ++ sampleRollup 0 7 ++ sampleRollup 1 3

theorem rollups_complete_sample :
    BatchesExact ((rollupMachine sampleRollups).final .initial sampleInTime).db ∧
      (rollupMachine sampleRollups).Along (RollupsComplete sampleRollups) .initial []
        sampleInTime :=
  rollups_complete sampleRollups sampleInTime (by decide +kernel)

/-- The first transaction commits after the rollup of the second one's share. -/
def sampleLate : List RollupInput :=
  sampleInserts ++ [.commitInsert 1] ++ sampleRollup 0 7 ++ [.commitInsert 0] ++ sampleRollup 1 2

/-- The first transaction commits between the two statements of a rollup that count the shares. -/
def sampleBetween : List RollupInput :=
  sampleInserts ++ [.insertShare 2 (sampleAccepted "C"), .commitInsert 0, .commitInsert 2] ++
    sampleRollup 0 4 ++ [.commitInsert 1] ++ List.replicate 3 (.statement 0)

theorem noMoreShares_sampleLate :
    NoMoreShares sampleRollups ((rollupMachine sampleRollups).final .initial sampleLate)
      (.statement 1) := by
  refine ⟨by decide +kernel, ?_, ?_⟩
  · intro transaction
    match transaction with
    | 0 => decide +kernel
    | 1 => decide +kernel
    | n + 2 => rfl
  · intro id call hinput hcall
    have hnone : sharesAfter ((rollupMachine sampleRollups).final .initial sampleLate).db.shares
        (lastProcessedShareIndex
          ((rollupMachine sampleRollups).final .initial sampleLate).db.batches) = [] := by
      decide +kernel
    rw [hnone]
    nofun

/-- After the late transaction a rollup finds no more shares, and the share is in no batch. In the
other run the batch counts two shares and its summaries three. -/
theorem rollups_incomplete :
    ¬ (rollupMachine sampleRollups).Along (RollupsComplete sampleRollups) .initial []
        (sampleLate ++ [.statement 1]) ∧
      ¬ BatchesExact ((rollupMachine sampleRollups).final .initial sampleBetween).db := by
  constructor
  · intro hcomplete
    obtain ⟨-, hlast, -⟩ := ((rollupMachine sampleRollups).along_append).mp hcomplete
    have hlost := hlast noMoreShares_sampleLate { sampleAccepted "A" with shareIndex := 1 }
      (by decide +kernel) rfl
    exact absurd hlost (by decide +kernel)
  · intro hexact
    obtain ⟨-, hsummarizes⟩ := hexact (batchOf 1 ⟨1, 3, 2⟩ ⟨0, 0, 2, 16⟩) (by decide +kernel)
    exact absurd hsummarizes.count (by decide +kernel)

end PublicPool.Proofs
