import PublicPool.Proofs.RollupRanges

/-!
# `PublicPool.Proofs.Payout.Window`: the share window holds the newest batches

`getPplnsWindow` adds up the batches from the newest to the oldest and takes those before which
the sum is below the target. `getAddressWork` does not get these batches. It gets the first and
the last index of the window, and takes the batches that end in between. As the batches lie one
after the other, these are the same: an older batch ends before the window starts.

`pplnsWindow_newest` says so for the batches of every run of the rollups whose summaries add up.
-/

set_option autoImplicit false

namespace PublicPool.Proofs

open ShareAccounting
open Lib (Machine OrdMap)

/-! ### What a window is to be -/

/-- The difficulty of some batches. -/
def batchDifficulty (batches : List ShareRollupBatch) : ℚ :=
  (batches.map (·.creditedDifficulty)).sum

/-- The shortest run of newest batches that reaches the target, or all batches if they do not. -/
structure NewestReaching (target : ℚ) (batches newest : List ShareRollupBatch) : Prop where
  suffix : newest <:+ batches
  reaches : target ≤ batchDifficulty batches → target ≤ batchDifficulty newest
  all : batchDifficulty batches < target → newest = batches
  shortest : ∀ other, other <:+ batches → target ≤ batchDifficulty other →
    newest.length ≤ other.length

/-- The work of an address. -/
def workAt (work : List PayoutAddressWork) (address : String) : ℚ :=
  ((work.filter (·.address = address)).map (·.creditedDifficulty)).sum

/-- A window over some batches. The work of the addresses is that of the same batches. -/
structure CoversWindow (db : Database) (window : PplnsWindow) (newest : List ShareRollupBatch) :
    Prop where
  difficulty : window.totalCreditedDifficulty = batchDifficulty newest
  count : window.totalAcceptedShareCount = (newest.map (·.acceptedShareCount)).sum
  batches : ∀ batch ∈ db.rollupBatches,
    window.windowStartShareIndex ≤ batch.endShareIndex ∧
        batch.endShareIndex ≤ window.windowEndShareIndex
      ↔ batch ∈ newest
  work : ∀ address, workAt (getAddressWork db window) address
    = ((db.rollupSummaries.filter fun summary =>
        summary.address = address ∧ summary.batchId ∈ newest.map (·.id)).map
          (·.creditedDifficulty)).sum
  credited : ((getAddressWork db window).map (·.creditedDifficulty)).sum
    = window.totalCreditedDifficulty

/-! ### The selection -/

/-- Once the target is reached no older batch is taken. -/
theorem selectWindowBatches_eq_nil {target difficultyAfter : ℚ} {batches : List ShareRollupBatch}
    (hcredit : ∀ batch ∈ batches, 0 ≤ batch.creditedDifficulty) (h : target ≤ difficultyAfter) :
    selectWindowBatches target difficultyAfter batches = [] := by
  induction batches generalizing difficultyAfter with
  | nil => rfl
  | cons batch older ih =>
    obtain ⟨hbatch, hrest⟩ := List.forall_mem_cons.mp hcredit
    have hnext : target ≤ difficultyAfter + batch.creditedDifficulty := by linarith
    rw [selectWindowBatches, if_neg (not_lt.mpr h)]
    exact ih hrest hnext

/-- The batches taken are the first ones, enough to reach the target, and no more than needed. -/
theorem selectWindowBatches_spec {target difficultyAfter : ℚ} {batches : List ShareRollupBatch}
    (hcredit : ∀ batch ∈ batches, 0 ≤ batch.creditedDifficulty) :
    ∃ older, batches = selectWindowBatches target difficultyAfter batches ++ older ∧
      (older ≠ [] →
        target ≤ difficultyAfter
          + batchDifficulty (selectWindowBatches target difficultyAfter batches)) ∧
      ∀ other, other <+: batches → target ≤ difficultyAfter + batchDifficulty other →
        (selectWindowBatches target difficultyAfter batches).length ≤ other.length := by
  induction batches generalizing difficultyAfter with
  | nil => exact ⟨[], rfl, fun h => absurd rfl h, fun other _ _ => Nat.zero_le _⟩
  | cons batch older ih =>
    obtain ⟨hbatch, hrest⟩ := List.forall_mem_cons.mp hcredit
    by_cases hlt : difficultyAfter < target
    · have hnext := @ih (difficultyAfter + batch.creditedDifficulty) hrest
      obtain ⟨rest, hsplit, hreaches, hshortest⟩ := hnext
      have hselect : selectWindowBatches target difficultyAfter (batch :: older)
          = batch :: selectWindowBatches target (difficultyAfter + batch.creditedDifficulty)
              older := by
        rw [selectWindowBatches, if_pos hlt]
      have hsum : ∀ l, difficultyAfter + batchDifficulty (batch :: l)
          = difficultyAfter + batch.creditedDifficulty + batchDifficulty l := by
        intro l
        rw [batchDifficulty, batchDifficulty, List.map_cons, List.sum_cons]
        ring
      rw [hselect]
      refine ⟨rest, congrArg (batch :: ·) hsplit, fun hne => ?_, fun other hother htarget => ?_⟩
      · rw [hsum]
        exact hreaches hne
      · cases other with
        | nil =>
          -- nothing at all does not reach the target
          simp only [batchDifficulty, List.map_nil, List.sum_nil, add_zero] at htarget
          exact absurd htarget (not_le.mpr hlt)
        | cons first other =>
          obtain ⟨rfl, hafter⟩ := List.cons_prefix_cons.mp hother
          rw [hsum] at htarget
          exact Nat.succ_le_succ (hshortest other hafter htarget)
    · have hreached : target ≤ difficultyAfter := not_lt.mp hlt
      rw [selectWindowBatches_eq_nil hcredit hreached]
      refine ⟨batch :: older, rfl, fun _ => ?_, fun other _ _ => Nat.zero_le _⟩
      simpa [batchDifficulty] using hreached

/-! ### Batches in order -/

/-- The finalized pplns batches of the rollups, oldest first: one after the other, with ids of
their own and nothing negative. -/
structure BatchesInOrder (batches : List ShareRollupBatch) : Prop where
  ranges : ∀ batch ∈ batches, batch.startShareIndex ≤ batch.endShareIndex
  ordered : batches.Pairwise fun batch batch' => batch.endShareIndex < batch'.startShareIndex
  ids : (batches.map (·.id)).Nodup
  credit : ∀ batch ∈ batches, 0 ≤ batch.creditedDifficulty

theorem TablesInOrder.batchesInOrder {world : RollupWorld} (h : TablesInOrder world) :
    BatchesInOrder (world.db.batches.map (·.toShareRollupBatch)) where
  ranges := List.forall_mem_map.mpr h.batches.ranges
  ordered := List.pairwise_map.mpr h.batches.ordered
  ids := by
    rw [List.map_map]
    exact h.batches.ids
  credit := List.forall_mem_map.mpr h.batchCredit

section
variable {batches : List ShareRollupBatch}

/-- The last indices increase. -/
theorem BatchesInOrder.ends (h : BatchesInOrder batches) :
    batches.Pairwise fun batch batch' => batch.endShareIndex < batch'.endShareIndex :=
  h.ordered.imp_of_mem fun _ hmem hlt => lt_of_lt_of_le hlt (h.ranges _ hmem)

/-- A batch is told by its last index. -/
theorem BatchesInOrder.eq_of_end (h : BatchesInOrder batches) {batch batch' : ShareRollupBatch}
    (hmem : batch ∈ batches) (hmem' : batch' ∈ batches)
    (heq : batch.endShareIndex = batch'.endShareIndex) : batch = batch' := by
  have hnodup : (batches.map (·.endShareIndex)).Nodup :=
    List.pairwise_map.mpr (h.ends.imp fun hlt => hlt.ne)
  exact List.inj_on_of_nodup_map hnodup hmem hmem' heq

/-- `ORDER BY "endShareIndex" DESC` puts the newest batch first, however the rows come. -/
theorem BatchesInOrder.sort_eq (h : BatchesInOrder batches) {rows : List ShareRollupBatch}
    (hrows : rows.Perm batches) :
    Js.sort (fun a b => (b.endShareIndex : ℚ) - a.endShareIndex) rows = batches.reverse := by
  have hsorted : (Js.sort (fun a b : ShareRollupBatch => (b.endShareIndex : ℚ) - a.endShareIndex)
      rows).Pairwise fun a b => b.endShareIndex ≤ a.endShareIndex := by
    refine Js.pairwise_sort (fun a _ b _ hle => ?_) (fun a _ b _ hlt => ?_)
      fun a _ b _ c _ hab hbc => hbc.trans hab
    · exact_mod_cast sub_nonpos.mp hle
    · have hlt : (a.endShareIndex : ℚ) < b.endShareIndex := sub_pos.mp (not_le.mp hlt)
      exact_mod_cast hlt.le
  have hreverse : batches.reverse.Pairwise fun a b => b.endShareIndex ≤ a.endShareIndex :=
    List.pairwise_reverse.mpr (h.ends.imp le_of_lt)
  refine List.Perm.eq_of_pairwise (fun a b ha hb hab hba => ?_) hsorted hreverse
    ((Js.sort_perm _ rows).trans (hrows.trans (List.reverse_perm batches).symm))
  have ha : a ∈ batches := hrows.mem_iff.mp (Js.mem_sort.mp ha)
  exact h.eq_of_end ha (List.mem_reverse.mp hb) (le_antisymm hba hab)

end

/-! ### The ends of the window -/

/-- A fold that keeps the better of two values ends with the best one. -/
theorem exists_foldl_eq {α : Type*} {op : ℕ → ℕ → ℕ} {better : ℕ → ℕ → Prop} (f : α → ℕ)
    (hop : ∀ n m, (op n m = n ∧ better n m) ∨ (op n m = m ∧ better m n))
    (hrefl : ∀ n, better n n) (htrans : ∀ a b c, better a b → better b c → better a c)
    (first : α) (rest : List α) :
    ∃ best ∈ first :: rest, rest.foldl (fun n x => op n (f x)) (f first) = f best ∧
      ∀ x ∈ first :: rest, better (f best) (f x) := by
  induction rest generalizing first with
  | nil => exact ⟨first, List.mem_singleton_self _, rfl, List.forall_mem_singleton.mpr (hrefl _)⟩
  | cons second rest ih =>
    rcases hop (f first) (f second) with ⟨heq, hbetter⟩ | ⟨heq, hbetter⟩
    · obtain ⟨best, hmem, hfold, hbest⟩ := ih first
      obtain ⟨hfirst, hrest⟩ := List.forall_mem_cons.mp hbest
      refine ⟨best, ?_, ?_, ?_⟩
      · rcases List.mem_cons.mp hmem with rfl | hmem
        · exact List.mem_cons_self
        · exact List.mem_cons_of_mem _ (List.mem_cons_of_mem _ hmem)
      · rw [List.foldl_cons, heq, hfold]
      · exact List.forall_mem_cons.mpr ⟨hfirst,
          List.forall_mem_cons.mpr ⟨htrans _ _ _ hfirst hbetter, hrest⟩⟩
    · obtain ⟨best, hmem, hfold, hbest⟩ := ih second
      obtain ⟨hsecond, -⟩ := List.forall_mem_cons.mp hbest
      refine ⟨best, List.mem_cons_of_mem _ hmem, ?_, ?_⟩
      · rw [List.foldl_cons, heq, hfold]
      · exact List.forall_mem_cons.mpr ⟨htrans _ _ _ hsecond hbetter, hbest⟩

theorem exists_foldl_min {α : Type*} (f : α → ℕ) (first : α) (rest : List α) :
    ∃ best ∈ first :: rest, rest.foldl (fun n x => min n (f x)) (f first) = f best ∧
      ∀ x ∈ first :: rest, f best ≤ f x := by
  refine exists_foldl_eq f (fun n m => ?_) le_refl (fun _ _ _ => le_trans) first rest
  rcases le_total n m with h | h
  · exact Or.inl ⟨min_eq_left h, h⟩
  · exact Or.inr ⟨min_eq_right h, h⟩

theorem exists_foldl_max {α : Type*} (f : α → ℕ) (first : α) (rest : List α) :
    ∃ best ∈ first :: rest, rest.foldl (fun n x => max n (f x)) (f first) = f best ∧
      ∀ x ∈ first :: rest, f x ≤ f best := by
  refine @exists_foldl_eq _ max (fun n m => m ≤ n) f (fun n m => ?_) le_refl
    (fun _ _ _ hab hbc => hbc.trans hab) first rest
  rcases le_total n m with h | h
  · exact Or.inr ⟨max_eq_right h, h⟩
  · exact Or.inl ⟨max_eq_left h, h⟩

/-! ### The work of the addresses -/

/-- The groups with one more summary. -/
def addSummary (groups : OrdMap String CreditedWork) (summary : ShareRollupSummary) :
    OrdMap String CreditedWork :=
  let existing := (groups.get? summary.address).getD ⟨0, 0⟩
  groups.set summary.address
    { creditedDifficulty := existing.creditedDifficulty + summary.creditedDifficulty
      acceptedShareCount := existing.acceptedShareCount + summary.acceptedShareCount }

/-- The rows of the groups with some work. -/
def rowsOfGroups (groups : OrdMap String CreditedWork) : List PayoutAddressWork :=
  (groups.entries.filter fun group => 0 < group.2.creditedDifficulty).map fun group =>
    { address := group.1
      creditedDifficulty := group.2.creditedDifficulty
      acceptedShareCount := group.2.acceptedShareCount }

/-- A summary of a batch that ends in the window. -/
def inWindow (db : Database) (window : PplnsWindow) (summary : ShareRollupSummary) : Bool :=
  db.rollupBatches.any fun batch =>
    decide (batch.id = summary.batchId ∧ window.windowStartShareIndex ≤ batch.endShareIndex ∧
      batch.endShareIndex ≤ window.windowEndShareIndex)

theorem getAddressWork_eq (db : Database) (window : PplnsWindow) :
    getAddressWork db window
      = rowsOfGroups ((db.rollupSummaries.filter (inWindow db window)).foldl addSummary .empty) :=
  rfl

/-- The work of a group. -/
def creditAt (groups : OrdMap String CreditedWork) (address : String) : ℚ :=
  ((groups.get? address).getD ⟨0, 0⟩).creditedDifficulty

theorem creditAt_addSummary (groups : OrdMap String CreditedWork) (summary : ShareRollupSummary)
    (address : String) :
    creditAt (addSummary groups summary) address
      = creditAt groups address
        + if summary.address = address then summary.creditedDifficulty else 0 := by
  unfold creditAt addSummary
  rw [OrdMap.get?_set]
  by_cases h : summary.address = address
  · subst h
    simp
  · simp [h, Ne.symm h]

/-- The groups of some summaries have the work of their summaries. -/
theorem creditAt_foldl (groups : OrdMap String CreditedWork) (summaries : List ShareRollupSummary)
    (address : String) :
    creditAt (summaries.foldl addSummary groups) address
      = creditAt groups address
        + ((summaries.filter (·.address = address)).map (·.creditedDifficulty)).sum := by
  induction summaries generalizing groups with
  | nil => simp
  | cons summary summaries ih =>
    rw [List.foldl_cons, ih, creditAt_addSummary, add_assoc]
    by_cases h : summary.address = address
    · simp [h]
    · simp [h]

section
variable {groups : OrdMap String CreditedWork}

theorem mem_keys_foldl_addSummary {summaries : List ShareRollupSummary} {address : String} :
    address ∈ (summaries.foldl addSummary groups).keys
      ↔ address ∈ groups.keys ∨ ∃ summary ∈ summaries, summary.address = address := by
  induction summaries generalizing groups with
  | nil => simp
  | cons summary summaries ih =>
    rw [List.foldl_cons, ih, addSummary, OrdMap.mem_keys_set, List.exists_mem_cons_iff,
      eq_comm (a := summary.address)]
    tauto

/-- The work of an entry. -/
theorem creditAt_of_mem {group : String × CreditedWork} (hmem : group ∈ groups.entries) :
    creditAt groups group.1 = group.2.creditedDifficulty := by
  rw [creditAt, OrdMap.get?_eq_some_iff.mpr hmem]
  rfl

/-- Groups with nothing negative lose no work by the filter. -/
theorem sum_rowsOfGroups (hcredit : ∀ address, 0 ≤ creditAt groups address) (keep : String → Bool) :
    (((rowsOfGroups groups).filter fun row => keep row.address).map (·.creditedDifficulty)).sum
      = ((groups.keys.filter keep).map (creditAt groups)).sum := by
  have hentries : ∀ group ∈ groups.entries, creditAt groups group.1 = group.2.creditedDifficulty :=
    fun _ => creditAt_of_mem
  unfold rowsOfGroups OrdMap.keys
  generalize groups.entries = entries at hentries
  induction entries with
  | nil => rfl
  | cons group entries ih =>
    obtain ⟨hgroup, hrest⟩ := List.forall_mem_cons.mp hentries
    have ih := ih hrest
    have hnonneg : 0 ≤ group.2.creditedDifficulty := hgroup ▸ hcredit group.1
    rw [List.filter_cons]
    by_cases hpos : 0 < group.2.creditedDifficulty
    · by_cases hkeep : keep group.1 = true
      · simp [hpos, hkeep, hgroup, ih]
      · simp [hpos, hkeep, ih]
    · have hzero : group.2.creditedDifficulty = 0 := le_antisymm (not_lt.mp hpos) hnonneg
      by_cases hkeep : keep group.1 = true
      · simp [hkeep, hgroup, hzero, ih]
      · simp [hkeep, hzero, ih]

end

/-- The work of some addresses is that of their summaries. -/
theorem sum_getAddressWork {db : Database} (window : PplnsWindow)
    (hcredit : ∀ summary ∈ db.rollupSummaries, 0 ≤ summary.creditedDifficulty)
    (keep : String → Bool) :
    (((getAddressWork db window).filter fun row => keep row.address).map
        (·.creditedDifficulty)).sum
      = (((db.rollupSummaries.filter (inWindow db window)).filter fun summary =>
          keep summary.address).map (·.creditedDifficulty)).sum := by
  have hfold := creditAt_foldl .empty (db.rollupSummaries.filter (inWindow db window))
  have hgroup : ∀ address, creditAt
      ((db.rollupSummaries.filter (inWindow db window)).foldl addSummary .empty) address
        = (((db.rollupSummaries.filter (inWindow db window)).filter (·.address = address)).map
            (·.creditedDifficulty)).sum := fun address => (hfold address).trans (zero_add _)
  rw [getAddressWork_eq, sum_rowsOfGroups, List.map_congr_left fun key _ => hgroup key]
  · refine sum_groups _ (fun summary : ShareRollupSummary => summary.address)
      (fun summary => summary.creditedDifficulty) keep (OrdMap.nodup _) ?_
    intro summary hsummary
    exact mem_keys_foldl_addSummary.mpr (Or.inr ⟨summary, hsummary, rfl⟩)
  · intro address
    rw [hgroup]
    refine List.sum_nonneg fun x hx => ?_
    obtain ⟨summary, hsummary, rfl⟩ := List.mem_map.mp hx
    exact hcredit summary (List.mem_filter.mp (List.mem_filter.mp hsummary).1).1

/-! ### The window -/

/-- The tables that the rollups wrote, row by row in any order, whose summaries add up. -/
structure RolledUp (db : Database) (batches : List ShareRollupBatch) : Prop where
  rows : db.rollupBatches.Perm batches
  inOrder : BatchesInOrder batches
  credit : ∀ summary ∈ db.rollupSummaries, 0 ≤ summary.creditedDifficulty
  addUp : ∀ batch ∈ batches,
    ((db.rollupSummaries.filter (·.batchId = batch.id)).map (·.creditedDifficulty)).sum
      = batch.creditedDifficulty

section
variable {db : Database} {batches : List ShareRollupBatch} {target : ℚ}

/-- The batches selected for a window, oldest first. -/
def selectedBatches (target : ℚ) (batches : List ShareRollupBatch) : List ShareRollupBatch :=
  (selectWindowBatches target 0 batches.reverse).reverse

theorem newestReaching_selectedBatches
    (hcredit : ∀ batch ∈ batches, 0 ≤ batch.creditedDifficulty) :
    NewestReaching target batches (selectedBatches target batches) := by
  obtain ⟨older, hsplit, hreaches, hshortest⟩ :=
    @selectWindowBatches_spec target 0 batches.reverse
      fun batch hmem => hcredit batch (List.mem_reverse.mp hmem)
  simp only [zero_add] at hreaches hshortest
  have hreverse : ∀ l, batchDifficulty (List.reverse l) = batchDifficulty l := fun l =>
    ((List.reverse_perm l).map _).sum_eq
  have hbatches : batches = older.reverse ++ selectedBatches target batches := by
    have h := congrArg List.reverse hsplit
    rwa [List.reverse_reverse, List.reverse_append] at h
  have hall : older = [] → selectedBatches target batches = batches := by
    rintro rfl
    exact hbatches.symm
  refine ⟨⟨older.reverse, hbatches.symm⟩, fun hreach => ?_, fun hshort => ?_,
    fun other hother htarget => ?_⟩
  · by_cases holder : older = []
    · rwa [hall holder]
    · rw [selectedBatches, hreverse]
      exact hreaches holder
  · by_contra hne
    have holder : older ≠ [] := fun h => hne (hall h)
    -- what is selected reaches the target, and the older batches take nothing away
    have htotal : batchDifficulty batches
        = batchDifficulty older
          + batchDifficulty (selectWindowBatches target 0 batches.reverse) := by
      conv_lhs => rw [hbatches]
      rw [batchDifficulty, List.map_append, List.sum_append, ← batchDifficulty,
        ← batchDifficulty, hreverse, selectedBatches, hreverse]
    have holderCredit : 0 ≤ batchDifficulty older := by
      refine List.sum_nonneg fun x hx => ?_
      obtain ⟨batch, hmem, rfl⟩ := List.mem_map.mp hx
      refine hcredit batch (List.mem_reverse.mp ?_)
      rw [hsplit]
      exact List.mem_append_right _ hmem
    have hreached := hreaches holder
    linarith
  · have hlength := hshortest other.reverse (List.reverse_prefix.mpr hother) (by rwa [hreverse])
    rwa [List.length_reverse, ← List.length_reverse, ← selectedBatches] at hlength

variable {newest : List ShareRollupBatch}

/-- The batches that end in the window are the newest ones. -/
theorem BatchesInOrder.mem_iff_inWindow (h : BatchesInOrder batches) (hsuffix : newest <:+ batches)
    {first last : ℕ} (hfirst : ∃ batch ∈ newest, first = batch.startShareIndex ∧
      ∀ other ∈ newest, batch.startShareIndex ≤ other.startShareIndex)
    (hlast : ∃ batch ∈ newest, last = batch.endShareIndex ∧
      ∀ other ∈ newest, other.endShareIndex ≤ batch.endShareIndex) {batch : ShareRollupBatch}
    (hmem : batch ∈ batches) :
    first ≤ batch.endShareIndex ∧ batch.endShareIndex ≤ last ↔ batch ∈ newest := by
  obtain ⟨oldest, holdest, rfl, hleast⟩ := hfirst
  obtain ⟨latest, hlatest, rfl, hgreatest⟩ := hlast
  obtain ⟨older, rfl⟩ := hsuffix
  constructor
  · rintro ⟨hstart, -⟩
    refine (List.mem_append.mp hmem).resolve_left fun hold => ?_
    -- an older batch ends before the window starts
    have hbefore := (List.pairwise_append.mp h.ordered).2.2 batch hold oldest holdest
    omega
  · intro hnew
    have hrange := h.ranges batch hmem
    exact ⟨(hleast batch hnew).trans hrange, hgreatest batch hnew⟩

/-- The summaries of some batches add up to the difficulty of the batches. -/
theorem RolledUp.sum_summaries (h : RolledUp db batches) (hsuffix : newest <:+ batches) :
    ((db.rollupSummaries.filter fun summary => summary.batchId ∈ newest.map (·.id)).map
        (·.creditedDifficulty)).sum
      = batchDifficulty newest := by
  have hnodup : (newest.map (·.id)).Nodup := h.inOrder.ids.sublist (hsuffix.sublist.map _)
  have hgroups := sum_groups
    (db.rollupSummaries.filter fun summary => summary.batchId ∈ newest.map (·.id))
    (fun summary => summary.batchId) (fun summary => summary.creditedDifficulty) (fun _ => true)
    hnodup fun summary hmem => of_decide_eq_true (List.mem_filter.mp hmem).2
  simp only [List.filter_true, List.map_map] at hgroups
  rw [← hgroups, batchDifficulty]
  refine congrArg List.sum (List.map_congr_left fun batch hbatch => ?_)
  have hid : batch.id ∈ newest.map (·.id) := List.mem_map_of_mem hbatch
  rw [Function.comp_apply, ← h.addUp batch (hsuffix.subset hbatch), List.filter_filter]
  refine congrArg (fun l : List ShareRollupSummary => (l.map (·.creditedDifficulty)).sum)
    (List.filter_congr fun summary _ => ?_)
  by_cases heq : summary.batchId = batch.id
  · simp [heq, hid]
  · simp [heq]

/-- The window is the one of the newest batches, and so is the work that is paid for it. -/
theorem RolledUp.covers (h : RolledUp db batches) (hsuffix : newest <:+ batches)
    {window : PplnsWindow} (hdifficulty : window.totalCreditedDifficulty = batchDifficulty newest)
    (hcount : window.totalAcceptedShareCount = (newest.map (·.acceptedShareCount)).sum)
    (hfirst : ∃ batch ∈ newest, window.windowStartShareIndex = batch.startShareIndex ∧
      ∀ other ∈ newest, batch.startShareIndex ≤ other.startShareIndex)
    (hlast : ∃ batch ∈ newest, window.windowEndShareIndex = batch.endShareIndex ∧
      ∀ other ∈ newest, other.endShareIndex ≤ batch.endShareIndex) :
    CoversWindow db window newest := by
  have hbatches : ∀ batch ∈ db.rollupBatches,
      window.windowStartShareIndex ≤ batch.endShareIndex ∧
          batch.endShareIndex ≤ window.windowEndShareIndex ↔ batch ∈ newest := fun batch hmem =>
    h.inOrder.mem_iff_inWindow hsuffix hfirst hlast (h.rows.mem_iff.mp hmem)
  have hwindow : ∀ summary : ShareRollupSummary,
      inWindow db window summary = decide (summary.batchId ∈ newest.map (·.id)) := by
    intro summary
    rw [Bool.eq_iff_iff, inWindow, List.any_eq_true, decide_eq_true_eq, List.mem_map]
    constructor
    · rintro ⟨batch, hmem, hin⟩
      obtain ⟨hid, hrange⟩ := of_decide_eq_true hin
      exact ⟨batch, (hbatches batch hmem).mp hrange, hid⟩
    · rintro ⟨batch, hnew, hid⟩
      have hmem := h.rows.mem_iff.mpr (hsuffix.subset hnew)
      exact ⟨batch, hmem, decide_eq_true ⟨hid, (hbatches batch hmem).mpr hnew⟩⟩
  have hfilter : db.rollupSummaries.filter (inWindow db window)
      = db.rollupSummaries.filter fun summary => summary.batchId ∈ newest.map (·.id) :=
    List.filter_congr fun summary _ => hwindow summary
  refine ⟨hdifficulty, hcount, hbatches, fun address => ?_, ?_⟩
  · have hsum := sum_getAddressWork window h.credit fun other => decide (other = address)
    rw [hfilter, List.filter_filter] at hsum
    rw [workAt, hsum]
    refine congrArg (fun l : List ShareRollupSummary => (l.map (·.creditedDifficulty)).sum)
      (List.filter_congr fun summary _ => ?_)
    rw [Bool.decide_and]
  · have hsum := sum_getAddressWork window h.credit fun _ => true
    simp only [List.filter_true] at hsum
    rw [hsum, hfilter, h.sum_summaries hsuffix, hdifficulty]

/-- Without batches there is no window, otherwise it is the one of the newest batches. -/
theorem RolledUp.window (h : RolledUp db batches) (htarget : 0 < target) :
    (batches = [] ∧ getPplnsWindow db target = none) ∨
      ∃ window newest, getPplnsWindow db target = some window ∧
        NewestReaching target batches newest ∧ CoversWindow db window newest := by
  have hsort := h.inOrder.sort_eq h.rows
  have hnewest := @newestReaching_selectedBatches batches target h.inOrder.credit
  cases hselect : selectWindowBatches target 0 batches.reverse with
  | nil =>
    have hempty : selectedBatches target batches = [] := by rw [selectedBatches, hselect]; rfl
    rw [hempty] at hnewest
    refine Or.inl ⟨?_, ?_⟩
    · -- nothing is selected, so nothing reaches the target, and that is all the batches
      refine (hnewest.all (not_le.mp fun hreach => ?_)).symm
      have hzero := hnewest.reaches hreach
      exact absurd hzero (not_le.mpr htarget)
    · rw [getPplnsWindow, hsort, hselect]
  | cons batch rest =>
    have hperm : (selectedBatches target batches).Perm (batch :: rest) := by
      rw [selectedBatches, hselect]
      exact List.reverse_perm _
    refine Or.inr ⟨_, selectedBatches target batches, by rw [getPplnsWindow, hsort, hselect],
      hnewest, h.covers hnewest.suffix ?_ ?_ ?_ ?_⟩
    · exact (hperm.map _).sum_eq.symm
    · exact (hperm.map _).sum_eq.symm
    · obtain ⟨first, hmem, hfold, hleast⟩ :=
        exists_foldl_min (fun b : ShareRollupBatch => b.startShareIndex) batch rest
      exact ⟨first, hperm.mem_iff.mpr hmem, hfold, fun other hother =>
        hleast other (hperm.mem_iff.mp hother)⟩
    · obtain ⟨last, hmem, hfold, hgreatest⟩ :=
        exists_foldl_max (fun b : ShareRollupBatch => b.endShareIndex) batch rest
      exact ⟨last, hperm.mem_iff.mpr hmem, hfold, fun other hother =>
        hgreatest other (hperm.mem_iff.mp hother)⟩

end

/-! ### Every run -/

/-- The summaries of every batch add up to it. -/
def SummariesAddUp (rollups : RollupDb) : Prop :=
  ∀ batch ∈ rollups.batches,
    ((summariesFor rollups.summaries batch.id).map (·.creditedDifficulty)).sum
      = batch.creditedDifficulty

instance (rollups : RollupDb) : Decidable (SummariesAddUp rollups) := by
  unfold SummariesAddUp
  infer_instance

/-- A database has the rows of the rollups, in some order. -/
structure HasRollups (db : Database) (rollups : RollupDb) : Prop where
  batches : db.rollupBatches.Perm (rollups.batches.map (·.toShareRollupBatch))
  summaries : db.rollupSummaries.Perm (rollups.summaries.map (·.toShareRollupSummary))

theorem TablesInOrder.rolledUp {world : RollupWorld} (h : TablesInOrder world)
    (haddUp : SummariesAddUp world.db) {db : Database} (hdb : HasRollups db world.db) :
    RolledUp db (world.db.batches.map (·.toShareRollupBatch)) where
  rows := hdb.batches
  inOrder := h.batchesInOrder
  credit summary hmem := by
    obtain ⟨row, hrow, rfl⟩ := List.mem_map.mp (hdb.summaries.mem_iff.mp hmem)
    exact h.summaryCredit row hrow
  addUp := List.forall_mem_map.mpr fun batch hbatch => by
    rw [((hdb.summaries.filter _).map _).sum_eq, List.filter_map, List.map_map,
      ← haddUp batch hbatch]
    rfl

/-- The batches that some run of the rollups produced, oldest first. -/
def producedBatches (config : RollupConfig) (inputs : List RollupInput) : List ShareRollupBatch :=
  ((rollupMachine config).final .initial inputs).db.batches.map (·.toShareRollupBatch)

/-- Whatever batches the rollups produced, if their summaries add up, the window is that of the
newest batches that reach the target, or of all, and the addresses are paid for these batches. -/
theorem pplnsWindow_newest (config : RollupConfig) (inputs : List RollupInput)
    (hcredits : ∀ input ∈ inputs, AddsNoNegative input)
    (haddUp : SummariesAddUp ((rollupMachine config).final .initial inputs).db) (db : Database)
    (hdb : HasRollups db ((rollupMachine config).final .initial inputs).db) (target : ℚ)
    (htarget : 0 < target) :
    (producedBatches config inputs = [] ∧ getPplnsWindow db target = none) ∨
      ∃ window newest, getPplnsWindow db target = some window ∧
        NewestReaching target (producedBatches config inputs) newest ∧
        CoversWindow db window newest :=
  ((produced_in_order config hcredits).rolledUp haddUp hdb).window htarget

/-- Two rollups of three shares. -/
def sampleWindowInputs : List RollupInput :=
  sampleInTime ++ [.insertShare 2 (sampleAccepted "A"), .commitInsert 2] ++ sampleRollup 2 7

/-- The rows of their batches and summaries. -/
def sampleWindowRows : Database :=
  let rollups := ((rollupMachine sampleRollups).final .initial sampleWindowInputs).db
  { rollupBatches := rollups.batches.map (·.toShareRollupBatch)
    rollupSummaries := rollups.summaries.map (·.toShareRollupSummary)
    snapshots := []
    snapshotEntries := []
    ledger := { balances := .empty, history := .empty }
    nextSnapshotId := 1 }

theorem pplnsWindow_newest_sample :
    (producedBatches sampleRollups sampleWindowInputs = [] ∧
        getPplnsWindow sampleWindowRows 7 = none) ∨
      ∃ window newest, getPplnsWindow sampleWindowRows 7 = some window ∧
        NewestReaching 7 (producedBatches sampleRollups sampleWindowInputs) newest ∧
        CoversWindow sampleWindowRows window newest :=
  pplnsWindow_newest sampleRollups sampleWindowInputs (by decide +kernel) (by decide +kernel)
    sampleWindowRows ⟨.refl _, .refl _⟩ 7 (by norm_num)

end PublicPool.Proofs
