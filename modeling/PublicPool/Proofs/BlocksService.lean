import PublicPool.BlocksService

/-!
# `PublicPool.Proofs.BlocksService`: how reports of one block are merged

Each column of a row has a rule of its own for what a later report changes. The result and the
attribution hold under every order of reports: a success stays, and a real attribution stays
(`RecordStep.keepsAttribution`).

The mode and the snapshot belong together, but only the snapshot waits for a success. `save` takes
the mode of every report that names another one, also of a rejected one, and leaves what a report
does not name. `Harmless` has the reports with which the two come from one report.

`blocks_merge_consistently` is about every run of `save`, with the reports of other blocks in
between.
-/

set_option autoImplicit false

namespace PublicPool.BlocksService

open Lib

variable {blockId : Bytes → Option String} {hash : String}

/-! ### The row of a block -/

/-- The row of a block. -/
def rowOf (rows : List BlockRow) (hash : String) : Option BlockRow :=
  rows.find? (·.blockHash = some hash)

section
variable {α : Type*} {p q : α → Bool} {f : α → α}

/-- The first element of a kind, where it is modified. -/
theorem find?_modify_first {rows : List α} {i : ℕ} (hfirst : rows.findIdx? p = some i)
    (hkind : ∀ a, p a = true → p (f a) = true) :
    ∃ a, rows.find? p = some a ∧ (rows.modify i f).find? p = some (f a) := by
  induction rows generalizing i with
  | nil => cases hfirst
  | cons a rows ih =>
    rw [List.findIdx?_cons] at hfirst
    split at hfirst
    · rename_i ha
      cases hfirst
      exact ⟨a, List.find?_cons_of_pos ha, List.find?_cons_of_pos (hkind a ha)⟩
    · rename_i ha
      obtain ⟨j, hj, rfl⟩ := Option.map_eq_some_iff.mp hfirst
      obtain ⟨b, hb, hnext⟩ := ih hj
      refine ⟨b, ?_, ?_⟩
      · rwa [List.find?_cons_of_neg ha]
      · rwa [List.modify_succ_cons, List.find?_cons_of_neg ha]

/-- Elements of another kind stay. -/
theorem find?_modify_other {rows : List α} {i : ℕ} (hfirst : rows.findIdx? p = some i)
    (hother : ∀ a, p a = true → q a = false ∧ q (f a) = false) :
    (rows.modify i f).find? q = rows.find? q := by
  induction rows generalizing i with
  | nil => cases hfirst
  | cons a rows ih =>
    rw [List.findIdx?_cons] at hfirst
    split at hfirst
    · rename_i ha
      cases hfirst
      obtain ⟨hbefore, hafter⟩ := hother a ha
      rw [List.modify_zero_cons, List.find?_cons_of_neg (by simp [hafter]),
        List.find?_cons_of_neg (by simp [hbefore])]
    · obtain ⟨j, hj, rfl⟩ := Option.map_eq_some_iff.mp hfirst
      rw [List.modify_succ_cons, List.find?_cons, List.find?_cons, ih hj]

end

theorem findOne_eq_none {rows : List BlockRow} (hnone : findOne rows hash = none) :
    rowOf rows hash = none := by
  rw [findOne, List.findIdx?_eq_none_iff] at hnone
  refine List.find?_eq_none.mpr fun row hrow => ?_
  rw [hnone row hrow]
  exact Bool.false_ne_true

theorem blockHash_insert {block : PartialBlock} {blockHash : Option String} {row : BlockRow}
    (h : block.insert blockHash = some row) :
    row.blockHash = blockHash ∧ row.blockSubmissionResult = block.blockSubmissionResult ∧
      row.payoutMode = block.payoutMode.getD .solo ∧
      row.payoutSnapshotId = block.payoutSnapshotId.getD none := by
  simp only [PartialBlock.insert, Option.bind_eq_bind, Option.bind_eq_some_iff] at h
  obtain ⟨_, -, _, -, _, -, _, -, _, -, h⟩ := h
  cases h
  exact ⟨rfl, rfl, rfl, rfl⟩

/-- What a report does to the row of a block. -/
inductive RecordStep (blockId : Bytes → Option String) (hash : String) (row : Option BlockRow)
    (block : PartialBlock) : Option BlockRow → List SavedReport → Prop
  /-- It is of another block, or is not saved. -/
  | other {reports : List SavedReport} : (∀ report ∈ reports, report.blockHash ≠ some hash) →
      RecordStep blockId hash row block row reports
  | inserts {inserted : BlockRow} : row = none → block.insert (some hash) = some inserted →
      RecordStep blockId hash row block (some inserted) [⟨block, some hash, true⟩]
  | updates {existing : BlockRow} : hashOf blockId block = some hash → row = some existing →
      RecordStep blockId hash row block (some (existing.update (updateFor existing block)))
        [⟨block, some hash, false⟩]

theorem recordStep (blockId : Bytes → Option String) (hash : String) (rows : List BlockRow)
    (block : PartialBlock) :
    RecordStep blockId hash (rowOf rows hash) block
      (rowOf ((blocksTable blockId).step rows block).1 hash)
      ((blocksTable blockId).step rows block).2 := by
  dsimp only [blocksTable, save]
  cases hfind : (hashOf blockId block).bind (findOne rows) with
  | some id =>
    obtain ⟨found, hhash, hid⟩ := Option.bind_eq_some_iff.mp hfind
    have hlength : decide ((rows.modify id fun existing =>
        existing.update (updateFor existing block)).length ≠ rows.length) = false := by
      rw [List.length_modify]
      exact decide_eq_false (fun h => h rfl)
    dsimp only
    rw [hlength, hhash]
    by_cases hsame : found = hash
    · rw [hsame] at hhash hid ⊢
      obtain ⟨existing, hrow, hnext⟩ := find?_modify_first
        (f := fun existing : BlockRow => existing.update (updateFor existing block)) hid
        (fun _ h => h)
      rw [rowOf, rowOf, hnext]
      exact .updates hhash hrow
    · have hkept := find?_modify_other (q := fun row : BlockRow => row.blockHash = some hash)
        (f := fun existing : BlockRow => existing.update (updateFor existing block)) hid
        (fun row hrow => by
          have hother : ¬ row.blockHash = some hash := fun h =>
            hsame (Option.some.inj ((of_decide_eq_true hrow).symm.trans h))
          exact ⟨decide_eq_false hother, decide_eq_false hother⟩)
      rw [rowOf, rowOf, hkept]
      refine .other fun report hreport => ?_
      rw [List.mem_singleton.mp hreport]
      exact fun h => hsame (Option.some.inj h)
  | none =>
    dsimp only
    cases hinsert : block.insert (hashOf blockId block) with
    | none => exact .other (fun _ hreport => absurd hreport List.not_mem_nil)
    | some row =>
      have hlength : decide ((rows ++ [row]).length ≠ rows.length) = true := by
        rw [List.length_append]
        exact decide_eq_true (Nat.succ_ne_self _)
      dsimp only [Option.map]
      rw [hlength]
      by_cases hsame : hashOf blockId block = some hash
      · rw [hsame] at hfind hinsert ⊢
        have hnone := findOne_eq_none hfind
        have hnew : rowOf (rows ++ [row]) hash = some row := by
          rw [rowOf] at hnone
          rw [rowOf, List.find?_append, hnone, Option.none_or]
          exact List.find?_cons_of_pos (decide_eq_true (blockHash_insert hinsert).1)
        rw [hnone, hnew]
        exact .inserts rfl hinsert
      · have hkept : rowOf (rows ++ [row]) hash = rowOf rows hash := by
          have hrow : decide (row.blockHash = some hash) = false :=
            decide_eq_false (fun h => hsame ((blockHash_insert hinsert).1.symm.trans h))
          rw [rowOf, rowOf, List.find?_append, List.find?_cons_of_neg (by simp [hrow]),
            List.find?_nil, Option.or_none]
        rw [hkept]
        refine .other fun report hreport => ?_
        rw [List.mem_singleton.mp hreport]
        exact hsame

/-! ### What an update changes -/

/-- A report, or a row, of a block that was accepted. -/
abbrev succeeded (result : Option String) : Prop := isSuccessfulBlockSubmission result = true

section
variable (existing : BlockRow) (block : PartialBlock)

/-- A row after a report. -/
abbrev merged : BlockRow := existing.update (updateFor existing block)

theorem result_merged : (merged existing block).blockSubmissionResult =
    if succeeded block.blockSubmissionResult then some "SUCCESS!"
    else existing.blockSubmissionResult := by
  simp only [merged, updateFor, BlockRow.update]
  split_ifs <;> rfl

theorem payoutMode_merged :
    (merged existing block).payoutMode = block.payoutMode.getD existing.payoutMode := by
  simp only [merged, updateFor, BlockRow.update]
  cases hmode : block.payoutMode with
  | none => split_ifs <;> rfl
  | some mode =>
    by_cases hsame : existing.payoutMode = mode
    · rw [if_neg (by simp [hsame])]
      rw [hsame]
      split_ifs <;> rfl
    · rw [if_pos (by simp [hsame])]

theorem payoutSnapshotId_merged : (merged existing block).payoutSnapshotId =
    if succeeded block.blockSubmissionResult then
      block.payoutSnapshotId.getD existing.payoutSnapshotId
    else existing.payoutSnapshotId := by
  simp only [merged, updateFor, BlockRow.update]
  split_ifs <;> rfl

/-- Who found a block. -/
def BlockRow.attribution (row : BlockRow) : String × String × String :=
  (row.minerAddress, row.worker, row.sessionId)

theorem attribution_merged (hkeep : shouldReplaceAttribution existing block = false) :
    BlockRow.attribution (merged existing block) = BlockRow.attribution existing := by
  simp only [merged, updateFor, BlockRow.update, hkeep, BlockRow.attribution, Bool.false_eq_true,
    if_false]
  split_ifs <;> rfl

/-- A rejected report that brings nothing changes nothing. -/
theorem merged_of_rejected (hrejected : ¬ succeeded block.blockSubmissionResult)
    (hkeep : shouldReplaceAttribution existing block = false)
    (hmode : block.payoutMode.getD existing.payoutMode = existing.payoutMode) :
    merged existing block = existing := by
  have hother : ¬ (block.payoutMode ≠ none ∧ some existing.payoutMode ≠ block.payoutMode) := by
    rintro ⟨hgiven, hdiffers⟩
    obtain ⟨mode, hnamed⟩ := Option.ne_none_iff_exists'.mp hgiven
    rw [hnamed] at hmode hdiffers
    exact hdiffers (congrArg some hmode.symm)
  have hupdate : updateFor existing block = {} := by
    simp only [updateFor, if_neg hrejected, hkeep, if_neg hother, Bool.false_eq_true, if_false]
  rw [merged, hupdate]
  rfl

/-- A real attribution is not replaced. -/
theorem not_shouldReplaceAttribution
    (hreal : isInternalAttribution (some existing.worker) (some existing.minerAddress) = false) :
    shouldReplaceAttribution existing block = false := by
  rw [shouldReplaceAttribution, hreal]
  split_ifs <;> rfl

end

/-! ### Where the columns of a row come from -/

/-- The reports of a block that were saved. -/
def reportsOf (hash : String) (history : List SavedReport) : List SavedReport :=
  history.filter (·.blockHash = some hash)

/-- The mode and the snapshot of a row are those of a report. What the first report leaves out is
given by the column's default, and what a later one leaves out is not given. -/
def SavedReport.Gives (report : SavedReport) (row : BlockRow) : Prop :=
  (report.block.payoutMode = some row.payoutMode ∨
      report.inserted ∧ report.block.payoutMode = none ∧ row.payoutMode = .solo) ∧
    (report.block.payoutSnapshotId = some row.payoutSnapshotId ∨
      report.inserted ∧ report.block.payoutSnapshotId = none ∧ row.payoutSnapshotId = none)

/-- Some report of a block was of an accepted one. -/
def AnySucceeded (reports : List SavedReport) : Prop :=
  ∃ report ∈ reports, succeeded report.block.blockSubmissionResult

/-- The row of a block after some reports. -/
structure Merged (reports : List SavedReport) (row : BlockRow) : Prop where
  /-- The result is a success once there was one. -/
  result : AnySucceeded reports ↔ succeeded row.blockSubmissionResult
  /-- The mode and the snapshot come from one report, and from a success if there was one. -/
  payout : ∃ report ∈ reports, SavedReport.Gives report row ∧
    (AnySucceeded reports → succeeded report.block.blockSubmissionResult)

/-- The row of a block, if there is one, after the reports of it. Without a row there are none. -/
def MergedAll (reports : List SavedReport) : Option BlockRow → Prop
  | none => reports = []
  | some row => Merged reports row

/-- What one report may change. -/
structure KeepsRecord (row next : BlockRow) (block : PartialBlock) : Prop where
  attribution : isInternalAttribution (some row.worker) (some row.minerAddress) = false →
    BlockRow.attribution next = BlockRow.attribution row
  rejected : ¬ succeeded block.blockSubmissionResult →
    shouldReplaceAttribution row block = false → next = row

/-- A report with which mode and snapshot stay together. One of an accepted block names both; or it
names no other ones than a success has left. One of a rejected block names no other mode, unless it
repairs the attribution of a block that was never accepted and names the row's snapshot. -/
def Harmless (row : BlockRow) (block : PartialBlock) : Prop :=
  if succeeded block.blockSubmissionResult then
    block.payoutMode ≠ none ∧ block.payoutSnapshotId ≠ none ∨
      succeeded row.blockSubmissionResult ∧ block.payoutMode.getD row.payoutMode = row.payoutMode ∧
        block.payoutSnapshotId.getD row.payoutSnapshotId = row.payoutSnapshotId
  else
    block.payoutMode.getD row.payoutMode = row.payoutMode ∨
      shouldReplaceAttribution row block = true ∧ ¬ succeeded row.blockSubmissionResult ∧
        block.payoutSnapshotId = some row.payoutSnapshotId

instance (row : BlockRow) (block : PartialBlock) : Decidable (Harmless row block) :=
  inferInstanceAs (Decidable (if succeeded block.blockSubmissionResult then _ else _))

/-! ### Runs -/

theorem anySucceeded_append (reports : List SavedReport) (report : SavedReport) :
    AnySucceeded (reports ++ [report]) ↔
      AnySucceeded reports ∨ succeeded report.block.blockSubmissionResult := by
  simp only [AnySucceeded, List.mem_append, List.mem_singleton, or_and_right, exists_or,
    exists_eq_left]

section
variable {block : PartialBlock} {row : BlockRow} {reports : List SavedReport}

theorem merged_insert (hinsert : block.insert (some hash) = some row) :
    Merged [⟨block, some hash, true⟩] row := by
  obtain ⟨-, hresult, hmode, hsnapshot⟩ := blockHash_insert hinsert
  refine ⟨?_, _, List.mem_singleton_self _, ⟨?_, ?_⟩, ?_⟩
  · rw [hresult]
    simp [AnySucceeded]
  · cases hgiven : block.payoutMode with
    | none =>
      rw [hgiven] at hmode
      exact .inr ⟨rfl, rfl, hmode⟩
    | some mode =>
      rw [hgiven] at hmode
      exact .inl (congrArg some hmode.symm)
  · cases hgiven : block.payoutSnapshotId with
    | none =>
      rw [hgiven] at hsnapshot
      exact .inr ⟨rfl, rfl, hsnapshot⟩
    | some snapshot =>
      rw [hgiven] at hsnapshot
      exact .inl (congrArg some hsnapshot.symm)
  · rintro ⟨report, hreport, hsucceeded⟩
    rwa [List.mem_singleton.mp hreport] at hsucceeded

/-- The result, whatever the report. -/
theorem result_update (hresult : AnySucceeded reports ↔ succeeded row.blockSubmissionResult)
    (block : PartialBlock) :
    AnySucceeded (reports ++ [⟨block, some hash, false⟩]) ↔
      succeeded (merged row block).blockSubmissionResult := by
  rw [anySucceeded_append, hresult, result_merged]
  split
  · rename_i hsucceeded
    exact ⟨fun _ => rfl, fun _ => .inr hsucceeded⟩
  · rename_i hrejected
    exact ⟨fun h => h.resolve_right hrejected, .inl⟩

/-- A row that keeps its mode and its snapshot still has them from the report it had them from. -/
theorem payout_kept (h : Merged reports row)
    (hsucceeded : succeeded block.blockSubmissionResult → AnySucceeded reports)
    (hmode : (merged row block).payoutMode = row.payoutMode)
    (hsnapshot : (merged row block).payoutSnapshotId = row.payoutSnapshotId) :
    ∃ report ∈ reports ++ [⟨block, some hash, false⟩], SavedReport.Gives report (merged row block) ∧
      (AnySucceeded (reports ++ [⟨block, some hash, false⟩]) →
        succeeded report.block.blockSubmissionResult) := by
  obtain ⟨report, hreport, hgives, hfrom⟩ := h.payout
  refine ⟨report, List.mem_append_left _ hreport, ?_, fun hany => hfrom ?_⟩
  · rwa [SavedReport.Gives, hmode, hsnapshot]
  · rw [anySucceeded_append] at hany
    exact hany.elim id hsucceeded

/-- A row may also have both from the report itself. -/
theorem payout_given (hsucceeded : AnySucceeded reports → succeeded block.blockSubmissionResult)
    (hmode : block.payoutMode = some (merged row block).payoutMode)
    (hsnapshot : block.payoutSnapshotId = some (merged row block).payoutSnapshotId) :
    ∃ report ∈ reports ++ [⟨block, some hash, false⟩], SavedReport.Gives report (merged row block) ∧
      (AnySucceeded (reports ++ [⟨block, some hash, false⟩]) →
        succeeded report.block.blockSubmissionResult) := by
  refine ⟨_, List.mem_append_right _ (List.mem_singleton_self _), ⟨.inl hmode, .inl hsnapshot⟩,
    fun hany => ?_⟩
  rw [anySucceeded_append] at hany
  exact hany.elim hsucceeded id

theorem merged_update (h : Merged reports row) (hharmless : Harmless row block) :
    Merged (reports ++ [⟨block, some hash, false⟩]) (merged row block) := by
  refine ⟨result_update h.result block, ?_⟩
  have hmode := payoutMode_merged row block
  have hsnapshot := payoutSnapshotId_merged row block
  rw [Harmless] at hharmless
  split at hharmless
  · rename_i hsucceeded
    rw [if_pos hsucceeded] at hsnapshot
    rcases hharmless with ⟨hgiven, hgiven'⟩ | ⟨hbefore, hsame, hsame'⟩
    · obtain ⟨mode, hgiven⟩ := Option.ne_none_iff_exists'.mp hgiven
      obtain ⟨snapshot, hgiven'⟩ := Option.ne_none_iff_exists'.mp hgiven'
      rw [hgiven] at hmode
      rw [hgiven'] at hsnapshot
      exact payout_given (fun _ => hsucceeded) (by rw [hmode, hgiven]; rfl)
        (by rw [hsnapshot, hgiven']; rfl)
    · exact payout_kept h (fun _ => h.result.mpr hbefore) (hmode.trans hsame)
        (hsnapshot.trans hsame')
  · rename_i hrejected
    rw [if_neg hrejected] at hsnapshot
    by_cases hsame : block.payoutMode.getD row.payoutMode = row.payoutMode
    · exact payout_kept h (fun hsucceeded => absurd hsucceeded hrejected) (hmode.trans hsame)
        hsnapshot
    · obtain ⟨-, hnever, hgiven'⟩ := hharmless.resolve_left hsame
      have hgiven : block.payoutMode = some (merged row block).payoutMode := by
        cases hnamed : block.payoutMode with
        | none =>
          rw [hnamed] at hsame
          exact absurd rfl hsame
        | some mode => rw [hmode, hnamed, Option.getD_some]
      exact payout_given (fun hany => absurd (h.result.mp hany) hnever) hgiven
        (by rw [hsnapshot, hgiven'])

/-- A report that is harmless to the row of a block, where it is about that block. -/
def HarmlessTo (blockId : Bytes → Option String) (hash : String) (rows : List BlockRow)
    (block : PartialBlock) : Prop :=
  hashOf blockId block = some hash → ∀ row ∈ rowOf rows hash, Harmless row block

instance (rows : List BlockRow) (block : PartialBlock) :
    Decidable (HarmlessTo blockId hash rows block) :=
  inferInstanceAs (Decidable (hashOf blockId block = some hash → ∀ row ∈ rowOf rows hash, _))

theorem reportsOf_append (history more : List SavedReport) :
    reportsOf hash (history ++ more) = reportsOf hash history ++ reportsOf hash more :=
  List.filter_append ..

theorem mergedAll_step {rows : List BlockRow} {history : List SavedReport}
    (h : MergedAll (reportsOf hash history) (rowOf rows hash))
    (hharmless : HarmlessTo blockId hash rows block) :
    MergedAll (reportsOf hash (history ++ ((blocksTable blockId).step rows block).2))
      (rowOf ((blocksTable blockId).step rows block).1 hash) := by
  have hstep := recordStep blockId hash rows block
  rw [HarmlessTo] at hharmless
  rw [reportsOf_append]
  generalize rowOf rows hash = row at *
  generalize rowOf ((blocksTable blockId).step rows block).1 hash = next at *
  generalize ((blocksTable blockId).step rows block).2 = reports at *
  cases hstep with
  | other hother =>
    have hnone : reportsOf hash reports = [] :=
      List.filter_eq_nil_iff.mpr fun report hreport => by simpa using hother report hreport
    rwa [hnone, List.append_nil]
  | inserts hnew hinsert =>
    have hone : reportsOf hash [⟨block, some hash, true⟩] = [⟨block, some hash, true⟩] :=
      List.filter_cons_of_pos (decide_eq_true rfl)
    rw [hnew] at h
    rw [h, List.nil_append, hone]
    exact merged_insert hinsert
  | updates hhash hrow =>
    have hone : reportsOf hash [⟨block, some hash, false⟩] = [⟨block, some hash, false⟩] :=
      List.filter_cons_of_pos (decide_eq_true rfl)
    rw [hrow] at h
    rw [hone]
    exact merged_update h (hharmless hhash _ hrow)

/-- A row stays, and a harmless report keeps of it what it should. -/
theorem keepsRecord_step {rows : List BlockRow} (hrow : rowOf rows hash = some row)
    (hharmless : HarmlessTo blockId hash rows block) :
    ∃ next, rowOf ((blocksTable blockId).step rows block).1 hash = some next ∧
      KeepsRecord row next block := by
  have hstep := recordStep blockId hash rows block
  rw [HarmlessTo] at hharmless
  rw [hrow] at hharmless hstep
  generalize rowOf ((blocksTable blockId).step rows block).1 hash = next at *
  generalize ((blocksTable blockId).step rows block).2 = reports at *
  cases hstep with
  | other => exact ⟨row, rfl, fun _ => rfl, fun _ _ => rfl⟩
  | inserts hnew => cases hnew
  | updates hhash hsame =>
    cases hsame
    refine ⟨_, rfl, fun hreal => ?_, fun hrejected hkeep => ?_⟩
    · exact attribution_merged row block (not_shouldReplaceAttribution row block hreal)
    · have hmode := hharmless hhash row rfl
      rw [Harmless, if_neg hrejected] at hmode
      have hsame := hmode.resolve_right fun h => absurd (hkeep.symm.trans h.1) Bool.false_ne_true
      exact merged_of_rejected row block hrejected hkeep hsame

end

/-- While the reports of a block are harmless, its row keeps what it should keep, its result is a
success once there was one, and its mode and its snapshot come from one report. -/
theorem blocks_merge_consistently (blockId : Bytes → Option String) (hash : String)
    {rows : List BlockRow} (hnew : rowOf rows hash = none) {blocks : List PartialBlock}
    (hharmless : (blocksTable blockId).Along (fun rows _ block => HarmlessTo blockId hash rows block)
      rows [] blocks) :
    (blocksTable blockId).Along (fun rows _ block => ∀ row, rowOf rows hash = some row →
        ∃ next, rowOf ((blocksTable blockId).step rows block).1 hash = some next ∧
          KeepsRecord row next block) rows [] blocks ∧
      MergedAll (reportsOf hash ((blocksTable blockId).history rows blocks))
        (rowOf ((blocksTable blockId).final rows blocks) hash) := by
  constructor
  · exact Machine.Along.imp _ (fun rows _ block hone row hrow => keepsRecord_step hrow hone)
      hharmless
  · have hstart : MergedAll (reportsOf hash []) (rowOf rows hash) := by
      rw [hnew]
      rfl
    have hstep (s : List BlockRow) (h : List SavedReport) (block : PartialBlock)
        (hmerged : MergedAll (reportsOf hash h) (rowOf s hash))
        (hone : HarmlessTo blockId hash s block) :
        MergedAll (reportsOf hash (h ++ ((blocksTable blockId).step s block).2))
          (rowOf ((blocksTable blockId).step s block).1 hash) :=
      mergedAll_step hmerged hone
    exact (blocksTable blockId).history_invariant hstep hstart hharmless

/-! A template provider reports a block that the node rejects. A miner's report repairs the
attribution, its success brings the snapshot, and a duplicate of it is rejected. -/

def sampleReport (minerAddress worker : String) (result : Option String) (mode : PayoutMode)
    (snapshot : Option ℕ) : PartialBlock where
  height := some 100
  minerAddress := some minerAddress
  worker := some worker
  sessionId := some "00000001"
  blockData := some []
  blockHash := some "b"
  blockSubmissionResult := result
  payoutMode := some mode
  payoutSnapshotId := some snapshot

def sampleReports : List PartialBlock :=
  [sampleReport "pool" "TDP" (some "high-hash") .pplns none,
    sampleReport "miner" "rig" (some "duplicate") .pplns (some 7),
    sampleReport "miner" "rig" (some "SUCCESS!") .pplns (some 7),
    sampleReport "other" "rig" (some "duplicate") .pplns (some 8)]

theorem blocks_merge_consistently_sample :
    rowOf ((blocksTable fun _ => none).final [] sampleReports) "b" = some {
      height := 100
      minerAddress := "miner"
      worker := "rig"
      sessionId := "00000001"
      blockData := []
      blockHash := some "b"
      blockSubmissionResult := some "SUCCESS!"
      payoutMode := .pplns
      payoutSnapshotId := some 7 } ∧
      MergedAll (reportsOf "b" ((blocksTable fun _ => none).history [] sampleReports))
        (rowOf ((blocksTable fun _ => none).final [] sampleReports) "b") :=
  ⟨by decide +kernel,
    (blocks_merge_consistently (fun _ => none) "b" rfl (by decide +kernel)).2⟩

/-- A block is accepted, and its duplicate is rejected on a port with another payout mode. The row
has the mode of the second report and the snapshot of the first. -/
theorem not_blocks_merge_consistently :
    ¬ ∀ (blockId : Bytes → Option String) (hash : String) (blocks : List PartialBlock),
      (∀ block ∈ blocks, hashOf blockId block = some hash) →
        MergedAll (reportsOf hash ((blocksTable blockId).history [] blocks))
          (rowOf ((blocksTable blockId).final [] blocks) hash) := by
  intro h
  have hmerged := h (fun _ => none) "b"
    [sampleReport "miner" "rig" (some "SUCCESS!") .pplns (some 7),
      sampleReport "other" "rig" (some "duplicate") .solo none] (by decide +kernel)
  have hrow : rowOf ((blocksTable fun _ => none).final []
      [sampleReport "miner" "rig" (some "SUCCESS!") .pplns (some 7),
        sampleReport "other" "rig" (some "duplicate") .solo none]) "b" = some {
      height := 100
      minerAddress := "miner"
      worker := "rig"
      sessionId := "00000001"
      blockData := []
      blockHash := some "b"
      blockSubmissionResult := some "SUCCESS!"
      payoutMode := .solo
      payoutSnapshotId := some 7 } := by decide +kernel
  have hreports : reportsOf "b" ((blocksTable fun _ => none).history []
      [sampleReport "miner" "rig" (some "SUCCESS!") .pplns (some 7),
        sampleReport "other" "rig" (some "duplicate") .solo none]) =
      [⟨sampleReport "miner" "rig" (some "SUCCESS!") .pplns (some 7), some "b", true⟩,
        ⟨sampleReport "other" "rig" (some "duplicate") .solo none, some "b", false⟩] := by
    decide +kernel
  rw [hrow, hreports] at hmerged
  obtain ⟨report, hreport, ⟨hmode, hsnapshot⟩, -⟩ := hmerged.payout
  simp only [List.mem_cons, List.not_mem_nil, or_false] at hreport
  rcases hreport with rfl | rfl
  · simp [sampleReport] at hmode
  · simp [sampleReport] at hsnapshot

end PublicPool.BlocksService
