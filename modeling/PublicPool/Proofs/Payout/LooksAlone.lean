import PublicPool.Proofs.Payout.SameSnapshot
import PublicPool.Proofs.Payout.FinalizeOnce

/-!
# `PublicPool.Proofs.Payout.LooksAlone`: when all calls return one snapshot

The two directions of `same_snapshot_iff`. While every call looks alone, at most one call is past its
look, and none once the snapshot is there; so nothing conflicts, and each call returns the snapshot
of the one row (`AloneInv`). And once two calls are past their look, or one is while the row is
there, one of them is bound to fail (`Doomed`): it stays so until a call has failed.
-/

set_option autoImplicit false

namespace PublicPool.Proofs

open Lib (OrdMap Machine)

section
variable {env : PayoutEnv} {config : PayoutConfig} {base : Database} {target : TemplateWindow}
  {world : PayoutWorld} {history : List PayoutEvent}

/-- The invariant of the runs in which every call looks alone. -/
structure AloneInv (env : PayoutEnv) (config : PayoutConfig) (base : Database)
    (target : TemplateWindow) (world : PayoutWorld) (history : List PayoutEvent) : Prop where
  same : SameInv env config base target world
  alone : ∀ id id' input input' stage stage', world.calls id = some (.create input stage) →
    world.calls id' = some (.create input' stage') → past stage = true → past stage' = true →
    id = id'
  settled : keyRows config target world.db ≠ [] → ∀ id input stage,
    world.calls id = some (.create input stage) → past stage = false
  due : keyRows config target world.db ≠ [] ∨ Storable env config base target
  returned : ∀ event ∈ history, ∃ input row snapshot,
    event = .created input (.snapshot snapshot) ∧ keyRows config target world.db = [row] ∧
      getSnapshotById world.db row.id = some snapshot
  ended : ∀ id < world.nextCall, world.calls id = none → history ≠ []

variable {id : ℕ} {input : CreateSnapshotInput} {row : SnapshotRow}

variable {stage : CreateStage} {snapshot : PayoutSnapshotForTemplate}
  {entries : List PayoutDistributionEntry}

/-- A call that is past its look finds no row, and what it is to store can be stored. -/
theorem AloneInv.of_past (h : AloneInv env config base target world history)
    (hcall : world.calls id = some (.create input stage)) (hpast : past stage = true) :
    keyRows config target world.db = [] ∧ Storable env config base target := by
  have hnone : keyRows config target world.db = [] := by
    by_contra hrow
    rw [h.settled hrow id input stage hcall] at hpast
    cases hpast
  refine ⟨hnone, h.due.resolve_left fun hrow => hrow hnone⟩

/-- A call goes on. It is past its look only if it was, or if it has looked alone. -/
theorem AloneInv.goesOn (h : AloneInv env config base target world history) {id : ℕ}
    {input : CreateSnapshotInput} {stage stage' : CreateStage} {db : Database}
    (hcall : world.calls id = some (.create input stage)) (hdb : RowsStay world.db db)
    (hsame : SameInv env config base target
      { world.setCall id (some (.create input stage')) with db := db })
    (hpast : past stage' = true → past stage = true ∨
      (keyRows config target world.db = [] ∧ ∀ id' input' stage'',
        world.calls id' = some (.create input' stage'') → past stage'' = false)) :
    AloneInv env config base target
      { world.setCall id (some (.create input stage')) with db := db } history := by
  -- the other calls are past their look only when this one is not
  have hother : ∀ id' input' stage'', id' ≠ id →
      world.calls id' = some (.create input' stage'') → past stage'' = true →
      past stage' = true → False := by
    intro id' input' stage'' hne hbefore hpast' hnow
    rcases hpast hnow with hwas | ⟨-, hfree⟩
    · exact hne (h.alone id' id input' input stage'' stage hbefore hcall hpast' hwas)
    · rw [hfree id' input' stage'' hbefore] at hpast'
      cases hpast'
  constructor
  · exact hsame
  · intro id₁ id₂ input₁ input₂ stage₁ stage₂ hcall₁ hcall₂ hpast₁ hpast₂
    rcases calls_setCall hcall₁ with ⟨rfl, hnew₁⟩ | ⟨hne₁, hbefore₁⟩
    · rcases calls_setCall hcall₂ with ⟨rfl, -⟩ | ⟨hne₂, hbefore₂⟩
      · rfl
      · cases hnew₁
        exact (hother id₂ input₂ stage₂ hne₂ hbefore₂ hpast₂ hpast₁).elim
    · rcases calls_setCall hcall₂ with ⟨rfl, hnew₂⟩ | ⟨-, hbefore₂⟩
      · cases hnew₂
        exact (hother id₁ input₁ stage₁ hne₁ hbefore₁ hpast₁ hpast₂).elim
      · exact h.alone id₁ id₂ input₁ input₂ stage₁ stage₂ hbefore₁ hbefore₂ hpast₁ hpast₂
  · intro hrow id' input' stage'' hcall'
    rw [hdb.keyRows] at hrow
    rcases calls_setCall hcall' with ⟨rfl, hnew⟩ | ⟨-, hbefore⟩
    · cases hnew
      by_contra hnow
      rw [Bool.not_eq_false] at hnow
      rcases hpast hnow with hwas | ⟨hnone, -⟩
      · exact hrow (h.of_past hcall hwas).1
      · exact hrow hnone
    · exact h.settled hrow id' input' stage'' hbefore
  · rw [hdb.keyRows]
    exact h.due
  · intro event hevent
    obtain ⟨input', row, snapshot, rfl, honly, hread⟩ := h.returned event hevent
    refine ⟨input', row, snapshot, rfl, hdb.keyRows.trans honly, ?_⟩
    exact (Extends.of_eq hdb.snapshots hdb.snapshotEntries).getSnapshotById hread
  · intro id' hlt hnone
    refine h.ended id' hlt ?_
    by_cases hid : id' = id
    · subst hid
      simp [PayoutWorld.setCall] at hnone
    · simpa [PayoutWorld.setCall, Function.update_of_ne hid] using hnone

/-- A call that looks finds the snapshot. -/
theorem AloneInv.finds (h : AloneInv env config base target world history) (id : ℕ)
    (honly : keyRows config target world.db = [row])
    (hread : getSnapshotById world.db row.id = some snapshot) :
    AloneInv env config base target { world.setCall id none with db := world.db }
      (history ++ [.created input (.snapshot snapshot)]) where
  same := h.same.ends id (.refl _)
  alone id₁ id₂ input₁ input₂ stage₁ stage₂ hcall₁ hcall₂ := by
    rcases calls_setCall hcall₁ with ⟨-, hnew⟩ | ⟨-, hbefore₁⟩
    · cases hnew
    · rcases calls_setCall hcall₂ with ⟨-, hnew⟩ | ⟨-, hbefore₂⟩
      · cases hnew
      · exact h.alone id₁ id₂ input₁ input₂ stage₁ stage₂ hbefore₁ hbefore₂
  settled hrow id' input' stage hcall := by
    rcases calls_setCall hcall with ⟨-, hnew⟩ | ⟨-, hbefore⟩
    · cases hnew
    · exact h.settled hrow id' input' stage hbefore
  due := h.due
  returned event hevent := by
    rcases List.mem_append.mp hevent with hbefore | hnow
    · exact h.returned event hbefore
    · exact ⟨input, row, snapshot, List.mem_singleton.mp hnow, honly, hread⟩
  ended _ _ _ := by simp

/-- The call that is past its look stores the snapshot, which is the first that is returned. -/
theorem AloneInv.commits (h : AloneInv env config base target world history)
    (hcall : world.calls id = some (.create input (.commit row entries)))
    (hread : getSnapshotById (storeSnapshot world.db row entries) row.id = some snapshot) :
    AloneInv env config base target
      { world.setCall id none with db := storeSnapshot world.db row entries }
      (history ++ [.created input (.snapshot snapshot)]) := by
  obtain ⟨hsame, honly⟩ := h.same.commits hcall
  have hnone := (h.of_past hcall rfl).1
  have hothers : ∀ id' input' stage, id' ≠ id → world.calls id' = some (.create input' stage) →
      past stage = false := by
    intro id' input' stage hne hbefore
    by_contra hpast
    rw [Bool.not_eq_false] at hpast
    exact hne (h.alone id' id input' input stage _ hbefore hcall hpast rfl)
  constructor
  · exact hsame
  · intro id₁ id₂ input₁ input₂ stage₁ stage₂ hcall₁ hcall₂ hpast₁
    rcases calls_setCall hcall₁ with ⟨-, hnew⟩ | ⟨hne, hbefore₁⟩
    · cases hnew
    · rw [hothers id₁ input₁ stage₁ hne hbefore₁] at hpast₁
      cases hpast₁
  · intro _ id' input' stage hcall'
    rcases calls_setCall hcall' with ⟨-, hnew⟩ | ⟨hne, hbefore⟩
    · cases hnew
    · exact hothers id' input' stage hne hbefore
  · left
    show keyRows config target (storeSnapshot world.db row entries) ≠ []
    rw [honly]
    exact List.cons_ne_nil _ _
  · intro event hevent
    rcases List.mem_append.mp hevent with hbefore | hnow
    · -- nothing was returned before, since there was no row
      obtain ⟨_, _, _, -, hrow, -⟩ := h.returned event hbefore
      rw [hnone] at hrow
      cases hrow
    · exact ⟨input, row, snapshot, List.mem_singleton.mp hnow, honly, hread⟩
  · intro _ _ _
    simp

/-- Every move of a call that looks alone keeps the invariant. -/
theorem AloneInv.move (h : AloneInv env config base target world history) {id : ℕ}
    {input : CreateSnapshotInput} {stage : CreateStage} {result : StatementResult}
    (hcall : world.calls id = some (.create input stage))
    (halone : LooksAlone config target world history (.statement id))
    (hmove : Move env config base target world id input stage result) :
    AloneInv env config base target (applyResult world id result).1
      (history ++ (applyResult world id result).2) := by
  have hsame := h.same.move hcall hmove
  cases hmove with
  | reads before still after holds =>
    rw [show (applyResult world id _).2 = [] from rfl, List.append_nil]
    refine h.goesOn hcall (.refl _) hsame fun hpast => ?_
    rw [after] at hpast
    cases hpast
  | finds only read => exact h.finds id only read
  | passes none after holds free =>
    rw [show (applyResult world id _).2 = [] from rfl, List.append_nil]
    refine h.goesOn hcall (.refl _) hsame fun _ => .inr ⟨none, ?_⟩
    exact (halone input _ hcall).resolve_left fun hrow => hrow none
  | computes before after holds free free' =>
    rw [show (applyResult world id _).2 = [] from rfl, List.append_nil]
    exact h.goesOn hcall (.refl _) hsame fun _ => .inl before
  | paysNobody before none =>
    obtain ⟨-, entries, count, hentries, -⟩ := h.of_past hcall before
    rw [none] at hentries
    cases hentries
  | waits before other =>
    rw [show (applyResult world id _).2 = [] from rfl, List.append_nil]
    exact h
  | conflicts before taken => exact absurd (h.of_past hcall before).1 taken
  | inserts before free none rowId holds =>
    rw [show (applyResult world id _).2 = [] from rfl, List.append_nil]
    exact h.goesOn hcall (.takesId _) hsame fun _ => .inl before
  | entry before after holds =>
    rw [show (applyResult world id _).2 = [] from rfl, List.append_nil]
    refine h.goesOn hcall (.refl _) hsame fun _ => .inl ?_
    cases stage <;> simp_all [insertedRow, past]
  | twice before doubled => exact absurd (h.of_past hcall before).2 doubled
  | commits storable read => exact h.commits hcall read

theorem AloneInv.begin (h : AloneInv env config base target world history)
    (hfor : CallFor config base target input) :
    AloneInv env config base target (world.begin (.create input .readFactor)) history where
  same := h.same.begin hfor
  alone id₁ id₂ input₁ input₂ stage₁ stage₂ hcall₁ hcall₂ hpast₁ hpast₂ := by
    rcases calls_setCall hcall₁ with ⟨-, hnew⟩ | ⟨-, hbefore₁⟩
    · cases hnew
      cases hpast₁
    · rcases calls_setCall hcall₂ with ⟨-, hnew⟩ | ⟨-, hbefore₂⟩
      · cases hnew
        cases hpast₂
      · exact h.alone id₁ id₂ input₁ input₂ stage₁ stage₂ hbefore₁ hbefore₂ hpast₁ hpast₂
  settled hrow id input' stage hcall := by
    rcases calls_setCall hcall with ⟨-, hnew⟩ | ⟨-, hbefore⟩
    · cases hnew
      rfl
    · exact h.settled hrow id input' stage hbefore
  due := h.due
  returned := h.returned
  ended id hlt hnone := by
    have hne : id ≠ world.nextCall := by
      rintro rfl
      simp [PayoutWorld.begin, PayoutWorld.setCall] at hnone
    have hbefore : world.calls id = none := by
      simpa [PayoutWorld.begin, PayoutWorld.setCall, Function.update_of_ne hne] using hnone
    have hlt' : id < world.nextCall + 1 := hlt
    exact h.ended id (by omega) hbefore

theorem AloneInv.step (h : AloneInv env config base target world history) {input : PayoutInput}
    (honly : OnlyCallsFor config base target input)
    (halone : LooksAlone config target world history input) :
    AloneInv env config base target (payoutStep env config world input).1
      (history ++ (payoutStep env config world input).2) := by
  rcases sameStep_cases h.same honly with ⟨create, -, hfor, hstep⟩ | ⟨-, -, hstep⟩ |
    ⟨id, create, stage, result, rfl, hcall, hmove, hstep⟩
  · rw [hstep, List.append_nil]
    exact h.begin hfor
  · rw [hstep, List.append_nil]
    exact h
  · rw [hstep]
    exact h.move hcall halone hmove

/-- At the end of a run in which every call looked alone, all have returned the snapshot. -/
theorem AloneInv.oneSnapshot (h : AloneInv env config base target world history)
    (hended : ∀ id, world.calls id = none) (hmade : 0 < world.nextCall) :
    ∃ row snapshot, OneSnapshot config target world.db history row snapshot := by
  obtain ⟨event, hevent⟩ := List.exists_mem_of_ne_nil _ (h.ended 0 hmade (hended 0))
  obtain ⟨-, row, snapshot, -, honly, hread⟩ := h.returned event hevent
  refine ⟨row, snapshot, honly, hread, ?_, ?_⟩
  · -- an address that is twice under one snapshot is twice in the index
    have hsub : ((world.db.snapshotEntries.filter fun entryRow =>
        entryRow.snapshotId = row.id).map fun entryRow =>
          (entryRow.snapshotId, entryRow.entry.address)).Nodup :=
      h.same.tables.addresses.sublist (List.filter_sublist.map _)
    have hpairs : (world.db.snapshotEntries.filter fun entryRow =>
        entryRow.snapshotId = row.id).map (fun entryRow =>
          (entryRow.snapshotId, entryRow.entry.address))
        = ((world.db.snapshotEntries.filter fun entryRow => entryRow.snapshotId = row.id).map
          (·.entry.address)).map (row.id, ·) := by
      rw [List.map_map]
      refine List.map_congr_left fun entryRow hentry => ?_
      rw [show entryRow.snapshotId = row.id from of_decide_eq_true (List.mem_filter.mp hentry).2]
      rfl
    rw [hpairs] at hsub
    exact hsub.of_map _
  · intro other hother
    obtain ⟨input, row', snapshot', rfl, honly', hread'⟩ := h.returned other hother
    rw [honly] at honly'
    cases honly'
    rw [hread] at hread'
    cases hread'
    exact ⟨input, rfl⟩

/-! ### Calls that are bound to fail -/

/-- Two calls are past their look, or one is while the row is there. -/
def Doomed (config : PayoutConfig) (target : TemplateWindow) (world : PayoutWorld) : Prop :=
  ∃ id input stage, world.calls id = some (.create input stage) ∧ past stage = true ∧
    (keyRows config target world.db ≠ [] ∨ ∃ id' input' stage', id' ≠ id ∧
      world.calls id' = some (.create input' stage') ∧ past stage' = true)

/-- A call did not return a snapshot. -/
def Spoils (event : PayoutEvent) : Prop :=
  ∀ input snapshot, event ≠ .created input (.snapshot snapshot)

theorem calls_of_ne {id' : ℕ} {call : Option PayoutCall} (hne : id' ≠ id) :
    (world.setCall id call).calls id' = world.calls id' := by
  simp [PayoutWorld.setCall, Function.update_of_ne hne]

/-- The calls are as doomed as before when one of them goes on that does not get out of it. -/
theorem Doomed.goesOn (h : Doomed config target world) {id : ℕ} {input : CreateSnapshotInput}
    {stage stage' : CreateStage} {db : Database}
    (hcall : world.calls id = some (.create input stage)) (hdb : RowsStay world.db db)
    (hpast : past stage = true → past stage' = true) :
    Doomed config target { world.setCall id (some (.create input stage')) with db := db } := by
  -- each call that was past its look still is
  have hstays : ∀ id' input' stage'', world.calls id' = some (.create input' stage'') →
      past stage'' = true → ∃ input₁ stage₁,
        (world.setCall id (some (.create input stage'))).calls id' = some (.create input₁ stage₁) ∧
          past stage₁ = true := by
    intro id' input' stage'' hcall' hpast'
    by_cases hid : id' = id
    · subst hid
      rw [hcall] at hcall'
      cases hcall'
      exact ⟨input, stage', by simp [PayoutWorld.setCall], hpast hpast'⟩
    · exact ⟨input', stage'', (calls_of_ne hid).trans hcall', hpast'⟩
  obtain ⟨id₁, input₁, stage₁, hcall₁, hpast₁, hwhy⟩ := h
  obtain ⟨input₂, stage₂, hcall₂, hpast₂⟩ := hstays id₁ input₁ stage₁ hcall₁ hpast₁
  refine ⟨id₁, input₂, stage₂, hcall₂, hpast₂, ?_⟩
  rcases hwhy with hrow | ⟨id', input', stage'', hne, hcall', hpast'⟩
  · left
    show keyRows config target db ≠ []
    rw [hdb.keyRows]
    exact hrow
  · obtain ⟨input₃, stage₃, hcall₃, hpast₃⟩ := hstays id' input' stage'' hcall' hpast'
    exact .inr ⟨id', input₃, stage₃, hne, hcall₃, hpast₃⟩

/-- A call that was not past its look ends. -/
theorem Doomed.ends (h : Doomed config target world)
    (hcall : world.calls id = some (.create input stage)) (hpast : past stage = false) :
    Doomed config target { world.setCall id none with db := world.db } := by
  have hother : ∀ id' input' stage', world.calls id' = some (.create input' stage') →
      past stage' = true → (world.setCall id none).calls id' = some (.create input' stage') := by
    intro id' input' stage' hcall' hpast'
    have hne : id' ≠ id := by
      rintro rfl
      rw [hcall] at hcall'
      cases hcall'
      rw [hpast] at hpast'
      cases hpast'
    exact (calls_of_ne hne).trans hcall'
  obtain ⟨id₁, input₁, stage₁, hcall₁, hpast₁, hwhy⟩ := h
  refine ⟨id₁, input₁, stage₁, hother id₁ input₁ stage₁ hcall₁ hpast₁, hpast₁, ?_⟩
  rcases hwhy with hrow | ⟨id', input', stage', hne, hcall', hpast'⟩
  · exact .inl hrow
  · exact .inr ⟨id', input', stage', hne, hother id' input' stage' hcall' hpast', hpast'⟩

/-- When one of the doomed calls commits, the other one finds the row taken. -/
theorem Doomed.commits (h : Doomed config target world)
    (hsame : SameInv env config base target world)
    (hcall : world.calls id = some (.create input (.commit row entries))) :
    Doomed config target
      { world.setCall id none with db := storeSnapshot world.db row entries } := by
  obtain ⟨-, -, -, hnone⟩ := hsame.fresh id input _ row hcall rfl
  have honly := (hsame.commits hcall).2
  have htaken : keyRows config target (storeSnapshot world.db row entries) ≠ [] := by
    rw [honly]
    exact List.cons_ne_nil _ _
  have hother : ∃ id' input' stage', id' ≠ id ∧
      world.calls id' = some (.create input' stage') ∧ past stage' = true := by
    obtain ⟨id₁, input₁, stage₁, hcall₁, hpast₁, hwhy⟩ := h
    by_cases hid : id₁ = id
    · subst hid
      exact hwhy.resolve_left fun hrow => hrow hnone
    · exact ⟨id₁, input₁, stage₁, hid, hcall₁, hpast₁⟩
  obtain ⟨id', input', stage', hne, hcall', hpast'⟩ := hother
  exact ⟨id', input', stage', (calls_of_ne hne).trans hcall', hpast', .inl htaken⟩

/-- Calls that are doomed stay so, until one has failed. -/
theorem Doomed.step (h : Doomed config target world)
    (hsame : SameInv env config base target world) {input : PayoutInput}
    (honly : OnlyCallsFor config base target input) :
    (∃ event ∈ (payoutStep env config world input).2, Spoils event) ∨
      Doomed config target (payoutStep env config world input).1 := by
  rcases sameStep_cases hsame honly with ⟨create, -, hfor, hstep⟩ | ⟨-, -, hstep⟩ |
    ⟨id, create, stage, result, -, hcall, hmove, hstep⟩
  · right
    rw [hstep]
    have hfresh : ∀ id' call, world.calls id' = some call → id' ≠ world.nextCall :=
      fun id' call hcall => Nat.ne_of_lt (hsame.calls id' call hcall).1
    obtain ⟨id₁, input₁, stage₁, hcall₁, hpast₁, hwhy⟩ := h
    refine ⟨id₁, input₁, stage₁, (calls_of_ne (hfresh id₁ _ hcall₁)).trans hcall₁, hpast₁, ?_⟩
    rcases hwhy with hrow | ⟨id', input', stage', hne, hcall', hpast'⟩
    · exact .inl hrow
    · exact .inr ⟨id', input', stage', hne,
        (calls_of_ne (hfresh id' _ hcall')).trans hcall', hpast'⟩
  · right
    rw [hstep]
    exact h
  · rw [hstep]
    have hspoils : ∀ result : CreateSnapshotResult, (∀ snapshot, result ≠ .snapshot snapshot) →
        Spoils (.created create result) := by
      intro result hne input' snapshot heq
      cases heq
      exact hne snapshot rfl
    cases hmove with
    | reads before still after holds =>
      refine .inr (h.goesOn hcall (.refl _) fun hpast => ?_)
      rw [before] at hpast
      cases hpast
    | finds only read => exact .inr (h.ends hcall rfl)
    | passes none after holds free => exact .inr (h.goesOn hcall (.refl _) fun _ => after)
    | computes before after holds free free' =>
      exact .inr (h.goesOn hcall (.refl _) fun _ => after)
    | paysNobody before none =>
      exact .inl ⟨_, List.mem_singleton_self _, hspoils _ (by simp)⟩
    | waits before other => exact .inr h
    | conflicts before taken =>
      exact .inl ⟨_, List.mem_singleton_self _, hspoils _ (by simp)⟩
    | inserts before free none rowId holds =>
      exact .inr (h.goesOn hcall (.takesId _) fun _ => rfl)
    | entry before after holds =>
      rename_i stage' row
      refine .inr (h.goesOn hcall (.refl _) fun _ => ?_)
      cases stage' <;> simp_all [insertedRow, past]
    | twice before doubled =>
      exact .inl ⟨_, List.mem_singleton_self _, hspoils _ (by simp)⟩
    | commits storable read => exact .inr (h.commits hsame hcall)

/-- A run with doomed calls does not come to its end without a failure. -/
theorem Doomed.run (inputs : List PayoutInput) (world : PayoutWorld)
    (h : Doomed config target world) (hsame : SameInv env config base target world)
    (honly : ∀ input ∈ inputs, OnlyCallsFor config base target input)
    (hended : ∀ id, ((payoutMachine env config).final world inputs).calls id = none) :
    ∃ event ∈ (payoutMachine env config).history world inputs, Spoils event := by
  induction inputs generalizing world with
  | nil =>
    obtain ⟨id, input, stage, hcall, -⟩ := h
    rw [Machine.final_nil] at hended
    rw [hended id] at hcall
    cases hcall
  | cons input inputs ih =>
    have hfirst := honly input List.mem_cons_self
    rcases h.step hsame hfirst with ⟨event, hevent, hspoils⟩ | hdoomed
    · exact ⟨event, List.mem_append_left _ hevent, hspoils⟩
    · obtain ⟨event, hevent, hspoils⟩ := ih _ hdoomed (hsame.step hfirst)
        (fun input hinput => honly input (List.mem_cons_of_mem _ hinput)) hended
      exact ⟨event, List.mem_append_right _ hevent, hspoils⟩

/-- A call that does not look alone is doomed with another one. -/
theorem doomed_of_not_alone (hsame : SameInv env config base target world) {input : PayoutInput}
    (halone : ¬ LooksAlone config target world history input) :
    Doomed config target (payoutStep env config world input).1 := by
  cases input with
  | statement id =>
    simp only [LooksAlone, not_forall, not_or, not_not, Bool.not_eq_false] at halone
    obtain ⟨create, window, hcall, hnone, id', input', stage', hcall', hpast'⟩ := halone
    have hne : id' ≠ id := by
      rintro rfl
      rw [hcall] at hcall'
      cases hcall'
      cases hpast'
    rw [payoutStep_statement hcall]
    have hmove := move_statement hsame hcall
    generalize createStatement env config world id create (.readExisting window) = result at hmove
    cases hmove with
    | passes none after holds free =>
      refine ⟨id', input', stage', (calls_of_ne hne).trans hcall', hpast', .inr ?_⟩
      exact ⟨id, create, _, hne.symm, by simp [applyResult, PayoutWorld.setCall], after⟩
    | finds only read =>
      rw [hnone] at only
      cases only
    | reads before still after holds => exact absurd rfl (still window)
    | computes before after holds free free' => cases before
    | paysNobody before none => cases before
    | waits before other => cases before
    | conflicts before taken => cases before
    | inserts before free none rowId holds => cases before
    | entry before after holds => cases before
    | twice before doubled => cases before
  | createSnapshotForTemplate | finalizeSnapshotForBlock | rollback | rollup =>
    exact absurd trivial halone

/-! ### Runs -/

variable (inputs : List PayoutInput) (world : PayoutWorld)

/-- The calls of a run look alone when it comes to its end without a failure. -/
theorem along_of_unspoiled (history : List PayoutEvent)
    (hsame : SameInv env config base target world)
    (honly : ∀ input ∈ inputs, OnlyCallsFor config base target input)
    (hended : ∀ id, ((payoutMachine env config).final world inputs).calls id = none)
    (hclean : ∀ event ∈ (payoutMachine env config).history world inputs, ¬ Spoils event) :
    (payoutMachine env config).Along (LooksAlone config target) world history inputs := by
  induction inputs generalizing world history with
  | nil => trivial
  | cons input inputs ih =>
    have hfirst := honly input List.mem_cons_self
    have hrest : ∀ input ∈ inputs, OnlyCallsFor config base target input :=
      fun input hinput => honly input (List.mem_cons_of_mem _ hinput)
    have hlater : ∀ event ∈ (payoutMachine env config).history
        (payoutStep env config world input).1 inputs, ¬ Spoils event :=
      fun event hevent => hclean event (List.mem_append_right _ hevent)
    refine ⟨?_, ih _ _ (hsame.step hfirst) hrest hended hlater⟩
    by_contra halone
    obtain ⟨event, hevent, hspoils⟩ := (doomed_of_not_alone hsame halone).run inputs _
      (hsame.step hfirst) hrest hended
    exact hlater event hevent hspoils

/-- Without a row, and with nothing to store, no row comes. -/
theorem keyRows_run (hsame : SameInv env config base target world)
    (honly : ∀ input ∈ inputs, OnlyCallsFor config base target input)
    (hnone : keyRows config target world.db = []) (hdue : ¬ Storable env config base target) :
    keyRows config target ((payoutMachine env config).final world inputs).db = [] := by
  induction inputs generalizing world with
  | nil => exact hnone
  | cons input inputs ih =>
    have hfirst := honly input List.mem_cons_self
    refine ih _ (hsame.step hfirst)
      (fun input hinput => honly input (List.mem_cons_of_mem _ hinput)) ?_
    show keyRows config target (payoutStep env config world input).1.db = []
    rcases sameStep_cases hsame hfirst with ⟨create, -, -, hstep⟩ | ⟨-, -, hstep⟩ |
      ⟨id, create, stage, result, -, hcall, hmove, hstep⟩
    · rw [hstep]
      exact hnone
    · rw [hstep]
      exact hnone
    · rw [hstep]
      cases hmove with
      | commits storable read => exact absurd storable hdue
      | conflicts before taken => exact absurd hnone taken
      | reads | finds | passes | computes | paysNobody | waits | inserts | entry | twice =>
        exact hnone

theorem sameInv_run (hsame : SameInv env config base target world)
    (honly : ∀ input ∈ inputs, OnlyCallsFor config base target input) :
    SameInv env config base target ((payoutMachine env config).final world inputs) := by
  induction inputs generalizing world with
  | nil => exact hsame
  | cons input inputs ih =>
    exact ih _ (hsame.step (honly input List.mem_cons_self))
      (fun input hinput => honly input (List.mem_cons_of_mem _ hinput))

/-- Every call that was made is counted. -/
theorem nextCall_run (hsame : SameInv env config base target world)
    (honly : ∀ input ∈ inputs, OnlyCallsFor config base target input)
    (hmade : 0 < world.nextCall ∨ ∃ input, .createSnapshotForTemplate input ∈ inputs) :
    0 < ((payoutMachine env config).final world inputs).nextCall := by
  induction inputs generalizing world with
  | nil => exact hmade.resolve_right (by simp)
  | cons input inputs ih =>
    have hfirst := honly input List.mem_cons_self
    refine ih _ (hsame.step hfirst)
      (fun input hinput => honly input (List.mem_cons_of_mem _ hinput)) ?_
    show 0 < (payoutStep env config world input).1.nextCall ∨ _
    have hstatement : ∀ id, input = .statement id →
        0 < world.nextCall ∨ ∃ input, .createSnapshotForTemplate input ∈ inputs := by
      rintro id rfl
      refine hmade.imp_right ?_
      rintro ⟨create, hcreate⟩
      refine ⟨create, (List.mem_cons.mp hcreate).resolve_left (by simp)⟩
    rcases sameStep_cases hsame hfirst with ⟨create, -, -, hstep⟩ | ⟨id, heq, hstep⟩ |
      ⟨id, create, stage, result, heq, hcall, hmove, hstep⟩
    · rw [hstep]
      exact .inl (Nat.succ_pos _)
    · rw [hstep]
      exact hstatement id heq
    · rw [hstep, applyResult_nextCall]
      exact hstatement id heq

end

/-- The calls of a run start on a database that no call is under way on. -/
def callsOn (base : Database) : PayoutWorld where
  db := base
  calls _ := none
  nextCall := 0

theorem sameInv_callsOn {env : PayoutEnv} {config : PayoutConfig} {base : Database}
    {target : TemplateWindow} (htables : SnapshotTables config target base) :
    SameInv env config base target (callsOn base) where
  rollupBatches := rfl
  rollupSummaries := rfl
  ledger := rfl
  tables := htables
  calls _ _ hcall := by cases hcall
  fresh _ _ _ _ hcall := by cases hcall
  one _ _ _ _ _ _ hcall := by cases hcall

/-- In every interleaving of the statements of any number of calls for one template and window, the
calls return one and the same snapshot, of one row with one set of entries, if and only if the table
had it at the start, or the distribution can be stored and every call looks alone. -/
theorem same_snapshot_iff (env : PayoutEnv) (config : PayoutConfig) (base : Database)
    (target : TemplateWindow) (inputs : List PayoutInput)
    (htables : SnapshotTables config target base)
    (honly : ∀ input ∈ inputs, OnlyCallsFor config base target input)
    (hmade : ∃ input, .createSnapshotForTemplate input ∈ inputs)
    (hended : ∀ id, ((payoutMachine env config).final (callsOn base) inputs).calls id = none) :
    (∃ row snapshot, OneSnapshot config target
        ((payoutMachine env config).final (callsOn base) inputs).db
        ((payoutMachine env config).history (callsOn base) inputs) row snapshot) ↔
      (keyRows config target base ≠ [] ∨ Storable env config base target) ∧
        (payoutMachine env config).Along (LooksAlone config target) (callsOn base) [] inputs := by
  have hsame := @sameInv_callsOn env config base target htables
  constructor
  · rintro ⟨row, snapshot, hone⟩
    constructor
    · by_contra hdue
      obtain ⟨hrow, hstorable⟩ := not_or.mp hdue
      have hnone := keyRows_run inputs (callsOn base) hsame honly (not_not.mp hrow) hstorable
      rw [hone.only] at hnone
      cases hnone
    · refine along_of_unspoiled inputs (callsOn base) [] hsame honly hended ?_
      intro event hevent hspoils
      obtain ⟨input, heq⟩ := hone.returned event hevent
      exact hspoils input snapshot heq
  · rintro ⟨hdue, halone⟩
    have hstart : AloneInv env config base target (callsOn base) [] :=
      { same := hsame
        alone := fun _ _ _ _ _ _ hcall => by cases hcall
        settled := fun _ _ _ _ hcall => by cases hcall
        due := hdue
        returned := fun _ hevent => absurd hevent List.not_mem_nil
        ended := fun _ hlt => absurd hlt (Nat.not_lt_zero _) }
    have hboth : (payoutMachine env config).Along (fun world history input =>
        OnlyCallsFor config base target input ∧ LooksAlone config target world history input)
        (callsOn base) [] inputs :=
      Machine.Along.and _ ((payoutMachine env config).along_of_forall_mem honly _ _) halone
    have hrun := @Machine.history_invariant _ _ _ (payoutMachine env config)
      (AloneInv env config base target) _ (fun _ _ _ h hcond => h.step hcond.1 hcond.2) _ _ hstart
      inputs hboth
    exact hrun.oneSnapshot hended
      (nextCall_run inputs (callsOn base) hsame honly (.inr hmade))

/-! ### Two calls for one template -/

deriving instance DecidableEq for PplnsWindow

namespace TwoCallsSample

/-- One miner has done all the work. -/
def base : Database where
  rollupBatches := [⟨1, 1, 10, 10, 100⟩]
  rollupSummaries := [⟨1, "A", 100, 10⟩]
  snapshots := []
  snapshotEntries := []
  ledger := { balances := .empty, history := .empty }
  nextSnapshotId := 1

def target : TemplateWindow where
  blockHeight := 5
  coinbaseValueSats := 1000
  window :=
    { startBatchId := 1
      endBatchId := 1
      windowStartShareIndex := 1
      windowEndShareIndex := 10
      totalCreditedDifficulty := 100
      totalAcceptedShareCount := 10 }

/-- The run of the block and the run of the timer ask for the same snapshot, and take turns. -/
def inputs (turns : List ℕ) : List PayoutInput :=
  List.replicate 2 (.createSnapshotForTemplate ⟨5, 1000, 100⟩) ++ turns.map .statement

/-- The second call starts when the first one is through. -/
def inTurn : List ℕ := List.replicate 9 0 ++ List.replicate 3 1

/-- The second call looks when the first one has looked and not inserted yet. -/
def interleaved : List ℕ := List.replicate 3 0 ++ List.replicate 5 1 ++ List.replicate 6 0 ++ [1]

def returnsSnapshot : PayoutEvent → Bool
  | .created _ (.snapshot _) => true
  | _ => false

theorem unspoiled_of_all {history : List PayoutEvent} (h : history.all returnsSnapshot = true) :
    ∀ event ∈ history, ¬ Spoils event := by
  intro event hevent hspoils
  have hreturns := List.all_eq_true.mp h event hevent
  unfold returnsSnapshot at hreturns
  split at hreturns
  · exact hspoils _ _ rfl
  · cases hreturns

def fails : PayoutEvent → Bool
  | .created _ .failed => true
  | _ => false

theorem eq_failed_of_fails {event : PayoutEvent} (h : fails event = true) :
    ∃ input, event = .created input .failed := by
  unfold fails at h
  split at h
  · exact ⟨_, rfl⟩
  · cases h

theorem tables : SnapshotTables sampleConfig target base where
  ids := List.nodup_nil
  ids_lt _ hrow := by cases hrow
  references _ hrow := by cases hrow
  addresses := List.nodup_nil
  keyed := Nat.zero_le 1

theorem onlyCalls (turns : List ℕ) :
    ∀ input ∈ inputs turns, OnlyCallsFor sampleConfig base target input := by
  intro input hinput
  rcases List.mem_append.mp hinput with hcreate | hturn
  · rw [List.eq_of_mem_replicate hcreate]
    exact { blockHeight := rfl, coinbaseValueSats := rfl, starts := by decide +kernel,
            window := by decide +kernel, worked := by decide +kernel }
  · obtain ⟨id, -, rfl⟩ := List.mem_map.mp hturn
    trivial

theorem ended (turns : List ℕ)
    (h : ∀ id < ((payoutMachine sampleEnv sampleConfig).final (callsOn base)
      (inputs turns)).nextCall, (((payoutMachine sampleEnv sampleConfig).final (callsOn base)
        (inputs turns)).calls id).isNone) (id : ℕ) :
    ((payoutMachine sampleEnv sampleConfig).final (callsOn base) (inputs turns)).calls id
      = none := by
  by_contra hsome
  obtain ⟨call, hcall⟩ := Option.ne_none_iff_exists'.mp hsome
  have hstart : SameInv sampleEnv sampleConfig base target (callsOn base) := sameInv_callsOn tables
  have hsame := sameInv_run (inputs turns) (callsOn base) hstart (onlyCalls turns)
  have hnone := h id (hsame.calls id call hcall).1
  rw [hcall] at hnone
  cases hnone

end TwoCallsSample

open TwoCallsSample in
/-- One call after the other: the second one finds the snapshot of the first. -/
theorem same_snapshot_inTurn :
    ∃ row snapshot, OneSnapshot sampleConfig target
      ((payoutMachine sampleEnv sampleConfig).final (callsOn base) (inputs inTurn)).db
      ((payoutMachine sampleEnv sampleConfig).history (callsOn base) (inputs inTurn))
      row snapshot := by
  refine (same_snapshot_iff sampleEnv sampleConfig base target (inputs inTurn) tables
    (onlyCalls inTurn) ⟨_, List.mem_cons_self⟩ (ended inTurn (by decide +kernel))).mpr ⟨.inr ?_, ?_⟩
  · have hstored : ∃ distributed ∈ targetDistribution sampleEnv sampleConfig base target,
        (distributed.1.map (·.address)).Nodup := by decide +kernel
    obtain ⟨⟨entries, count⟩, hdistribution, hnodup⟩ := hstored
    exact ⟨entries, count, hdistribution, hnodup⟩
  · exact along_of_unspoiled _ _ _ (sameInv_callsOn tables) (onlyCalls inTurn)
      (ended inTurn (by decide +kernel)) (unspoiled_of_all (by decide +kernel))

open TwoCallsSample in
/-- Both calls find no snapshot. The second one to insert waits for the first and then violates
the unique index: it fails, and its template goes out without payout outputs. -/
theorem not_same_snapshot :
    (∀ input ∈ inputs interleaved, OnlyCallsFor sampleConfig base target input) ∧
      (∀ id, ((payoutMachine sampleEnv sampleConfig).final (callsOn base)
        (inputs interleaved)).calls id = none) ∧
      (∃ input, .created input .failed ∈
        (payoutMachine sampleEnv sampleConfig).history (callsOn base) (inputs interleaved)) ∧
      ¬ ∃ row snapshot, OneSnapshot sampleConfig target
        ((payoutMachine sampleEnv sampleConfig).final (callsOn base) (inputs interleaved)).db
        ((payoutMachine sampleEnv sampleConfig).history (callsOn base) (inputs interleaved))
        row snapshot := by
  have hfails : ((payoutMachine sampleEnv sampleConfig).history (callsOn base)
      (inputs interleaved)).any fails = true := by decide +kernel
  obtain ⟨event, hevent, hfail⟩ := List.any_eq_true.mp hfails
  obtain ⟨input, rfl⟩ := eq_failed_of_fails hfail
  refine ⟨onlyCalls interleaved, ended interleaved (by decide +kernel), ⟨input, hevent⟩, ?_⟩
  rintro ⟨row, snapshot, hone⟩
  obtain ⟨input', heq⟩ := hone.returned _ hevent
  simp at heq

end PublicPool.Proofs
