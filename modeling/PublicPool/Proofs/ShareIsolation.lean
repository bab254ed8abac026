import PublicPool.Proofs.WriteQueue
import PublicPool.ShareAccounting.ShareTable
import PublicPool.Sv1.Client

/-!
# `PublicPool.Proofs.ShareIsolation`: one bad row fails its batch

A share that the table would store in a statement of its own should be stored, whatever else is in
its batch. The queue inserts a batch with one statement, so this holds of exactly those runs in
which no insert mixes shares that the table would store with shares that it would not
(`isolated_iff_unmixed`). `not_isolated` is a run with such an insert: the nonce of another miner
has a character U+0000 in it, which the validators of `mining.submit` let through.

That nothing is lost on the way to an insert is the invariant `Sound` of the queue. What a run adds
to it is `InsertSound`: each insert did what the table says, and its shares were told so.
-/

set_option autoImplicit false

namespace PublicPool.Proofs

open Lib (Machine TableRules)
open ShareAccounting

/-! ### What the history says -/

/-- What the queue did. -/
def queueEvents (history : List StoreEvent) : List (QueueEvent AcceptedShareEntity) :=
  history.filterMap fun
    | .queue event => some event
    | .insertRan .. => none

@[simp] theorem queueEvents_append (history more : List StoreEvent) :
    queueEvents (history ++ more) = queueEvents history ++ queueEvents more :=
  List.filterMap_append

@[simp] theorem queueEvents_map_queue (events : List (QueueEvent AcceptedShareEntity)) :
    queueEvents (events.map .queue) = events := by
  induction events with
  | nil => rfl
  | cons event events ih =>
    show event :: queueEvents (events.map .queue) = _
    rw [ih]

/-- A share was stored by an insert, and its promise resolved. -/
def Saved (history : List StoreEvent) (after : List AcceptedShareEntity)
    (share : PendingShare AcceptedShareEntity) : Prop :=
  (∃ row, shareRow share.entity = some row ∧ row ∈ after) ∧
    .queue (.resolved share) ∈ history

/-- What the callers of `recordAcceptedShare` expect of the table: a share that was queued is
inserted or still on its way, and an insert saves every share that the table would store alone. -/
structure Isolated (service : ShareAccountingService AcceptedShareEntity)
    (history : List StoreEvent) : Prop where
  inserted : ∀ share ∈ queuedOf (queueEvents history),
    share ∈ (inFlight service.flushes).flatten ++ service.pendingShares ∨
      ∃ table batch after, .insertRan table batch after ∈ history ∧ share ∈ batch
  saved : ∀ table batch after, .insertRan table batch after ∈ history →
    ∀ share ∈ shareTable.storable table batch, Saved history after share

/-- The batch that is inserted now, if it is. -/
def batchInserted (store : ShareStore) :
    StoreInput → Option (List (PendingShare AcceptedShareEntity))
  | .insertSettles k =>
    match store.service.flushes[k]? with
    | some (.inserting batch) => some batch
    | _ => none
  | _ => none

/-- The table would store all shares of a batch one by one, or none. -/
def Unmixed (table : List AcceptedShareEntity) (batch : List (PendingShare AcceptedShareEntity)) :
    Prop :=
  shareTable.storable table batch = batch ∨ shareTable.storable table batch = []

/-- What is inserted now is not mixed. -/
def InsertsUnmixed (store : ShareStore) (_ : List StoreEvent) (input : StoreInput) : Prop :=
  ∀ batch ∈ batchInserted store input, Unmixed store.table batch

/-! ### One step -/

section Step
variable {config : QueueConfig} {store : ShareStore} {history : List StoreEvent}

/-- What the table holds after the insert of a batch. -/
def afterInsert (table : List AcceptedShareEntity)
    (batch : List (PendingShare AcceptedShareEntity)) : List AcceptedShareEntity :=
  (shareTable.insertRows table batch).getD table

variable {batch : List (PendingShare AcceptedShareEntity)} {input : StoreInput}

/-- The events of the step that inserts a batch. -/
theorem insertSettles_events {k : ℕ} (hflush : store.service.flushes[k]? = some (.inserting batch))
    :
    (store.insertSettles k).2 = .insertRan store.table batch (afterInsert store.table batch) ::
      (ShareAccountingService.settle batch
        (shareTable.insertRows store.table batch).isSome).map .queue := by
  unfold ShareStore.insertSettles ShareAccountingService.insertSettles
  rw [hflush]
  rfl

/-- An insert runs when a step inserts a batch, and only then. -/
theorem insertRan_mem_step {table after : List AcceptedShareEntity} :
    StoreEvent.insertRan table batch after ∈ (store.step config input).2 ↔
      batchInserted store input = some batch ∧ table = store.table ∧
        after = afterInsert store.table batch := by
  have hqueue : ∀ queued : QueueInput AcceptedShareEntity,
      StoreEvent.insertRan table batch after ∉ (store.queueStep config queued).2 := by
    intro queued hmem
    obtain ⟨event, -, heq⟩ := List.mem_map.mp hmem
    cases heq
  cases input with
  | recordAcceptedShare record now => simp [ShareStore.step, hqueue, batchInserted]
  | timer => simp [ShareStore.step, hqueue, batchInserted]
  | finallyFlush k => simp [ShareStore.step, hqueue, batchInserted]
  | flushPendingShares => simp [ShareStore.step, hqueue, batchInserted]
  | tableChanges changed => simp [ShareStore.step, batchInserted]
  | insertSettles k =>
    show StoreEvent.insertRan table batch after ∈ (store.insertSettles k).2 ↔ _
    cases hflush : store.service.flushes[k]? with
    | none => simp [ShareStore.insertSettles, hflush, batchInserted]
    | some flush =>
      cases flush with
      | settled => simp [ShareStore.insertSettles, hflush, batchInserted]
      | inserting inserting =>
        rw [insertSettles_events hflush]
        simp [batchInserted, hflush]
        grind

/-- The queue of a step is the queue without its table, with the outcome that the table gave. -/
theorem sound_step (h : Sound config store.service (queueEvents history)) (input : StoreInput) :
    Sound config (store.step config input).1.service
      (queueEvents (history ++ (store.step config input).2)) := by
  have hqueue : ∀ queued : QueueInput AcceptedShareEntity,
      Sound config (store.queueStep config queued).1.service
        (queueEvents (history ++ (store.queueStep config queued).2)) := by
    intro queued
    rw [queueEvents_append, ShareStore.queueStep, queueEvents_map_queue]
    exact h.step queued
  cases input with
  | recordAcceptedShare record now => exact hqueue _
  | timer => exact hqueue _
  | finallyFlush k => exact hqueue _
  | flushPendingShares => exact hqueue _
  | tableChanges changed =>
    show Sound config store.service (queueEvents (history ++ []))
    rw [List.append_nil]
    exact h
  | insertSettles k =>
    show Sound config (store.insertSettles k).1.service
      (queueEvents (history ++ (store.insertSettles k).2))
    unfold ShareStore.insertSettles
    split
    · rename_i batch hflush
      have hstep := h.insertSettles k (shareTable.insertRows store.table batch).isSome
      rw [queueEvents_append]
      show Sound config _ (queueEvents history ++ queueEvents (List.map _ _))
      rw [queueEvents_map_queue]
      exact hstep
    · rw [List.append_nil]
      exact h

/-- Only the end of an insert settles promises. -/
theorem outcomesOf_queueStep (service : ShareAccountingService AcceptedShareEntity)
    {queued : QueueInput AcceptedShareEntity} (hother : ∀ k succeeded,
      queued ≠ .insertSettles k succeeded) :
    outcomesOf (service.step config queued).2 = [] := by
  have hstart : ∀ service : ShareAccountingService AcceptedShareEntity,
      outcomesOf (service.startFlush config).2 = [] := by
    intro service
    unfold ShareAccountingService.startFlush
    split
    · rfl
    · split <;> rfl
  cases queued with
  | recordAcceptedShare entity =>
    simp only [ShareAccountingService.step, ShareAccountingService.recordAcceptedShare]
    split
    · rfl
    · split
      · exact hstart _
      · rfl
  | timer =>
    simp only [ShareAccountingService.step, ShareAccountingService.timerFires]
    split
    · exact hstart _
    · rfl
  | insertSettles k succeeded => exact absurd rfl (hother k succeeded)
  | finallyFlush k =>
    simp only [ShareAccountingService.step, ShareAccountingService.finallyFlush]
    split
    · split
      · exact hstart _
      · split <;> rfl
    · rfl
  | flushPendingShares =>
    simp only [ShareAccountingService.step, ShareAccountingService.flushPendingShares]
    split
    · exact hstart _
    · rfl

/-- A batch settles with its insert. -/
theorem settled_mem_step {succeeded : Bool}
    (h : (batch, succeeded) ∈ outcomesOf (queueEvents (store.step config input).2)) :
    ∃ table after, StoreEvent.insertRan table batch after ∈ (store.step config input).2 := by
  have hqueue : ∀ queued : QueueInput AcceptedShareEntity,
      (∀ k succeeded, queued ≠ .insertSettles k succeeded) →
      (batch, succeeded) ∉ outcomesOf (queueEvents (store.queueStep config queued).2) := by
    intro queued hother
    rw [ShareStore.queueStep, queueEvents_map_queue, outcomesOf_queueStep _ hother]
    exact List.not_mem_nil
  cases input with
  | recordAcceptedShare record now => exact absurd h (hqueue _ (by simp))
  | timer => exact absurd h (hqueue _ (by simp))
  | finallyFlush k => exact absurd h (hqueue _ (by simp))
  | flushPendingShares => exact absurd h (hqueue _ (by simp))
  | tableChanges changed => exact absurd h List.not_mem_nil
  | insertSettles k =>
    simp only [ShareStore.step] at h ⊢
    cases hflush : store.service.flushes[k]? with
    | none => simp [ShareStore.insertSettles, hflush, queueEvents, outcomesOf] at h
    | some flush =>
      cases flush with
      | settled => simp [ShareStore.insertSettles, hflush, queueEvents, outcomesOf] at h
      | inserting inserting =>
        rw [insertSettles_events hflush] at h ⊢
        -- the one outcome is that of the batch whose insert ran
        change (batch, succeeded) ∈ outcomesOf (queueEvents (List.map _ _)) at h
        rw [queueEvents_map_queue, (settle_history _ _).2.2.1, List.mem_singleton] at h
        cases h
        exact ⟨_, _, List.mem_cons_self⟩

/-- An insert that succeeds resolves the promises of its batch. -/
theorem resolved_mem_step (hbatch : batchInserted store input = some batch)
    (hall : shareTable.storable store.table batch = batch)
    {share : PendingShare AcceptedShareEntity} (hshare : share ∈ batch) :
    .queue (.resolved share) ∈ (store.step config input).2 := by
  have hrows : shareTable.insertRows store.table batch
      = some (shareTable.insertEach store.table batch) :=
    TableRules.insertRows_eq_some_iff.mpr ⟨hall, rfl⟩
  unfold batchInserted at hbatch
  split at hbatch
  · rename_i k
    split at hbatch
    · rename_i inserting hflush
      cases hbatch
      show _ ∈ (store.insertSettles k).2
      rw [insertSettles_events hflush, hrows]
      refine List.mem_cons_of_mem _ (List.mem_map_of_mem ?_)
      exact List.mem_cons_of_mem _ (List.mem_map.mpr ⟨share, hshare, rfl⟩)
    · cases hbatch
  · cases hbatch

/-- When an insert saves what the table would store alone, its batch is not mixed. -/
theorem unmixed_of_saved {table : List AcceptedShareEntity}
    (h : ∀ share ∈ shareTable.storable table batch,
      ∃ row, shareRow share.entity = some row ∧ row ∈ afterInsert table batch) :
    Unmixed table batch := by
  by_contra hmixed
  obtain ⟨hall, hnone⟩ := not_or.mp hmixed
  -- the statement fails, so the table is what it was, and it had no such row
  have hfails : shareTable.insertRows table batch = none := by
    cases hrows : shareTable.insertRows table batch with
    | none => rfl
    | some after => exact absurd (TableRules.insertRows_eq_some_iff.mp hrows).1 hall
  obtain ⟨share, hshare⟩ := List.exists_mem_of_ne_nil _ hnone
  obtain ⟨row, hrow, hin⟩ := h share hshare
  obtain ⟨-, stored, hstored, hnew⟩ := TableRules.mem_storable hshare
  have hsame : row = stored := Option.some.inj (hrow.symm.trans hstored)
  rw [afterInsert, hfails, Option.getD_none, hsame] at hin
  exact hnew hin

end Step

/-! ### Runs -/

section Run
variable {config : QueueConfig} {store : ShareStore} {history : List StoreEvent}

/-- What every run keeps: the queue is sound, its batches settle with an insert, and each insert
does what the table says. -/
structure InsertSound (config : QueueConfig) (store : ShareStore) (history : List StoreEvent) :
    Prop where
  queue : Sound config store.service (queueEvents history)
  settled : ∀ batch succeeded, (batch, succeeded) ∈ outcomesOf (queueEvents history) →
    ∃ table after, StoreEvent.insertRan table batch after ∈ history
  after : ∀ table batch after, StoreEvent.insertRan table batch after ∈ history →
    after = afterInsert table batch
  resolved : ∀ table batch after, StoreEvent.insertRan table batch after ∈ history →
    shareTable.storable table batch = batch → ∀ share ∈ batch, .queue (.resolved share) ∈ history

theorem insertSound_initial (table : List AcceptedShareEntity) :
    InsertSound config (.initial table) [] where
  queue := sound_initial
  settled _ _ h := absurd h List.not_mem_nil
  after _ _ _ h := absurd h List.not_mem_nil
  resolved _ _ _ h := absurd h List.not_mem_nil

theorem InsertSound.step (h : InsertSound config store history) (input : StoreInput) :
    InsertSound config (store.step config input).1 (history ++ (store.step config input).2) where
  queue := sound_step h.queue input
  settled batch succeeded hin := by
    rw [queueEvents_append, outcomesOf_append] at hin
    rcases List.mem_append.mp hin with hbefore | hnow
    · obtain ⟨table, after, hran⟩ := h.settled batch succeeded hbefore
      exact ⟨table, after, List.mem_append_left _ hran⟩
    · obtain ⟨table, after, hran⟩ := settled_mem_step hnow
      exact ⟨table, after, List.mem_append_right _ hran⟩
  after table batch after hran := by
    rcases List.mem_append.mp hran with hbefore | hnow
    · exact h.after table batch after hbefore
    · obtain ⟨-, htable, hafter⟩ := insertRan_mem_step.mp hnow
      rw [hafter, htable]
  resolved table batch after hran hall share hshare := by
    rcases List.mem_append.mp hran with hbefore | hnow
    · exact List.mem_append_left _ (h.resolved table batch after hbefore hall share hshare)
    · obtain ⟨hbatch, rfl, -⟩ := insertRan_mem_step.mp hnow
      exact List.mem_append_right _ (resolved_mem_step hbatch hall hshare)

variable {share : PendingShare AcceptedShareEntity}

/-- A share that was queued was inserted, or is still on its way. -/
theorem InsertSound.inserted (h : InsertSound config store history)
    (hqueued : share ∈ queuedOf (queueEvents history)) :
    share ∈ (inFlight store.service.flushes).flatten ++ store.service.pendingShares ∨
      ∃ table batch after, .insertRan table batch after ∈ history ∧ share ∈ batch := by
  rw [← h.queue.fifo, ← h.queue.inserts, List.flatten_append, List.append_assoc] at hqueued
  rcases List.mem_append.mp hqueued with hsettled | hwaits
  · right
    obtain ⟨batch, hbatch, hshare⟩ := List.mem_flatten.mp hsettled
    obtain ⟨⟨_, succeeded⟩, houtcome, rfl⟩ := List.mem_map.mp hbatch
    obtain ⟨table, after, hran⟩ := h.settled _ succeeded houtcome
    exact ⟨table, _, after, hran, hshare⟩
  · left
    exact hwaits

/-- An insert of a batch that is not mixed saves what the table would store alone. -/
theorem InsertSound.saved (h : InsertSound config store history)
    {table after : List AcceptedShareEntity} {batch : List (PendingShare AcceptedShareEntity)}
    (hran : .insertRan table batch after ∈ history) (hunmixed : Unmixed table batch)
    (hshare : share ∈ shareTable.storable table batch) : Saved history after share := by
  rcases hunmixed with hall | hnone
  · have hrows : shareTable.insertRows table batch = some (shareTable.insertEach table batch) :=
      TableRules.insertRows_eq_some_iff.mpr ⟨hall, rfl⟩
    have hafter : after = shareTable.insertEach table batch := by
      rw [h.after table batch after hran, afterInsert, hrows, Option.getD_some]
    constructor
    · rw [hafter]
      exact TableRules.mem_insertEach hshare
    · rw [hall] at hshare
      exact h.resolved table batch after hran hall share hshare
  · rw [hnone] at hshare
    exact absurd hshare List.not_mem_nil

/-- What is expected of the table holds iff no insert was mixed. -/
theorem InsertSound.isolated_iff (h : InsertSound config store history) :
    Isolated store.service history ↔
      ∀ table batch after, .insertRan table batch after ∈ history → Unmixed table batch := by
  constructor
  · intro hisolated table batch after hran
    refine unmixed_of_saved fun share hshare => ?_
    rw [← h.after table batch after hran]
    exact (hisolated.saved table batch after hran share hshare).1
  · intro hunmixed
    constructor
    · intro share hqueued
      exact h.inserted hqueued
    · intro table batch after hran share hshare
      exact h.saved hran (hunmixed table batch after hran) hshare

/-- No insert of a run is mixed iff every step inserts what is not mixed. -/
theorem unmixed_iff_along (inputs : List StoreInput) (store : ShareStore)
    (history : List StoreEvent) :
    (∀ table batch after,
        .insertRan table batch after ∈ (storeMachine config).history store inputs →
        Unmixed table batch) ↔
      (storeMachine config).Along InsertsUnmixed store history inputs := by
  induction inputs generalizing store history with
  | nil => simp [Machine.Along]
  | cons input inputs ih =>
    have hfirst : (∀ table batch after,
        StoreEvent.insertRan table batch after ∈ (store.step config input).2 →
          Unmixed table batch) ↔ InsertsUnmixed store history input := by
      constructor
      · intro h batch hbatch
        exact h _ batch _ (insertRan_mem_step.mpr ⟨hbatch, rfl, rfl⟩)
      · intro h table batch after hran
        obtain ⟨hbatch, rfl, -⟩ := insertRan_mem_step.mp hran
        exact h batch hbatch
    have hrest := ih ((storeMachine config).step store input).1
      (history ++ ((storeMachine config).step store input).2)
    rw [Machine.Along, ← hfirst, ← hrest, Machine.history_cons]
    simp only [List.mem_append, or_imp, forall_and]
    rfl

/-- Every run keeps the invariant. -/
theorem insertSound_run (config : QueueConfig) (table : List AcceptedShareEntity)
    (inputs : List StoreInput) :
    InsertSound config ((storeMachine config).final (.initial table) inputs)
      ((storeMachine config).history (.initial table) inputs) := by
  have hstep : ∀ (store : ShareStore) (history : List StoreEvent) (input : StoreInput),
      InsertSound config store history → True →
      InsertSound config ((storeMachine config).step store input).1
        (history ++ ((storeMachine config).step store input).2) :=
    fun _ _ input h _ => h.step input
  have hsound := (storeMachine config).history_invariant hstep (insertSound_initial table)
    ((storeMachine config).along_of_forall (fun _ _ _ => trivial) _ _ inputs)
  simpa only [List.nil_append] using hsound

end Run

/-- For every content of the table and in every run, each share that the table would store alone is
stored and its promise resolved, iff no insert of the run mixes such shares with others. -/
theorem isolated_iff_unmixed (config : QueueConfig) (table : List AcceptedShareEntity)
    (inputs : List StoreInput) :
    Isolated ((storeMachine config).final (.initial table) inputs).service
        ((storeMachine config).history (.initial table) inputs) ↔
      (storeMachine config).Along InsertsUnmixed (.initial table) [] inputs :=
  (insertSound_run config table inputs).isolated_iff.trans
    (unmixed_iff_along inputs (.initial table) [])

/-! ### A run that loses a share -/

namespace PoisonedBatch

/-- Batches of two shares. -/
def config : QueueConfig where
  batchSize := 2
  maxQueueSize := 10
  batchSize_pos := by decide
  maxQueueSize_pos := by decide

/-- The parameters of `mining.submit`, with a nonce. -/
def params (nonce : String) : List Sv1.JsonValue :=
  [.text "a.worker", .text "1", .text "0000000000000000", .text "65000000", .text nonce]

/-- The record of a share with that nonce, of one of two miners. -/
def record (sessionId nonce : String) : AcceptedShareRecord where
  protocol := .sv1
  payoutMode := .pplns
  workSource := .poolTemplate
  workProtocol := .pool
  address := "a"
  clientName := "worker"
  sessionId := sessionId
  jobId := "1"
  jobTemplateId := "1"
  blockHeight := 1
  creditedDifficulty := some 1
  submissionDifficulty := some 1
  networkDifficulty := some 1
  nonce := nonce
  ntime := "65000000"
  version := "20000000"
  extraNonce2 := "0000000000000000"
  isBlockCandidate := false
  blockSubmissionResult := none

/-- A share whose nonce ends in U+0000, and another miner's share, in one batch. -/
def run : List StoreInput :=
  [.recordAcceptedShare (record "00000001" "1\x00") 0,
    .recordAcceptedShare (record "00000002" "1") 0, .insertSettles 0]

end PoisonedBatch

open PoisonedBatch in
/-- The validators admit the nonce, which is read as the number 1, and the other miner's share,
which the table would store alone, is lost with it. -/
theorem not_isolated :
    (Sv1.MiningSubmitMessage.ofParams (params "1\x00")).map Sv1.MiningSubmitMessage.nonce
        = some "1\x00" ∧
      Js.parseInt16 "1\x00" = some 1 ∧
      ¬ Isolated ((storeMachine config).final (.initial []) run).service
        ((storeMachine config).history (.initial []) run) := by
  refine ⟨by decide, by decide, fun hisolated => ?_⟩
  have hunmixed := (insertSound_run config [] run).isolated_iff.mp hisolated
  obtain ⟨-, -, hinsert, -⟩ := (unmixed_iff_along run (.initial []) []).mp hunmixed
  -- of the two shares, the table would store the second alone
  have hmixed : ¬ Unmixed []
      [⟨createShare (record "00000001" "1\x00") 0, 0⟩,
        ⟨createShare (record "00000002" "1") 0, 1⟩] := by
    unfold Unmixed
    decide
  exact hmixed (hinsert _ rfl)

end PublicPool.Proofs
