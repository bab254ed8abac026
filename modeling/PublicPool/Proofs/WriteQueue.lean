import PublicPool.ShareAccounting.WriteQueue
import Mathlib.Data.List.Nodup

/-!
# `PublicPool.Proofs.WriteQueue`: the queue before the database loses nothing

`Sound` is the invariant of the queue, over its state and everything it has done: the batches one
after the other, followed by what still waits, are the shares in the order they were queued. It
is split in two. `Core` is what every piece of a handler keeps; that a queue with shares in it has
a timer or a flush is only true again when the handler is through, and `startFlush` and
`scheduleFlush` are what makes it true.
-/

set_option autoImplicit false

namespace PublicPool.Proofs

open Lib (Machine)
open ShareAccounting

section
variable {Entity : Type}

/-! ### What the history says -/

/-- The shares that were queued. -/
def queuedOf (history : List (QueueEvent Entity)) : List (PendingShare Entity) :=
  history.filterMap fun
    | .queued share => some share
    | _ => none

/-- The batches that `insert` was called with. -/
def batchesOf (history : List (QueueEvent Entity)) : List (List (PendingShare Entity)) :=
  history.filterMap fun
    | .inserted batch => some batch
    | _ => none

/-- The batches whose insert has ended, and whether it succeeded. -/
def outcomesOf (history : List (QueueEvent Entity)) : List (List (PendingShare Entity) × Bool) :=
  history.filterMap fun
    | .settled batch succeeded => some (batch, succeeded)
    | _ => none

/-- The promises that were settled: with `true` resolved, with `false` rejected. -/
def settlementsOf (history : List (QueueEvent Entity)) : List (PendingShare Entity × Bool) :=
  history.filterMap fun
    | .resolved share => some (share, true)
    | .rejected share => some (share, false)
    | _ => none

/-- The batches whose insert is under way. -/
def inFlight (flushes : List (Flush Entity)) : List (List (PendingShare Entity)) :=
  flushes.filterMap fun
    | .inserting batch => some batch
    | .settled => none

section Append
variable (history more : List (QueueEvent Entity))

@[simp] theorem queuedOf_append : queuedOf (history ++ more) = queuedOf history ++ queuedOf more :=
  List.filterMap_append

@[simp] theorem batchesOf_append :
    batchesOf (history ++ more) = batchesOf history ++ batchesOf more :=
  List.filterMap_append

@[simp] theorem outcomesOf_append :
    outcomesOf (history ++ more) = outcomesOf history ++ outcomesOf more :=
  List.filterMap_append

@[simp] theorem settlementsOf_append :
    settlementsOf (history ++ more) = settlementsOf history ++ settlementsOf more :=
  List.filterMap_append

end Append

/-- What the end of an insert adds to the history. -/
theorem settle_history (batch : List (PendingShare Entity)) (succeeded : Bool) :
    let events := ShareAccountingService.settle batch succeeded
    queuedOf events = [] ∧ batchesOf events = [] ∧ outcomesOf events = [(batch, succeeded)] ∧
      settlementsOf events = batch.map fun share => (share, succeeded) := by
  cases succeeded with
  | true =>
    simp only [ShareAccountingService.settle, queuedOf, batchesOf, outcomesOf, settlementsOf,
      List.filterMap_cons, List.filterMap_map, if_true]
    refine ⟨?_, ?_, ?_, ?_⟩ <;> simp
  | false =>
    simp only [ShareAccountingService.settle, queuedOf, batchesOf, outcomesOf, settlementsOf,
      List.filterMap_cons, List.filterMap_map, Bool.false_eq_true, if_false]
    refine ⟨?_, ?_, ?_, ?_⟩ <;> simp

/-! ### The invariant -/

/-- What every piece of a handler keeps. -/
structure Core (config : QueueConfig) (service : ShareAccountingService Entity)
    (history : List (QueueEvent Entity)) : Prop where
  /-- Nothing is lost, doubled or overtaken. -/
  fifo : (batchesOf history).flatten ++ service.pendingShares = queuedOf history
  /-- The batches are those whose insert has ended and those in flight. -/
  inserts : (outcomesOf history).map Prod.fst ++ inFlight service.flushes = batchesOf history
  /-- A promise is settled with its batch. -/
  settlements : settlementsOf history
    = (outcomesOf history).flatMap fun outcome => outcome.1.map fun share => (share, outcome.2)
  /-- The flag says whether a flush is under way. -/
  flag : service.flushes.length = if service.activeFlush then 1 else 0
  sizes : ∀ batch ∈ batchesOf history, batch.length ≤ config.batchSize
  bounded : service.pendingShares.length ≤ config.maxQueueSize
  timer : service.flushTimer = true → service.activeFlush = false
  promises : (queuedOf history).map PendingShare.promise = List.range service.promises

/-- The invariant of the queue: besides, shares that wait have a timer or a flush. -/
structure Sound (config : QueueConfig) (service : ShareAccountingService Entity)
    (history : List (QueueEvent Entity)) : Prop extends Core config service history where
  progress : service.pendingShares ≠ [] → service.flushTimer = true ∨ service.activeFlush = true

variable {config : QueueConfig} {service : ShareAccountingService Entity}
  {history : List (QueueEvent Entity)}

/-- Without an active flush none is under way. -/
theorem Core.flushes_eq_nil (h : Core config service history)
    (hactive : service.activeFlush = false) : service.flushes = [] := by
  have hflag := h.flag
  rw [hactive, if_neg Bool.false_ne_true] at hflag
  exact List.length_eq_zero_iff.mp hflag

/-- A flush under way is the only one. -/
theorem Core.flushes_eq_singleton (h : Core config service history) {k : ℕ}
    {flush : Flush Entity} (hflush : service.flushes[k]? = some flush) :
    k = 0 ∧ service.flushes = [flush] ∧ service.activeFlush = true := by
  have hflag := h.flag
  obtain ⟨hk, hget⟩ := List.getElem?_eq_some_iff.mp hflush
  cases hactive : service.activeFlush with
  | false =>
    rw [hactive, if_neg Bool.false_ne_true] at hflag
    omega
  | true =>
    rw [hactive, if_pos rfl] at hflag
    obtain ⟨only, honly⟩ := List.length_eq_one_iff.mp hflag
    have hzero : k = 0 := by omega
    subst hzero
    simp only [honly, List.getElem_cons_zero] at hget
    exact ⟨rfl, by rw [honly, hget], rfl⟩

/-- The timer may be disarmed at any time. -/
theorem Core.disarm (h : Core config service history) :
    Core config { service with flushTimer := false } history :=
  { h with timer := nofun }

theorem Core.scheduleFlush (h : Core config service history) :
    Sound config service.scheduleFlush history := by
  unfold ShareAccountingService.scheduleFlush
  split
  · rename_i hbusy
    exact { h with progress := fun _ => by simpa using hbusy }
  · rename_i hidle
    have hactive : service.activeFlush = false := by
      simp only [Bool.or_eq_true, not_or, Bool.not_eq_true] at hidle
      exact hidle.2
    exact { h with timer := fun _ => hactive, progress := fun _ => Or.inl rfl }

/-- `startFlush` moves the oldest shares into a batch, if no flush is active. -/
theorem Core.startFlush (h : Core config service history) :
    Sound config (service.startFlush config).1 (history ++ (service.startFlush config).2) := by
  unfold ShareAccountingService.startFlush
  by_cases hbusy : service.activeFlush = true
  · rw [if_pos hbusy, List.append_nil]
    exact { h with progress := fun _ => Or.inr hbusy }
  · rw [if_neg hbusy]
    have hactive : service.activeFlush = false := by simpa using hbusy
    split
    · -- nothing waits
      rename_i htake
      have hempty : service.pendingShares = [] := by
        rcases List.take_eq_nil_iff.mp htake with hzero | hempty
        · exact absurd hzero (Nat.pos_iff_ne_zero.mp config.batchSize_pos)
        · exact hempty
      rw [List.append_nil]
      exact { h.disarm with progress := fun hne => absurd hempty hne }
    · rename_i batch hne
      have hflushes := h.flushes_eq_nil hactive
      have hinserts := h.inserts
      rw [hflushes] at hinserts
      refine { fifo := ?_, inserts := ?_, settlements := ?_, flag := ?_, sizes := ?_,
               bounded := ?_, timer := nofun, promises := ?_, progress := fun _ => Or.inr rfl }
      · have hbatches : batchesOf [QueueEvent.inserted
            (service.pendingShares.take config.batchSize)]
              = [service.pendingShares.take config.batchSize] := rfl
        rw [batchesOf_append, queuedOf_append, ← h.fifo, hbatches, List.flatten_append,
          List.flatten_singleton, List.append_assoc, List.take_append_drop]
        exact (List.append_nil _).symm
      · rw [outcomesOf_append, batchesOf_append, ← hinserts, hflushes]
        simp [inFlight, outcomesOf, batchesOf]
      · rw [outcomesOf_append, settlementsOf_append, h.settlements]
        simp [outcomesOf, settlementsOf]
      · rw [hflushes]
        rfl
      · intro batch hmem
        rw [batchesOf_append, List.mem_append] at hmem
        rcases hmem with hold | hnew
        · exact h.sizes batch hold
        · have heq : batch = service.pendingShares.take config.batchSize := by
            simpa [batchesOf] using hnew
          rw [heq]
          exact List.length_take_le ..
      · have hbound := h.bounded
        show (service.pendingShares.drop config.batchSize).length ≤ config.maxQueueSize
        rw [List.length_drop]
        omega
      · rw [queuedOf_append]
        simpa [queuedOf] using h.promises

/-- `startFlush` queues nothing. -/
theorem queuedOf_startFlush (config : QueueConfig) (service : ShareAccountingService Entity) :
    queuedOf (service.startFlush config).2 = [] := by
  unfold ShareAccountingService.startFlush
  split
  · rfl
  · split <;> rfl

/-- A share goes to the end of the queue, if there is room. -/
theorem Core.push (h : Core config service history) (entity : Entity)
    (hroom : service.pendingShares.length < config.maxQueueSize) :
    Core config
      { service with
        pendingShares := service.pendingShares ++ [{ entity, promise := service.promises }]
        promises := service.promises + 1 }
      (history ++ [.queued { entity, promise := service.promises }]) := by
  refine { fifo := ?_, inserts := ?_, settlements := ?_, flag := h.flag, sizes := ?_,
           bounded := ?_, timer := h.timer, promises := ?_ }
  · rw [batchesOf_append, queuedOf_append, ← h.fifo]
    simp [batchesOf, queuedOf]
  · rw [outcomesOf_append, batchesOf_append, ← h.inserts]
    simp [outcomesOf, batchesOf]
  · rw [outcomesOf_append, settlementsOf_append, h.settlements]
    simp [outcomesOf, settlementsOf]
  · intro batch hmem
    rw [batchesOf_append, List.mem_append] at hmem
    rcases hmem with hold | hnew
    · exact h.sizes batch hold
    · cases hnew
  · rw [List.length_append, List.length_singleton]
    omega
  · rw [queuedOf_append, List.map_append, h.promises, List.range_succ]
    rfl

/-! ### One step -/

theorem Sound.recordAcceptedShare (h : Sound config service history) (entity : Entity) :
    Sound config (service.recordAcceptedShare config entity).1
      (history ++ (service.recordAcceptedShare config entity).2) := by
  unfold ShareAccountingService.recordAcceptedShare
  by_cases hfull : config.maxQueueSize ≤ service.pendingShares.length
  · rw [if_pos hfull]
    -- a share that is refused leaves no trace but the refusal
    refine { h with fifo := ?_, inserts := ?_, settlements := ?_, sizes := ?_, promises := ?_ }
    · rw [batchesOf_append, queuedOf_append, ← h.fifo]
      simp [batchesOf, queuedOf]
    · rw [outcomesOf_append, batchesOf_append, ← h.inserts]
      simp [outcomesOf, batchesOf]
    · rw [outcomesOf_append, settlementsOf_append, h.settlements]
      simp [outcomesOf, settlementsOf]
    · intro batch hmem
      refine h.sizes batch ?_
      simpa [batchesOf] using hmem
    · rw [queuedOf_append]
      simpa [queuedOf] using h.promises
  · rw [if_neg hfull]
    have hpushed := h.toCore.push entity (by omega)
    simp only
    split
    · have hstarted := hpushed.startFlush
      rwa [List.append_assoc] at hstarted
    · exact hpushed.scheduleFlush

theorem Sound.timerFires (h : Sound config service history) :
    Sound config (service.timerFires config).1 (history ++ (service.timerFires config).2) := by
  unfold ShareAccountingService.timerFires
  split
  · exact h.toCore.disarm.startFlush
  · rw [List.append_nil]
    exact h

/-- The end of an insert settles the promises of its batch. -/
theorem Sound.insertSettles (h : Sound config service history) (k : ℕ) (succeeded : Bool) :
    Sound config (service.insertSettles k succeeded).1
      (history ++ (service.insertSettles k succeeded).2) := by
  unfold ShareAccountingService.insertSettles
  split
  · rename_i batch hflush
    obtain ⟨rfl, hflushes, hactive⟩ := h.toCore.flushes_eq_singleton hflush
    obtain ⟨hqueued, hbatches, houtcomes, hsettlements⟩ := settle_history batch succeeded
    have hinserts := h.inserts
    rw [hflushes] at hinserts
    refine { fifo := ?_, inserts := ?_, settlements := ?_, flag := ?_, sizes := ?_,
             bounded := h.bounded, timer := h.timer, promises := ?_, progress := h.progress }
    · rw [batchesOf_append, queuedOf_append, hbatches, hqueued, List.append_nil, List.append_nil]
      exact h.fifo
    · rw [outcomesOf_append, batchesOf_append, hbatches, houtcomes, List.append_nil, ← hinserts,
        hflushes]
      simp [inFlight]
    · rw [outcomesOf_append, settlementsOf_append, houtcomes, hsettlements, h.settlements]
      simp
    · rw [hflushes, hactive]
      rfl
    · rw [batchesOf_append, hbatches, List.append_nil]
      exact h.sizes
    · rw [queuedOf_append, hqueued, List.append_nil]
      exact h.promises
  · rw [List.append_nil]
    exact h

/-- After its insert a flush is over, and another one follows if there are shares. -/
theorem Sound.finallyFlush (h : Sound config service history) (k : ℕ) :
    Sound config (service.finallyFlush config k).1
      (history ++ (service.finallyFlush config k).2) := by
  unfold ShareAccountingService.finallyFlush
  split
  · rename_i hflush
    obtain ⟨rfl, hflushes, hactive⟩ := h.toCore.flushes_eq_singleton hflush
    have hinserts := h.inserts
    rw [hflushes] at hinserts
    have hover : Core config
        { service with activeFlush := false, flushes := service.flushes.eraseIdx 0 } history := by
      refine { h with inserts := ?_, flag := ?_, timer := fun _ => rfl }
      · rw [hflushes, ← hinserts]
        rfl
      · rw [hflushes]
        rfl
    simp only
    split
    · exact hover.startFlush
    · split
      · rw [List.append_nil]
        exact hover.scheduleFlush
      · rename_i hempty
        have hnil : service.pendingShares = [] := by
          simpa [List.length_pos_iff] using hempty
        rw [List.append_nil]
        exact { hover with progress := fun hne => absurd hnil hne }
  · rw [List.append_nil]
    exact h

theorem Sound.flushPendingShares (h : Sound config service history) :
    Sound config (service.flushPendingShares config).1
      (history ++ (service.flushPendingShares config).2) := by
  unfold ShareAccountingService.flushPendingShares
  split
  · exact h.toCore.startFlush
  · rw [List.append_nil]
    exact h

/-- One step keeps the invariant. -/
theorem Sound.step (h : Sound config service history) (input : QueueInput Entity) :
    Sound config (service.step config input).1 (history ++ (service.step config input).2) := by
  cases input with
  | recordAcceptedShare entity => exact h.recordAcceptedShare entity
  | timer => exact h.timerFires
  | insertSettles k succeeded => exact h.insertSettles k succeeded
  | finallyFlush k => exact h.finallyFlush k
  | flushPendingShares => exact h.flushPendingShares

theorem sound_initial : Sound config (.initial : ShareAccountingService Entity) [] where
  fifo := rfl
  inserts := rfl
  settlements := rfl
  flag := rfl
  sizes _ h := nomatch h
  bounded := Nat.zero_le _
  timer := nofun
  promises := rfl
  progress h := absurd rfl h

/-- Every run keeps the invariant. -/
theorem sound_run (config : QueueConfig) (inputs : List (QueueInput Entity)) :
    Sound config ((queueMachine config).final .initial inputs)
      ((queueMachine config).history .initial inputs) := by
  have hstep : ∀ (service : ShareAccountingService Entity) (history : List (QueueEvent Entity))
      (input : QueueInput Entity), Sound config service history → True →
      Sound config ((queueMachine config).step service input).1
        (history ++ ((queueMachine config).step service input).2) :=
    fun _ _ input h _ => h.step input
  have hsound := (queueMachine config).history_invariant hstep sound_initial
    ((queueMachine config).along_of_forall (fun _ _ _ => trivial) _ _ inputs)
  simpa only [List.nil_append] using hsound

/-! ### What it comes to -/

/-- The shares whose promise was settled are those of the batches whose insert has ended. -/
theorem Core.settlements_shares (h : Core config service history) :
    (settlementsOf history).map Prod.fst = ((outcomesOf history).map Prod.fst).flatten := by
  rw [h.settlements, List.map_flatMap, List.flatten_eq_flatMap, List.flatMap_map]
  refine List.flatMap_congr fun outcome _ => ?_
  rw [List.map_map]
  exact List.map_id _

/-- No promise is settled twice. -/
theorem Core.settled_once (h : Core config service history) :
    ((settlementsOf history).map fun settlement => settlement.1.promise).Nodup := by
  have hprefix : (settlementsOf history).map Prod.fst <+: queuedOf history := by
    rw [h.settlements_shares, ← h.fifo, ← h.inserts, List.flatten_append, List.append_assoc]
    exact List.prefix_append _ _
  have hnodup : ((queuedOf history).map PendingShare.promise).Nodup := by
    rw [h.promises]
    exact List.nodup_range
  have hsub := hprefix.sublist.map PendingShare.promise
  rw [List.map_map] at hsub
  exact hnodup.sublist hsub

/-- At most one insert is in flight. -/
theorem Core.inFlight_length (h : Core config service history) :
    (inFlight service.flushes).length ≤ 1 := by
  have hflag := h.flag
  have hle : (inFlight service.flushes).length ≤ service.flushes.length :=
    List.length_filterMap_le ..
  split at hflag <;> omega

/-- A promise is settled with the outcome of the batch its share is in. -/
theorem Core.mem_settlements (h : Core config service history) (share : PendingShare Entity)
    (succeeded : Bool) : (share, succeeded) ∈ settlementsOf history ↔
      ∃ batch, (batch, succeeded) ∈ outcomesOf history ∧ share ∈ batch := by
  rw [h.settlements, List.mem_flatMap]
  constructor
  · rintro ⟨⟨batch, outcome⟩, houtcome, hmem⟩
    obtain ⟨member, hmember, heq⟩ := List.mem_map.mp hmem
    cases heq
    exact ⟨batch, houtcome, hmember⟩
  · rintro ⟨batch, houtcome, hmember⟩
    exact ⟨(batch, succeeded), houtcome, List.mem_map.mpr ⟨share, hmember, rfl⟩⟩

/-- Without a timer and a flush nothing waits, and every promise has been settled. -/
theorem Sound.idle (h : Sound config service history) (htimer : service.flushTimer = false)
    (hactive : service.activeFlush = false) :
    service.pendingShares = [] ∧ (settlementsOf history).map Prod.fst = queuedOf history := by
  have hempty : service.pendingShares = [] := by
    by_contra hne
    rcases h.progress hne with harmed | hflushing
    · rw [htimer] at harmed
      cases harmed
    · rw [hactive] at hflushing
      cases hflushing
  have hflushes := h.toCore.flushes_eq_nil hactive
  have hinserts := h.inserts
  rw [hflushes, show inFlight ([] : List (Flush Entity)) = [] from rfl, List.append_nil]
    at hinserts
  refine ⟨hempty, ?_⟩
  rw [h.toCore.settlements_shares, hinserts, ← h.fifo, hempty, List.append_nil]

/-- What the callers of `recordAcceptedShare` may rely on, in a state of the queue and after all
it has done. -/
structure Reliable (config : QueueConfig) (service : ShareAccountingService Entity)
    (history : List (QueueEvent Entity)) : Prop where
  /-- A share that was queued is in one batch or still waits, and nothing is in two. -/
  once : ((batchesOf history).flatten.map PendingShare.promise
    ++ service.pendingShares.map PendingShare.promise).Nodup
  /-- The batches one after the other, and then what waits, are what was queued, in its order. -/
  fifo : (batchesOf history).flatten ++ service.pendingShares = queuedOf history
  /-- A promise is resolved iff the insert of its batch succeeded, and rejected iff it failed. -/
  settled : ∀ share succeeded, (share, succeeded) ∈ settlementsOf history ↔
    ∃ batch, (batch, succeeded) ∈ outcomesOf history ∧ share ∈ batch
  settledOnce : ((settlementsOf history).map fun settlement => settlement.1.promise).Nodup
  /-- The inserts end in the order they were called, and the ones that did not end are in
  flight. -/
  ended : (outcomesOf history).map Prod.fst ++ inFlight service.flushes = batchesOf history
  oneInFlight : (inFlight service.flushes).length ≤ 1
  sizes : ∀ batch ∈ batchesOf history, batch.length ≤ config.batchSize
  bounded : service.pendingShares.length ≤ config.maxQueueSize
  /-- A share is refused only by a full queue, which then stays as it is. -/
  refuses : ∀ entity, config.maxQueueSize ≤ service.pendingShares.length →
    service.step config (.recordAcceptedShare entity) = (service, [.refused entity])
  accepts : ∀ entity, service.pendingShares.length < config.maxQueueSize →
    queuedOf (service.step config (.recordAcceptedShare entity)).2
      = [{ entity, promise := service.promises }]
  progress : service.pendingShares ≠ [] → service.flushTimer = true ∨ service.activeFlush = true
  /-- When nothing is left to happen, every promise has been settled. -/
  idle : service.flushTimer = false → service.activeFlush = false →
    service.pendingShares = [] ∧ (settlementsOf history).map Prod.fst = queuedOf history

theorem Sound.reliable (h : Sound config service history) : Reliable config service history where
  once := by
    rw [← List.map_append, h.fifo, h.promises]
    exact List.nodup_range
  fifo := h.fifo
  settled := h.toCore.mem_settlements
  settledOnce := h.toCore.settled_once
  ended := h.inserts
  oneInFlight := h.toCore.inFlight_length
  sizes := h.sizes
  bounded := h.bounded
  refuses entity hfull := by
    simp only [ShareAccountingService.step, ShareAccountingService.recordAcceptedShare]
    rw [if_pos hfull]
  accepts entity hroom := by
    simp only [ShareAccountingService.step, ShareAccountingService.recordAcceptedShare]
    rw [if_neg (by omega)]
    split
    · exact congrArg (List.cons _) (queuedOf_startFlush _ _)
    · rfl
  progress := h.progress
  idle := h.idle

end

end PublicPool.Proofs
