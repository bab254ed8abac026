import PublicPool.Proofs.Payout.FinalizeOnce
import PublicPool.Proofs.Payout.StoredSnapshots

/-!
# `PublicPool.Proofs.Payout.SerialLedger`: what a run leaves in the database

The calls of the payout service run in any order, statement by statement. The ledger of such a run
is that of `serialLedger`: the finalizations one after another, each as a whole, in the order in
which they committed. No statement of a call that fails or is still under way has left anything. The
snapshots, which the finalizations are made of, do not change once they are returned.
-/

set_option autoImplicit false

namespace PublicPool.Proofs

open Lib (Machine)

/-- The coinbase value of a snapshot. -/
def coinbaseValueOf (db : Database) (payoutSnapshotId : ℕ) : ℤ :=
  ((db.snapshots.find? fun row => row.id = payoutSnapshotId).map (·.coinbaseValueSats)).getD 0

/-- What a finalization makes of a ledger if nothing else happens. -/
def Ledger.finalize (db : Database) (ledger : Ledger) (finalized : ℤ × ℕ) : Ledger :=
  ledger.apply finalized.1 finalized.2 (coinbaseValueOf db finalized.2)
    (db.entriesOf finalized.2)

/-- The finalizations one after another, from the empty ledger on. -/
def serialLedger (db : Database) (finalized : List (ℤ × ℕ)) : Ledger :=
  finalized.foldl (Ledger.finalize db) PayoutWorld.initial.db.ledger

/-- The finalized snapshots are stored, and the ledger is what they come to. -/
structure SerialLedgerInv (world : PayoutWorld) (history : List PayoutEvent) : Prop where
  serial : SerialInv world
  stored : ∀ finalized ∈ finalizedOf history, ∃ snapshot,
    world.db.snapshots.find? (fun row => row.id = finalized.2) = some snapshot
  ledger : rowsOf world.db.ledger = rowsOf (serialLedger world.db (finalizedOf history))

section
variable {env : PayoutEnv} {config : PayoutConfig} {world world' : PayoutWorld}
  {history : List PayoutEvent}

/-- Stored snapshots come to the same in a database that extends this one. -/
theorem serialLedger_of_extends {db db' : Database} {finalized : List (ℤ × ℕ)}
    (h : Extends db db') (hstored : ∀ one ∈ finalized, ∃ snapshot,
      db.snapshots.find? (fun row => row.id = one.2) = some snapshot) :
    serialLedger db' finalized = serialLedger db finalized := by
  refine List.foldl_ext _ _ _ fun ledger one hone => ?_
  obtain ⟨snapshot, hfind⟩ := hstored one hone
  have hentries : db'.entriesOf one.2 = db.entriesOf one.2 :=
    h.entries one.2 ⟨snapshot, List.mem_of_find?_eq_some hfind, by simpa using List.find?_some hfind⟩
  rw [Ledger.finalize, Ledger.finalize, hentries, coinbaseValueOf, coinbaseValueOf,
    h.snapshot _ _ hfind, hfind]

/-- A step that commits no finalization. -/
theorem SerialLedgerInv.keeps (h : SerialLedgerInv world history) {events : List PayoutEvent}
    (hserial : SerialInv world') (hnone : finalizedOf events = [])
    (hledger : world'.db.ledger = world.db.ledger) (hextends : Extends world.db world'.db) :
    SerialLedgerInv world' (history ++ events) := by
  have hsame : finalizedOf (history ++ events) = finalizedOf history := by
    rw [finalizedOf_append, hnone, List.append_nil]
  refine ⟨hserial, ?_, ?_⟩
  · rw [hsame]
    intro finalized hmem
    obtain ⟨snapshot, hfind⟩ := h.stored finalized hmem
    exact ⟨snapshot, hextends.snapshot _ _ hfind⟩
  · rw [hsame, hledger, serialLedger_of_extends hextends h.stored]
    exact h.ledger

theorem SerialLedgerInv.step (h : SerialLedgerInv world history) (input : PayoutInput) :
    SerialLedgerInv (payoutStep env config world input).1
      (history ++ (payoutStep env config world input).2) := by
  obtain ⟨hcreate, hstep⟩ := @payoutStep_spec env config world h.serial.create input
  have hserial := h.serial.step hcreate hstep
  generalize payoutStep env config world input = after at hcreate hstep hserial ⊢
  obtain ⟨world', events⟩ := after
  cases hstep with
  | quiet _ _ _ hledger hextends _ hfinalized _ => exact h.keeps hserial hfinalized hledger hextends
  | begins _ _ => exact h.keeps hserial rfl rfl (.of_eq rfl rfl)
  | goesOn _ _ _ _ _ => exact h.keeps hserial rfl rfl (.of_eq rfl rfl)
  | commits id call snapshot hcall hstage =>
    obtain ⟨hfound, -, -, hrows⟩ := h.serial.commit hcall hstage
    have hfinalized : finalizedOf (history ++ [.finalizeEnded call.input (.finalized
        call.payoutSnapshotId call.applied.length call.applied.length)])
          = finalizedOf history ++ [(call.input.blockHeight, call.payoutSnapshotId)] :=
      finalizedOf_append ..
    refine ⟨hserial, ?_, ?_⟩
    · rw [hfinalized]
      intro finalized hmem
      rcases List.mem_append.mp hmem with hbefore | hnow
      · exact h.stored finalized hbefore
      · rw [List.mem_singleton.mp hnow]
        exact ⟨snapshot, hfound⟩
    · -- the finalization is applied to what the ones before it have come to
      have hvalue : coinbaseValueOf world.db call.payoutSnapshotId = snapshot.coinbaseValueSats := by
        rw [coinbaseValueOf, hfound]
        rfl
      rw [hfinalized]
      show rowsOf (world.db.ledger.overlay call.written)
        = rowsOf (serialLedger world.db (finalizedOf history ++ _))
      rw [hrows, serialLedger, List.foldl_append]
      show _ = rowsOf (Ledger.finalize world.db (serialLedger world.db (finalizedOf history)) _)
      rw [Ledger.finalize, hvalue, rowsOf_apply, rowsOf_apply, h.ledger]

end

section
variable (env : PayoutEnv) (config : PayoutConfig)

/-- The snapshots that were returned are read back as they were returned, for the coinbase value
that was asked for. -/
def ReturnedAreStored (world : PayoutWorld) (history : List PayoutEvent) : Prop :=
  ∀ input snapshot, .created input (.snapshot snapshot) ∈ history →
    getSnapshotById world.db snapshot.id = some snapshot ∧
      snapshot.coinbaseValueSats = input.coinbaseValueSats

/-- **Snapshots do not change.** However a run goes on, a snapshot that was returned is read back as
it was returned. -/
theorem returned_snapshots_stay (inputs later : List PayoutInput) :
    ReturnedAreStored ((payoutMachine env config).final .initial (inputs ++ later))
      ((payoutMachine env config).history .initial inputs) := by
  let P : List PayoutDistributionEntry → ℤ → Prop := fun _ _ => True
  have hstep : ∀ world history input, StoredInv P world history → True →
      StoredInv P ((payoutMachine env config).step world input).1
        (history ++ ((payoutMachine env config).step world input).2) :=
    fun _ _ _ hinv _ => hinv.step (fun _ _ _ _ _ => trivial) fun _ _ _ _ _ _ _ _ _ => trivial
  have hend := (payoutMachine env config).history_invariant hstep storedInv_initial
    ((payoutMachine env config).along_of_forall (fun _ _ _ => trivial) .initial []
      (inputs ++ later))
  rw [List.nil_append, Machine.history_append] at hend
  exact fun input snapshot hmem => hend.returned input snapshot (List.mem_append_left _ hmem)

end

end PublicPool.Proofs
