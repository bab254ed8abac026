import Mathlib.Algebra.BigOperators.Group.Finset.Basic
import PublicPool.Proofs.Payout.FinalizeOnce

/-!
# `PublicPool.Proofs.Payout.Conservation`: the balances are what was not paid

A snapshot captures the balance of an address before the block and the balance after it. The
finalization writes the balance after, as it was captured. The stored balance may be another one
by then: a snapshot that was taken before another one was finalized does not know about it, and
its finalization takes the other one back.

`balances_conserved` states when the ledger is kept: at every upsert the stored balance is the one
that the snapshot captured. It is then the sum, over the finalized snapshots, of what they carry
over for the address. `balance_lost` is a run of two snapshots, one after the other, in which it is
not.
-/

set_option autoImplicit false

namespace PublicPool.Proofs

open Lib (OrdMap Machine)
open Lib.RowLocks

/-! ### Balances -/

/-- The stored balance of an address. -/
def balanceOf (ledger : Ledger) (address : String) : ℤ :=
  ((ledger.balances.get? address).map (·.balanceSats)).getD 0

/-- What some entries carry over for an address. -/
def carriedOf (entries : List PayoutDistributionEntry) (address : String) : ℤ :=
  ((entries.filter (·.address = address)).map fun entry =>
    entry.grossPayoutSats - entry.payoutSats).sum

/-- The snapshots that were finalized. -/
def finalizedSnapshots (history : List PayoutEvent) : Finset ℕ :=
  ((finalizedOf history).map Prod.snd).toFinset

theorem carriedOf_append (entries more : List PayoutDistributionEntry) (address : String) :
    carriedOf (entries ++ more) address = carriedOf entries address + carriedOf more address := by
  simp [carriedOf]

theorem carriedOf_singleton (entry : PayoutDistributionEntry) (address : String) :
    carriedOf [entry] address
      = if entry.address = address then entry.grossPayoutSats - entry.payoutSats else 0 := by
  by_cases haddress : entry.address = address
  · simp [carriedOf, haddress]
  · simp [carriedOf, haddress]

section
variable {address : String} {ledger written : Ledger}

theorem carriedOf_eq_zero {entries : List PayoutDistributionEntry}
    (h : ∀ entry ∈ entries, entry.address ≠ address) : carriedOf entries address = 0 := by
  have hnone : entries.filter (·.address = address) = [] := by
    rw [List.filter_eq_nil_iff]
    intro entry hentry
    simpa using h entry hentry
  rw [carriedOf, hnone]
  rfl

theorem balanceOf_overlay_of_none (h : rowsOf written (.balance address) = none) :
    balanceOf (ledger.overlay written) address = balanceOf ledger address := by
  have hrow : (ledger.overlay written).balances.get? address = ledger.balances.get? address :=
    (congrFun (rowsOf_overlay ledger written) (.balance address)).trans (overlay_of_none h)
  rw [balanceOf, hrow, balanceOf]

theorem balanceOf_overlay_of_some (h : (rowsOf written (.balance address)).isSome) :
    balanceOf (ledger.overlay written) address = balanceOf written address := by
  have hrow : (ledger.overlay written).balances.get? address = written.balances.get? address :=
    (congrFun (rowsOf_overlay ledger written) (.balance address)).trans (overlay_of_some h)
  rw [balanceOf, hrow, balanceOf]

end

/-! ### The condition -/

/-- A balance is written only while the stored balance is the one before the entry. When the
snapshot was finalized before, it is the one after the entry. -/
def CapturedCurrent (world : PayoutWorld) (history : List PayoutEvent) : PayoutInput → Prop
  | .statement id =>
    match world.calls id with
    | some (.finalize call) =>
      match call.stage with
      | .upsertBalance _ entry _ =>
        world.otherCall id (·.holdsBalance entry.address) = true ∨
          balanceOf (world.db.ledger.overlay call.written) entry.address
            = if call.payoutSnapshotId ∈ finalizedSnapshots history then entry.balanceAfterSats
              else entry.balanceBeforeSats
      | _ => True
    | _ => True
  | _ => True

instance : ∀ world history input, Decidable (CapturedCurrent world history input) := by
  rintro world history (_ | _ | id | _ | _) <;> unfold CapturedCurrent
  case statement =>
    dsimp only
    generalize world.calls id = call
    rcases call with _ | (_ | ⟨input, payoutSnapshotId, stage, written, applied⟩)
    case some.finalize => rcases stage with _ | _ | _ | _ | _ | _ <;> dsimp only <;> infer_instance
    all_goals exact isTrue trivial
  all_goals exact isTrue trivial

/-- Every balance is the sum of what the finalized snapshots carry over. -/
def Conserved (db : Database) (history : List PayoutEvent) : Prop :=
  ∀ address, balanceOf db.ledger address
    = ∑ payoutSnapshotId ∈ finalizedSnapshots history,
        carriedOf (db.entriesOf payoutSnapshotId) address

/-! ### The entries a call is through with -/

/-- The entries whose balance a call has written. -/
def booked (call : FinalizeCall) : List PayoutDistributionEntry :=
  call.applied ++ halfApplied call.stage

/-- What a call has added to the balance of an address. A snapshot that was finalized before adds
nothing. -/
def addedBy (history : List PayoutEvent) (call : FinalizeCall) (address : String) : ℤ :=
  if call.payoutSnapshotId ∈ finalizedSnapshots history then 0
  else carriedOf (booked call) address

section

variable {env : PayoutEnv} {config : PayoutConfig} {world : PayoutWorld}
  {history : List PayoutEvent}

variable {id : ℕ} {call call' : FinalizeCall} {entry : PayoutDistributionEntry}
  {world' : PayoutWorld}

/-- A call holds the rows of the balances it has written. -/
theorem isSome_of_booked (h : SerialInv world) (hcall : world.calls id = some (.finalize call))
    (hentry : entry ∈ booked call) : (rowsOf call.written (.balance entry.address)).isSome := by
  have hwrite : balanceWrite entry ∈ callWrites call := by
    rcases List.mem_append.mp hentry with happlied | hhalf
    · refine List.mem_append_left _ (List.mem_flatMap.mpr ⟨entry, happlied, ?_⟩)
      exact List.mem_cons_self
    · exact List.mem_append_right _ (List.mem_map_of_mem hhalf)
  by_contra hnone
  rw [Option.not_isSome_iff_eq_none] at hnone
  exact (h.serial.found id _ (txnsOf_of_call hcall) (balanceWrite entry) hwrite hnone).1

/-- An address whose row a call does not hold is not among its entries. -/
theorem addedBy_eq_zero (h : SerialInv world) (hcall : world.calls id = some (.finalize call))
    {address : String} (hnone : rowsOf call.written (.balance address) = none) :
    addedBy history call address = 0 := by
  unfold addedBy
  split
  · rfl
  · refine carriedOf_eq_zero fun entry hentry haddress => ?_
    have hsome := isSome_of_booked h hcall hentry
    rw [haddress, hnone] at hsome
    cases hsome

/-- What a call has written begins with the first entry of its snapshot. -/
theorem booked_prefix {db : Database} (hok : CallOk db call) :
    booked call <+: db.entriesOf call.payoutSnapshotId := by
  unfold booked
  cases hstage : call.stage with
  | readSnapshot | readHistory | readEntries =>
    have hidle : call.applied = [] := hok.idle (by rw [hstage]; rfl)
    rw [hidle]
    exact List.nil_prefix
  | upsertBalance snapshot entry pending =>
    obtain ⟨hentries, -⟩ := hok.entries (entry :: pending) (by rw [hstage]; rfl)
    exact ⟨entry :: pending, by simpa [halfApplied] using hentries⟩
  | insertHistory snapshot entry pending =>
    obtain ⟨hentries, -⟩ := hok.entries (entry :: pending) (by rw [hstage]; rfl)
    exact ⟨pending, by simpa [halfApplied] using hentries⟩
  | commit snapshot =>
    obtain ⟨hentries, -⟩ := hok.entries [] (by rw [hstage]; rfl)
    exact ⟨[], by simpa [halfApplied] using hentries⟩

/-- Two calls for one snapshot have not both begun to write: both would hold the row of its first
entry. -/
theorem booked_eq_nil (h : SerialInv world) {id' : ℕ} (hne : id ≠ id')
    (hcall : world.calls id = some (.finalize call))
    (hcall' : world.calls id' = some (.finalize call'))
    (hsame : call.payoutSnapshotId = call'.payoutSnapshotId) (hbegun : booked call ≠ []) :
    booked call' = [] := by
  have hprefix := booked_prefix (h.calls id call hcall)
  have hprefix' := booked_prefix (h.calls id' call' hcall')
  cases hfirst : booked call with
  | nil => exact absurd hfirst hbegun
  | cons entry rest =>
    cases hfirst' : booked call' with
    | nil => rfl
    | cons entry' rest' =>
      rw [hfirst] at hprefix
      rw [hfirst', ← hsame] at hprefix'
      obtain ⟨more, hmore⟩ := hprefix
      obtain ⟨more', hmore'⟩ := hprefix'
      have heq : entry = entry' := by
        have hlists := hmore.trans hmore'.symm
        simp only [List.cons_append, List.cons.injEq] at hlists
        exact hlists.1
      have hsome : (rowsOf call.written (.balance entry.address)).isSome :=
        isSome_of_booked h hcall (by rw [hfirst]; exact List.mem_cons_self)
      have hsome' : (rowsOf call'.written (.balance entry.address)).isSome :=
        isSome_of_booked h hcall' (by rw [hfirst', heq]; exact List.mem_cons_self)
      have hnone : rowsOf call'.written (.balance entry.address) = none :=
        h.serial.locks id id' _ _ _ hne (txnsOf_of_call hcall) (txnsOf_of_call hcall') hsome
      rw [hnone] at hsome'
      cases hsome'

/-! ### The invariant -/

/-- The committed balances are conserved, and each call sees them with what it added on top. -/
structure ConservedInv (world : PayoutWorld) (history : List PayoutEvent) : Prop where
  serial : SerialInv world
  conserved : Conserved world.db history
  known : ∀ payoutSnapshotId ∈ finalizedSnapshots history,
    ∃ snapshot ∈ world.db.snapshots, snapshot.id = payoutSnapshotId
  seen : ∀ id call, world.calls id = some (.finalize call) → ∀ address,
    balanceOf (world.db.ledger.overlay call.written) address
      = balanceOf world.db.ledger address + addedBy history call address

theorem conservedInv_initial : ConservedInv .initial [] where
  serial := serialInv_initial
  conserved _ := rfl
  known _ hmem := nomatch hmem
  seen _ _ hcall := nomatch hcall

/-- A step that commits no finalization. -/
theorem ConservedInv.keeps (h : ConservedInv world history) {events : List PayoutEvent}
    (hserial : SerialInv world') (hnone : finalizedOf events = [])
    (hledger : world'.db.ledger = world.db.ledger) (hextends : Extends world.db world'.db)
    (hseen : ∀ id call, world'.calls id = some (.finalize call) → ∀ address,
      balanceOf (world.db.ledger.overlay call.written) address
        = balanceOf world.db.ledger address + addedBy history call address) :
    ConservedInv world' (history ++ events) := by
  have hfinalized : finalizedSnapshots (history ++ events) = finalizedSnapshots history := by
    rw [finalizedSnapshots, finalizedOf_append, hnone, List.append_nil, finalizedSnapshots]
  refine ⟨hserial, ?_, ?_, ?_⟩
  · intro address
    rw [hledger, hfinalized, h.conserved address]
    refine Finset.sum_congr rfl fun payoutSnapshotId hmem => ?_
    rw [hextends.entries payoutSnapshotId (h.known payoutSnapshotId hmem)]
  · rw [hfinalized]
    intro payoutSnapshotId hmem
    obtain ⟨snapshot, hsnapshot, rfl⟩ := h.known payoutSnapshotId hmem
    exact hextends.exists_snapshot hsnapshot
  · simp only [addedBy, hfinalized, hledger]
    exact hseen

/-- A statement other than an upsert adds nothing to a balance. -/
theorem CallStep.booked_eq (hstep : CallStep world id call call') :
    (∃ snapshot entry pending, call.stage = .upsertBalance snapshot entry pending ∧
        world.otherCall id (·.holdsBalance entry.address) = false ∧
        booked call' = booked call ++ [entry] ∧
        call'.payoutSnapshotId = call.payoutSnapshotId ∧
        call'.written.balances = call.written.balances.set entry.address (BalanceRow.upsert entry
          ((world.db.ledger.overlay call.written).balances.get? entry.address))) ∨
      booked call' = booked call ∧ call'.payoutSnapshotId = call.payoutSnapshotId ∧
        call'.written.balances = call.written.balances := by
  cases hstep with
  | found snapshot hstage hfind => exact Or.inr ⟨by simp [booked, hstage, halfApplied], rfl, rfl⟩
  | passed snapshot hstage hfree => exact Or.inr ⟨by simp [booked, hstage, halfApplied], rfl, rfl⟩
  | loaded snapshot entry pending hstage hentries =>
    exact Or.inr ⟨by simp [booked, hstage, halfApplied], rfl, rfl⟩
  | upserted snapshot entry pending hstage hfree =>
    refine Or.inl ⟨snapshot, entry, pending, hstage, hfree, ?_, rfl, rfl⟩
    simp [booked, hstage, halfApplied]
  | skipped snapshot entry pending hstage hpresent =>
    refine Or.inr ⟨?_, rfl, rfl⟩
    simp only [booked, hstage, halfApplied_next, List.append_nil]
    rfl
  | inserted snapshot entry pending hstage habsent hfree =>
    refine Or.inr ⟨?_, rfl, rfl⟩
    simp only [booked, hstage, halfApplied_next, List.append_nil]
    rfl

/-- Two ledgers with the same balances look the same under a ledger. -/
theorem balanceOf_overlay_congr {ledger written written' : Ledger}
    (h : written'.balances = written.balances) (address : String) :
    balanceOf (ledger.overlay written') address = balanceOf (ledger.overlay written) address := by
  simp only [balanceOf, Ledger.overlay, h]

/-- An upsert of the current balance adds what the entry carries over. -/
theorem seen_upsert (h : ConservedInv world history)
    (hcall : world.calls id = some (.finalize call)) (hbalanced : EntryBalanced entry)
    (hcurrent : balanceOf (world.db.ledger.overlay call.written) entry.address
      = if call.payoutSnapshotId ∈ finalizedSnapshots history then entry.balanceAfterSats
        else entry.balanceBeforeSats) (hbooked : booked call' = booked call ++ [entry])
    (hid : call'.payoutSnapshotId = call.payoutSnapshotId)
    (hwritten : call'.written.balances = call.written.balances.set entry.address
      (BalanceRow.upsert entry
        ((world.db.ledger.overlay call.written).balances.get? entry.address))) (address : String) :
    balanceOf (world.db.ledger.overlay call'.written) address
      = balanceOf world.db.ledger address + addedBy history call' address := by
  have hbefore := h.seen id call hcall address
  by_cases haddress : address = entry.address
  · subst haddress
    have hself : call'.written.balances.get? entry.address = some (BalanceRow.upsert entry
        ((world.db.ledger.overlay call.written).balances.get? entry.address)) := by
      rw [hwritten, OrdMap.get?_set, if_pos rfl]
    have hafter : balanceOf (world.db.ledger.overlay call'.written) entry.address
        = entry.balanceAfterSats := by
      have hsome : (rowsOf call'.written (.balance entry.address)).isSome :=
        Option.isSome_of_eq_some hself
      rw [balanceOf_overlay_of_some hsome, balanceOf, hself]
      rfl
    have hcarried := hbalanced.carried
    rw [hafter]
    simp only [addedBy, hid, hbooked, carriedOf_append, carriedOf_singleton, if_true]
    simp only [addedBy] at hbefore
    split at hcurrent
    · rename_i hagain
      simp only [if_pos hagain] at hbefore ⊢
      omega
    · rename_i hfirst
      simp only [if_neg hfirst] at hbefore ⊢
      omega
  · have hother : call'.written.balances.get? address = call.written.balances.get? address := by
      rw [hwritten, OrdMap.get?_set, if_neg haddress]
    have hsame : balanceOf (world.db.ledger.overlay call'.written) address
        = balanceOf (world.db.ledger.overlay call.written) address := by
      simp only [balanceOf, Ledger.overlay, OrdMap.get?_setAll, hother]
    rw [hsame, hbefore]
    simp only [addedBy, hid, hbooked, carriedOf_append, carriedOf_singleton,
      if_neg (Ne.symm haddress), add_zero]

/-- A call commits: the balances it wrote are the committed ones, and its snapshot is finalized. -/
theorem ConservedInv.commits (h : ConservedInv world history) {snapshot : SnapshotRow}
    (hcall : world.calls id = some (.finalize call)) (hstage : call.stage = .commit snapshot)
    (hserial : SerialInv world') (hcalls : world'.calls = (world.setCall id none).calls)
    (hdb : world'.db = { world.db with ledger := world.db.ledger.overlay call.written }) :
    ConservedInv world' (history ++ [.finalizeEnded call.input (.finalized call.payoutSnapshotId
      call.applied.length call.applied.length)]) := by
  obtain ⟨hfound, hentries, hne, -⟩ := h.serial.commit hcall hstage
  have hbooked : booked call = world.db.entriesOf call.payoutSnapshotId := by
    simp [booked, hstage, halfApplied, hentries]
  have hfinalized : finalizedSnapshots (history ++ [.finalizeEnded call.input (.finalized
      call.payoutSnapshotId call.applied.length call.applied.length)])
        = insert call.payoutSnapshotId (finalizedSnapshots history) := by
    rw [finalizedSnapshots, finalizedOf_append, List.map_append, List.toFinset_append,
      Finset.union_comm]
    rfl
  refine ⟨hserial, ?_, ?_, ?_⟩
  · intro address
    rw [hdb, hfinalized]
    show balanceOf (world.db.ledger.overlay call.written) address
      = ∑ payoutSnapshotId ∈ insert call.payoutSnapshotId (finalizedSnapshots history),
          carriedOf (world.db.entriesOf payoutSnapshotId) address
    rw [h.seen id call hcall, h.conserved, addedBy, hbooked]
    split
    · rename_i hagain
      rw [Finset.insert_eq_of_mem hagain, add_zero]
    · rename_i hfirst
      rw [Finset.sum_insert hfirst, add_comm]
  · rw [hfinalized, hdb]
    intro payoutSnapshotId hmem
    rcases Finset.mem_insert.mp hmem with rfl | hold
    · exact ⟨snapshot, List.mem_of_find?_eq_some hfound, by simpa using List.find?_some hfound⟩
    · exact h.known payoutSnapshotId hold
  · intro id' call' hcall' address
    have hid : id' ≠ id := by
      rintro rfl
      rw [hcalls] at hcall'
      simp [PayoutWorld.setCall] at hcall'
    have hold : world.calls id' = some (.finalize call') := by
      rw [hcalls] at hcall'
      simpa [PayoutWorld.setCall, Function.update_of_ne hid] using hcall'
    -- a call for the snapshot that is finalized now has not begun to write
    have hadded : addedBy (history ++ [.finalizeEnded call.input (.finalized call.payoutSnapshotId
        call.applied.length call.applied.length)]) call' address
          = addedBy history call' address := by
      simp only [addedBy, hfinalized, Finset.mem_insert]
      by_cases hsame : call'.payoutSnapshotId = call.payoutSnapshotId
      · have hnothing : booked call' = [] :=
          booked_eq_nil h.serial (Ne.symm hid) hcall hold hsame.symm (hbooked ▸ hne)
        rw [hnothing]
        simp [carriedOf]
      · simp only [hsame, false_or]
    rw [hdb, hadded]
    show balanceOf ((world.db.ledger.overlay call.written).overlay call'.written) address
      = balanceOf (world.db.ledger.overlay call.written) address + _
    by_cases hrow : (rowsOf call'.written (.balance address)).isSome
    · -- the row of the call is its own, and the commit does not touch it
      have hnone : rowsOf call.written (.balance address) = none :=
        h.serial.serial.locks id' id _ _ _ hid (txnsOf_of_call hold) (txnsOf_of_call hcall) hrow
      have hseen := h.seen id' call' hold address
      rw [balanceOf_overlay_of_some hrow] at hseen ⊢
      rw [balanceOf_overlay_of_none hnone]
      exact hseen
    · rw [Option.not_isSome_iff_eq_none] at hrow
      rw [balanceOf_overlay_of_none hrow, addedBy_eq_zero h.serial hold hrow, add_zero]

/-- Every step under the condition keeps the invariant. -/
theorem ConservedInv.step (h : ConservedInv world history) {input : PayoutInput}
    (hcurrent : CapturedCurrent world history input) :
    ConservedInv (payoutStep env config world input).1
      (history ++ (payoutStep env config world input).2) := by
  obtain ⟨hcreate, hstep⟩ := @payoutStep_spec env config world h.serial.create input
  have hserial := h.serial.step hcreate hstep
  generalize payoutStep env config world input = after at hcreate hstep hserial ⊢
  obtain ⟨world', events⟩ := after
  simp only at hstep hserial ⊢
  cases hstep with
  | quiet _ _ _ hledger hextends hcalls hfinalized =>
    exact h.keeps hserial hfinalized hledger hextends
      fun id call hcall => h.seen id call (hcalls id call hcall)
  | begins ended payoutSnapshotId =>
    refine h.keeps hserial rfl rfl (.of_eq rfl rfl) ?_
    intro id call hcall address
    by_cases hid : id = world.nextCall
    · subst hid
      simp only [PayoutWorld.begin, PayoutWorld.setCall, Function.update_self, Option.some.injEq,
        PayoutCall.finalize.injEq] at hcall
      subst hcall
      have hnone : rowsOf (FinalizeCall.start ended payoutSnapshotId).written (.balance address)
          = none := rfl
      rw [balanceOf_overlay_of_none hnone]
      simp [addedBy, booked, FinalizeCall.start, halfApplied, carriedOf]
    · simp only [PayoutWorld.begin, PayoutWorld.setCall, Function.update_of_ne hid] at hcall
      exact h.seen id call hcall address
  | goesOn id call call' hcall hgoes =>
    refine h.keeps hserial rfl rfl (.of_eq rfl rfl) ?_
    intro id' other hother address
    by_cases hid : id' = id
    · subst hid
      simp only [PayoutWorld.setCall, Function.update_self, Option.some.injEq,
        PayoutCall.finalize.injEq] at hother
      subst hother
      rcases hgoes.booked_eq with ⟨snapshot, entry, pending, hstage, hfree, hbooked, hsame,
        hwritten⟩ | ⟨hbooked, hsame, hwritten⟩
      · simp only [CapturedCurrent, hcall, hstage] at hcurrent
        have hstored := hcurrent.resolve_left (by simp [hfree])
        have hok := h.serial.calls id' call hcall
        obtain ⟨hentries, -⟩ := hok.entries (entry :: pending) (by rw [hstage]; rfl)
        have hmem : entry ∈ world.db.entriesOf call.payoutSnapshotId := by
          rw [← hentries]
          exact List.mem_append_right _ List.mem_cons_self
        exact seen_upsert h hcall (h.serial.create.entryBalanced _ entry hmem) hstored hbooked hsame
          hwritten address
      · rw [balanceOf_overlay_congr hwritten, h.seen id' call hcall address]
        simp only [addedBy, hbooked, hsame]
    · simp only [PayoutWorld.setCall, Function.update_of_ne hid] at hother
      exact h.seen id' other hother address
  | commits id call snapshot hcall hstage => exact h.commits hcall hstage hserial rfl rfl

/-! ### The result -/

variable (env config) in
/-- **The ledger is conserved**, in every state of every run in which each balance is written over
the one that the snapshot captured. -/
theorem balances_conserved (inputs : List PayoutInput)
    (hcurrent : (payoutMachine env config).Along CapturedCurrent .initial [] inputs) :
    Conserved ((payoutMachine env config).final .initial inputs).db
      ((payoutMachine env config).history .initial inputs) := by
  have hstep : ∀ world history input, ConservedInv world history →
      CapturedCurrent world history input →
      ConservedInv ((payoutMachine env config).step world input).1
        (history ++ ((payoutMachine env config).step world input).2) :=
    fun world history input hinv hcurrent => hinv.step hcurrent
  have hend := (payoutMachine env config).history_invariant hstep conservedInv_initial hcurrent
  rw [List.nil_append] at hend
  exact hend.conserved

end

/-! ### Two snapshots -/

/-- A pool with one output in its coinbase. -/
def sampleOneOutput : PayoutConfig := { sampleConfig with maxCoinbaseOutputs := 1 }

/-- A snapshot is taken for a height, in one go. -/
def sampleTake (blockHeight : ℤ) (call : ℕ) : List PayoutInput :=
  .createSnapshotForTemplate ⟨blockHeight, 1000, 100⟩ :: List.replicate 10 (.statement call)

/-- A snapshot is finalized, in one go. -/
def sampleFinalize (payoutSnapshotId : ℕ) (blockHeight : ℤ) (call : ℕ) : List PayoutInput :=
  .finalizeSnapshotForBlock
    { payoutSnapshotId := some payoutSnapshotId
      blockHeight
      blockSubmissionResult := some "SUCCESS!"
      payoutMode := .pplns } :: List.replicate 8 (.statement call)

/-- Two miners, of whom the second carries over 10 sats of every block. -/
def sampleMiners : List PayoutInput :=
  [.rollup [⟨1, 1, 10, 10, 100⟩] [⟨1, "A", 99, 9⟩, ⟨1, "B", 1, 1⟩]]

/-- The second snapshot is taken after the first one is finalized. -/
def sampleTakenAfter : List PayoutInput :=
  sampleMiners ++ sampleTake 5 0 ++ sampleFinalize 1 5 1 ++ sampleTake 6 2 ++ sampleFinalize 2 6 3

/-- The second snapshot is taken before the first one is finalized. -/
def sampleTakenBefore : List PayoutInput :=
  sampleMiners ++ sampleTake 5 0 ++ sampleTake 6 1 ++ sampleFinalize 1 5 2 ++ sampleFinalize 2 6 3

theorem balances_conserved_sample :
    Conserved ((payoutMachine sampleEnv sampleOneOutput).final .initial sampleTakenAfter).db
        ((payoutMachine sampleEnv sampleOneOutput).history .initial sampleTakenAfter) ∧
      balanceOf ((payoutMachine sampleEnv sampleOneOutput).final .initial
        sampleTakenAfter).db.ledger "B" = 20 :=
  ⟨balances_conserved sampleEnv sampleOneOutput sampleTakenAfter (by decide +kernel),
    by decide +kernel⟩

/-- Both snapshots are finalized, one after the other, and the second miner has 10 sats. -/
theorem balance_lost :
    finalizedOf ((payoutMachine sampleEnv sampleOneOutput).history .initial sampleTakenBefore)
        = [(5, 1), (6, 2)] ∧
      balanceOf ((payoutMachine sampleEnv sampleOneOutput).final .initial
        sampleTakenBefore).db.ledger "B" = 10 ∧
      ¬ Conserved ((payoutMachine sampleEnv sampleOneOutput).final .initial sampleTakenBefore).db
        ((payoutMachine sampleEnv sampleOneOutput).history .initial sampleTakenBefore) := by
  refine ⟨by decide +kernel, by decide +kernel, ?_⟩
  intro hconserved
  exact absurd (hconserved "B") (by decide +kernel)

end PublicPool.Proofs
