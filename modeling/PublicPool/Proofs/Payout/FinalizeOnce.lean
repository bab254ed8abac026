import PublicPool.Proofs.Payout.Serial

/-!
# `PublicPool.Proofs.Payout.FinalizeOnce`: one finalization per block

`finalizeSnapshotForBlock` guards itself with a read of the payout history at its height. The rows
that the guard looks for become visible with the commit, so a second call that reads before that
passes the guard too. Nothing stops it afterwards: the unique index of the payout history makes
its inserts do nothing, and its balance upserts wait for the first call and then run on top.

`finalized_once` states when a block is finalized once. The condition is `GuardsApart`: no call
reads the guard while another call of its height is past it. Under it every height is finalized at
most once, the ledger changes at that moment alone, by the entries of the snapshot as a whole, and
every call that was told of a finalization is right. `finalized_twice` is a run of two calls for
one block that overlap.
-/

set_option autoImplicit false

namespace PublicPool.Proofs

open Lib (OrdMap Machine)
open Lib.RowLocks

/-! ### What a finalization does to the ledger -/

/-- Two ledgers with the same rows. -/
def SameRows (ledger ledger' : Ledger) : Prop :=
  (∀ address, ledger.balances.get? address = ledger'.balances.get? address) ∧
    ∀ key, ledger.history.get? key = ledger'.history.get? key

theorem sameRows_of_rowsOf {ledger ledger' : Ledger} (h : rowsOf ledger = rowsOf ledger') :
    SameRows ledger ledger' :=
  ⟨fun address => congrFun h (.balance address), fun key => congrFun h (.payout key.1 key.2)⟩

/-- What an address was paid in all. -/
def totalPaid (ledger : Ledger) (address : String) : ℤ :=
  ((ledger.balances.get? address).map (·.totalPaidSats)).getD 0

/-- What an address is paid by some entries. -/
def paidTo (entries : List PayoutDistributionEntry) (address : String) : ℤ :=
  ((entries.filter (·.address = address)).map (·.payoutSats)).sum

/-- The guard is about the rows of the payout history. -/
theorem finalizedAt_iff (ledger : Ledger) (blockHeight : ℤ) :
    ledger.finalizedAt blockHeight = true ↔
      ∃ address, (ledger.history.get? (blockHeight, address)).isSome := by
  simp only [Ledger.finalizedAt, List.any_eq_true, decide_eq_true_eq, OrdMap.get?_isSome_iff]
  constructor
  · rintro ⟨⟨_, address⟩, hmem, rfl⟩
    exact ⟨address, hmem⟩
  · rintro ⟨address, hmem⟩
    exact ⟨(blockHeight, address), hmem, rfl⟩

section Apply

variable (blockHeight : ℤ) (payoutSnapshotId : ℕ) (coinbaseValue : ℤ)

variable (ledger : Ledger) (entry : PayoutDistributionEntry) (key : ℤ × String)

theorem history_insertHistory :
    ((ledger.insertHistory blockHeight payoutSnapshotId coinbaseValue entry).history.get?
        key).isSome
      ↔ (ledger.history.get? key).isSome ∨ key = (blockHeight, entry.address) := by
  unfold Ledger.insertHistory
  split
  · rename_i hpresent
    refine ⟨Or.inl, ?_⟩
    rintro (hold | rfl)
    · exact hold
    · exact hpresent
  · simp only [OrdMap.get?_isSome_iff, OrdMap.mem_keys_set]

/-- The payouts after a finalization are the old ones and those of the entries. -/
theorem history_apply (entries : List PayoutDistributionEntry) (key : ℤ × String) :
    ((ledger.apply blockHeight payoutSnapshotId coinbaseValue entries).history.get? key).isSome
      ↔ (ledger.history.get? key).isSome ∨ ∃ entry ∈ entries, key = (blockHeight, entry.address)
      := by
  induction entries generalizing ledger with
  | nil => simp [Ledger.apply]
  | cons entry entries ih =>
    refine (ih _).trans ?_
    rw [history_insertHistory, List.exists_mem_cons_iff, or_assoc]
    rfl

theorem balances_insertHistory :
    (ledger.insertHistory blockHeight payoutSnapshotId coinbaseValue entry).balances
      = ledger.balances := by
  unfold Ledger.insertHistory
  split <;> rfl

theorem totalPaid_upsertBalance {entry : PayoutDistributionEntry} (hentry : EntryBalanced entry)
    (address : String) :
    totalPaid (ledger.upsertBalance entry) address
      = totalPaid ledger address + if entry.address = address then entry.payoutSats else 0 := by
  have hpaid : (if entry.includedInCoinbase then entry.payoutSats else 0) = entry.payoutSats := by
    split
    · rfl
    · rename_i hinc
      exact (hentry.unpaid (Bool.not_eq_true _ ▸ hinc)).symm
  simp only [totalPaid, Ledger.upsertBalance, hpaid]
  rw [OrdMap.get?_set]
  by_cases haddress : address = entry.address
  · subst haddress
    simp
  · simp [haddress, Ne.symm haddress]

/-- A finalization pays every address its entries, once. -/
theorem totalPaid_apply {entries : List PayoutDistributionEntry}
    (hentries : ∀ entry ∈ entries, EntryBalanced entry) (address : String) :
    totalPaid (ledger.apply blockHeight payoutSnapshotId coinbaseValue entries) address
      = totalPaid ledger address + paidTo entries address := by
  induction entries generalizing ledger with
  | nil => simp [Ledger.apply, paidTo]
  | cons entry entries ih =>
    obtain ⟨hentry, hrest⟩ := List.forall_mem_cons.mp hentries
    refine (ih _ hrest).trans ?_
    have hinsert : totalPaid ((ledger.upsertBalance entry).insertHistory blockHeight
        payoutSnapshotId coinbaseValue entry) address
          = totalPaid (ledger.upsertBalance entry) address := by
      simp only [totalPaid, balances_insertHistory]
    rw [hinsert, totalPaid_upsertBalance ledger hentry]
    by_cases haddress : entry.address = address
    · simp only [paidTo, List.filter_cons, haddress, decide_true, if_true, List.map_cons,
        List.sum_cons]
      omega
    · simp only [paidTo, List.filter_cons, haddress, decide_false, if_false]
      simp

end Apply

/-! ### The condition and the property -/

/-- Whether a call has passed the guard. -/
def pastGuard : FinalizeStage → Bool
  | .readSnapshot | .readHistory _ => false
  | .readEntries _ | .upsertBalance .. | .insertHistory .. | .commit _ => true

/-- Whether a call has passed the guard at a height. -/
def pastGuardAt (blockHeight : ℤ) : PayoutCall → Bool
  | .create .. => false
  | .finalize call => pastGuard call.stage && decide (call.input.blockHeight = blockHeight)

/-- A call reads the guard only while no other call of its height is past it. -/
def GuardsApart (world : PayoutWorld) (_ : List PayoutEvent) : PayoutInput → Prop
  | .statement id =>
    match world.calls id with
    | some (.finalize call) =>
      match call.stage with
      | .readHistory _ => world.otherCall id (pastGuardAt call.input.blockHeight) = false
      | _ => True
    | _ => True
  | _ => True

instance : ∀ world history input, Decidable (GuardsApart world history input) := by
  rintro world history (_ | _ | id | _ | _) <;> unfold GuardsApart
  case statement =>
    dsimp only
    generalize world.calls id = call
    rcases call with _ | (_ | ⟨input, payoutSnapshotId, stage, written, applied⟩)
    case some.finalize => rcases stage with _ | _ | _ | _ | _ | _ <;> dsimp only <;> infer_instance
    all_goals exact isTrue trivial
  all_goals exact isTrue trivial

/-- A step leaves the ledger alone, or it applies a snapshot, as a whole and at a height that was
not finalized before. -/
def FinalizesOnce (env : PayoutEnv) (config : PayoutConfig) (world : PayoutWorld)
    (history : List PayoutEvent) (input : PayoutInput) : Prop :=
  let after := payoutStep env config world input
  (finalizedOf after.2 = [] ∧ after.1.db.ledger = world.db.ledger) ∨
    ∃ blockHeight snapshot, finalizedOf after.2 = [(blockHeight, snapshot.id)] ∧
      (∀ finalized ∈ finalizedOf history, finalized.1 ≠ blockHeight) ∧
      snapshot ∈ world.db.snapshots ∧
      SameRows after.1.db.ledger (world.db.ledger.apply blockHeight snapshot.id
        snapshot.coinbaseValueSats (world.db.entriesOf snapshot.id)) ∧
      ∀ address, totalPaid after.1.db.ledger address
        = totalPaid world.db.ledger address + paidTo (world.db.entriesOf snapshot.id) address

/-- Whether a call was told that its block is finalized, by itself or before. -/
def SaysFinalized : PayoutFinalizationResult → Prop
  | .finalized .. => True
  | .refused reason => reason = .alreadyFinalized

/-! ### The invariant -/

/-- The calls past the guard are of different heights, none of which is finalized. The heights that
are finalized are those with payouts, and nobody is told otherwise. -/
structure OnceInv (world : PayoutWorld) (history : List PayoutEvent) : Prop where
  serial : SerialInv world
  apart : ∀ id id' call call', id ≠ id' → world.calls id = some (.finalize call) →
    world.calls id' = some (.finalize call') → pastGuard call.stage → pastGuard call'.stage →
    call.input.blockHeight ≠ call'.input.blockHeight
  ahead : ∀ id call, world.calls id = some (.finalize call) → pastGuard call.stage →
    ∀ finalized ∈ finalizedOf history, finalized.1 ≠ call.input.blockHeight
  paid : ∀ blockHeight, world.db.ledger.finalizedAt blockHeight = true ↔
    ∃ finalized ∈ finalizedOf history, finalized.1 = blockHeight
  once : ((finalizedOf history).map Prod.fst).Nodup
  told : ∀ input result, .finalizeEnded input result ∈ history → SaysFinalized result →
    ∃ finalized ∈ finalizedOf history, finalized.1 = input.blockHeight

theorem onceInv_initial : OnceInv .initial [] where
  serial := serialInv_initial
  apart := fun _ _ _ _ _ hcall => nomatch hcall
  ahead := fun _ _ hcall => nomatch hcall
  paid := by
    intro blockHeight
    simp [PayoutWorld.initial, Ledger.finalizedAt, OrdMap.empty, OrdMap.keys, finalizedOf]
  once := List.nodup_nil
  told := fun _ _ hmem => nomatch hmem

section

variable {env : PayoutEnv} {config : PayoutConfig} {world : PayoutWorld}
  {history : List PayoutEvent}

variable {blockHeight : ℤ} {id : ℕ} {call : FinalizeCall} {snapshot : SnapshotRow}
  {world' : PayoutWorld}

/-- What is finalized is so in the eyes of every call. -/
theorem finalizedAt_overlay {ledger written : Ledger} (h : ledger.finalizedAt blockHeight = true) :
    (ledger.overlay written).finalizedAt blockHeight = true := by
  obtain ⟨address, haddress⟩ := (finalizedAt_iff _ _).mp h
  refine (finalizedAt_iff _ _).mpr ⟨address, ?_⟩
  have hrow : ((rowsOf (ledger.overlay written)) (.payout blockHeight address)).isSome := by
    rw [rowsOf_overlay]
    exact isSome_overlay haddress
  exact hrow

/-- The guard of a call reads the committed rows. -/
theorem finalizedAt_of_readHistory (h : SerialInv world)
    (hcall : world.calls id = some (.finalize call)) (hstage : call.stage = .readHistory snapshot)
    (hfinalized : (world.db.ledger.overlay call.written).finalizedAt blockHeight = true) :
    world.db.ledger.finalizedAt blockHeight = true := by
  have hidle : call.applied = [] := (h.calls id call hcall).idle (by rw [hstage]; rfl)
  have hwrites : callWrites call = [] := by
    simp only [callWrites, hidle, hstage]
    rfl
  -- a call that has written nothing sees the committed store
  have hsees : rowsOf (world.db.ledger.overlay call.written) = rowsOf world.db.ledger := by
    have hall := h.serial.sees id _ (txnsOf_of_call hcall)
    rw [rowsOf_overlay]
    exact hall.trans (congrArg (fun writes => runAll writes _) hwrites)
  obtain ⟨address, haddress⟩ := (finalizedAt_iff _ _).mp hfinalized
  refine (finalizedAt_iff _ _).mpr ⟨address, ?_⟩
  have hrow : (world.db.ledger.overlay call.written).history.get? (blockHeight, address)
      = world.db.ledger.history.get? (blockHeight, address) :=
    congrFun hsees (.payout blockHeight address)
  rwa [hrow] at haddress

/-- A statement other than the guard leaves a call on its side of it. -/
theorem CallStep.pastGuard_iff {call' : FinalizeCall} (hstep : CallStep world id call call') :
    call'.input = call.input ∧ ((pastGuard call'.stage ↔ pastGuard call.stage) ∨
      ∃ snapshot, call.stage = .readHistory snapshot ∧
        (world.db.ledger.overlay call.written).finalizedAt call.input.blockHeight = false) := by
  cases hstep with
  | found snapshot hstage hfind => exact ⟨rfl, Or.inl (by simp [hstage, pastGuard])⟩
  | passed snapshot hstage hfree => exact ⟨rfl, Or.inr ⟨snapshot, hstage, hfree⟩⟩
  | loaded snapshot entry pending hstage hentries =>
    exact ⟨rfl, Or.inl (by simp [hstage, pastGuard])⟩
  | upserted snapshot entry pending hstage hfree =>
    exact ⟨rfl, Or.inl (by simp [hstage, pastGuard])⟩
  | skipped snapshot entry pending hstage hpresent =>
    exact ⟨rfl, Or.inl (by cases pending <;> simp [hstage, pastGuard, FinalizeStage.next])⟩
  | inserted snapshot entry pending hstage habsent hfree =>
    exact ⟨rfl, Or.inl (by cases pending <;> simp [hstage, pastGuard, FinalizeStage.next])⟩

/-- What a commit does to the payouts: those of the height are there now. -/
theorem finalizedAt_commit (h : SerialInv world) (hcall : world.calls id = some (.finalize call))
    (hstage : call.stage = .commit snapshot) (blockHeight : ℤ) :
    (world.db.ledger.overlay call.written).finalizedAt blockHeight = true ↔
      world.db.ledger.finalizedAt blockHeight = true ∨ blockHeight = call.input.blockHeight := by
  obtain ⟨-, -, hne, hrows⟩ := h.commit hcall hstage
  obtain ⟨entry, hentry⟩ := List.exists_mem_of_ne_nil _ hne
  have hkey := (sameRows_of_rowsOf hrows).2
  simp only [finalizedAt_iff, hkey, history_apply]
  constructor
  · rintro ⟨address, hold | ⟨entry, -, heq⟩⟩
    · exact Or.inl ⟨address, hold⟩
    · exact Or.inr (congrArg Prod.fst heq)
  · rintro (⟨address, hold⟩ | rfl)
    · exact ⟨address, Or.inl hold⟩
    · exact ⟨entry.address, Or.inr ⟨entry, hentry, rfl⟩⟩

/-- A step that commits no finalization. -/
theorem OnceInv.keeps (h : OnceInv world history) {events : List PayoutEvent}
    (hserial : SerialInv world') (hnone : finalizedOf events = [])
    (hledger : world'.db.ledger = world.db.ledger)
    (hapart : ∀ id id' call call', id ≠ id' → world'.calls id = some (.finalize call) →
      world'.calls id' = some (.finalize call') → pastGuard call.stage → pastGuard call'.stage →
      call.input.blockHeight ≠ call'.input.blockHeight)
    (hahead : ∀ id call, world'.calls id = some (.finalize call) → pastGuard call.stage →
      ∀ finalized ∈ finalizedOf history, finalized.1 ≠ call.input.blockHeight)
    (htold : ∀ input, .finalizeEnded input (.refused .alreadyFinalized) ∈ events →
      world.db.ledger.finalizedAt input.blockHeight = true) :
    OnceInv world' (history ++ events) := by
  have hfinalized : finalizedOf (history ++ events) = finalizedOf history := by
    rw [finalizedOf_append, hnone, List.append_nil]
  refine ⟨hserial, hapart, ?_, ?_, ?_, ?_⟩
  · rw [hfinalized]
    exact hahead
  · rw [hfinalized, hledger]
    exact h.paid
  · rw [hfinalized]
    exact h.once
  · rw [hfinalized]
    intro input result hmem hsays
    rcases List.mem_append.mp hmem with hold | hnew
    · exact h.told input result hold hsays
    · refine (h.paid _).mp ?_
      cases result with
      | finalized payoutSnapshotId historyRows balanceRows =>
        have hcounted : (input.blockHeight, payoutSnapshotId) ∈ finalizedOf events :=
          List.mem_filterMap.mpr ⟨_, hnew, rfl⟩
        rw [hnone] at hcounted
        cases hcounted
      | refused reason =>
        obtain rfl : reason = .alreadyFinalized := hsays
        exact htold input hnew

/-- A call commits, and its height is finalized from now on. -/
theorem OnceInv.commits (h : OnceInv world history) (hcall : world.calls id = some (.finalize call))
    (hstage : call.stage = .commit snapshot) (hserial : SerialInv world')
    (hcalls : world'.calls = (world.setCall id none).calls)
    (hledger : world'.db.ledger = world.db.ledger.overlay call.written) :
    OnceInv world' (history ++ [.finalizeEnded call.input (.finalized call.payoutSnapshotId
      call.applied.length call.applied.length)]) := by
  have hpast : pastGuard call.stage := by rw [hstage]; rfl
  have hother : ∀ id' call', world'.calls id' = some (.finalize call') →
      id' ≠ id ∧ world.calls id' = some (.finalize call') := by
    intro id' call' hcall'
    rw [hcalls] at hcall'
    by_cases hid : id' = id
    · subst hid
      simp [PayoutWorld.setCall] at hcall'
    · simp only [PayoutWorld.setCall, Function.update_of_ne hid] at hcall'
      exact ⟨hid, hcall'⟩
  have hfinalized : finalizedOf (history ++ [.finalizeEnded call.input (.finalized
      call.payoutSnapshotId call.applied.length call.applied.length)])
        = finalizedOf history ++ [(call.input.blockHeight, call.payoutSnapshotId)] :=
    finalizedOf_append ..
  refine ⟨hserial, ?_, ?_, ?_, ?_, ?_⟩
  · intro id₁ id₂ call₁ call₂ hne hcall₁ hcall₂
    exact h.apart id₁ id₂ call₁ call₂ hne (hother id₁ call₁ hcall₁).2 (hother id₂ call₂ hcall₂).2
  · intro id' call' hcall' hpast'
    obtain ⟨hid, hold⟩ := hother id' call' hcall'
    rw [hfinalized]
    intro finalized hmem
    rcases List.mem_append.mp hmem with hbefore | hnow
    · exact h.ahead id' call' hold hpast' finalized hbefore
    · rw [List.mem_singleton.mp hnow]
      exact h.apart id id' call call' (Ne.symm hid) hcall hold hpast hpast'
  · intro blockHeight
    rw [hledger, hfinalized, finalizedAt_commit h.serial hcall hstage, h.paid]
    simp [or_and_right, exists_or, eq_comm]
  · rw [hfinalized, List.map_append]
    refine List.nodup_append.mpr ⟨h.once, List.nodup_singleton _, ?_⟩
    intro height hmem height' hmem'
    obtain ⟨finalized, hbefore, rfl⟩ := List.mem_map.mp hmem
    obtain rfl := List.mem_singleton.mp hmem'
    exact h.ahead id call hcall hpast finalized hbefore
  · rw [hfinalized]
    intro input result hmem hsays
    rcases List.mem_append.mp hmem with hold | hnew
    · obtain ⟨finalized, hbefore, hheight⟩ := h.told input result hold hsays
      exact ⟨finalized, List.mem_append_left _ hbefore, hheight⟩
    · cases List.mem_singleton.mp hnew
      exact ⟨_, List.mem_append_right _ (List.mem_singleton_self _), rfl⟩

/-- A step under the condition finalizes once, and keeps the invariant. -/
theorem OnceInv.step (h : OnceInv world history) {input : PayoutInput}
    (hguards : GuardsApart world history input) :
    FinalizesOnce env config world history input ∧
      OnceInv (payoutStep env config world input).1
        (history ++ (payoutStep env config world input).2) := by
  obtain ⟨hcreate, hstep⟩ := @payoutStep_spec env config world h.serial.create input
  have hserial := h.serial.step hcreate hstep
  simp only [FinalizesOnce]
  generalize payoutStep env config world input = after at hcreate hstep hserial ⊢
  obtain ⟨world', events⟩ := after
  simp only at hstep hserial ⊢
  cases hstep with
  | quiet _ _ _ hledger hextends hcalls hfinalized hrefused =>
    refine ⟨Or.inl ⟨hfinalized, hledger⟩, h.keeps hserial hfinalized hledger ?_ ?_ ?_⟩
    · intro id id' call call' hne hcall hcall'
      exact h.apart id id' call call' hne (hcalls id call hcall) (hcalls id' call' hcall')
    · intro id call hcall
      exact h.ahead id call (hcalls id call hcall)
    · intro ended hmem
      obtain ⟨id, call, snapshot, hcall, rfl, hstage, hseen⟩ := hrefused ended hmem
      exact finalizedAt_of_readHistory h.serial hcall hstage hseen
  | begins ended payoutSnapshotId =>
    -- the new call is not past the guard
    have hold : ∀ id call, (world.begin (.finalize (.start ended payoutSnapshotId))).calls id
        = some (.finalize call) → pastGuard call.stage →
        world.calls id = some (.finalize call) := by
      intro id call hcall hpast
      by_cases hid : id = world.nextCall
      · subst hid
        simp only [PayoutWorld.begin, PayoutWorld.setCall, Function.update_self,
          Option.some.injEq, PayoutCall.finalize.injEq] at hcall
        subst hcall
        cases hpast
      · simpa [PayoutWorld.begin, PayoutWorld.setCall, Function.update_of_ne hid] using hcall
    refine ⟨Or.inl ⟨rfl, rfl⟩, h.keeps hserial rfl rfl ?_ ?_
      fun _ hmem => absurd hmem List.not_mem_nil⟩
    · intro id id' call call' hne hcall hcall' hpast hpast'
      exact h.apart id id' call call' hne (hold id call hcall hpast)
        (hold id' call' hcall' hpast') hpast hpast'
    · intro id call hcall hpast
      exact h.ahead id call (hold id call hcall hpast) hpast
  | goesOn id call call' hcall hgoes =>
    obtain ⟨hinput, hside⟩ := hgoes.pastGuard_iff
    have hnew : pastGuard call'.stage → (∀ id' other, id' ≠ id →
          world.calls id' = some (.finalize other) → pastGuard other.stage →
          other.input.blockHeight ≠ call.input.blockHeight) ∧
        ∀ finalized ∈ finalizedOf history, finalized.1 ≠ call.input.blockHeight := by
      intro hpast'
      rcases hside with hiff | ⟨snapshot, hstage, hfree⟩
      · have hpast := hiff.mp hpast'
        exact ⟨fun id' other hne hother hpastOther =>
          h.apart id' id other call hne hother hcall hpastOther hpast, h.ahead id call hcall hpast⟩
      · -- the call reads the guard now
        simp only [GuardsApart, hcall, hstage] at hguards
        constructor
        · intro id' other hne hother hpastOther heq
          have hbelow := h.serial.create.bounded id' _ hother
          simp only [PayoutWorld.otherCall, List.any_eq_false, List.mem_range] at hguards
          have hnot := hguards id' hbelow
          rw [hother] at hnot
          simp [hne, pastGuardAt, hpastOther, heq] at hnot
        · intro finalized hmem heq
          have hfinalized := (h.paid call.input.blockHeight).mpr ⟨finalized, hmem, heq⟩
          rw [finalizedAt_overlay hfinalized] at hfree
          cases hfree
    have hother : ∀ id' other, id' ≠ id →
        (world.setCall id (some (.finalize call'))).calls id' = some (.finalize other) →
        world.calls id' = some (.finalize other) := by
      intro id' other hne hcall'
      simpa [PayoutWorld.setCall, Function.update_of_ne hne] using hcall'
    have hself : ∀ other, (world.setCall id (some (.finalize call'))).calls id
        = some (.finalize other) → other = call' := by
      intro other hcall'
      simp only [PayoutWorld.setCall, Function.update_self, Option.some.injEq,
        PayoutCall.finalize.injEq] at hcall'
      exact hcall'.symm
    refine ⟨Or.inl ⟨rfl, rfl⟩, h.keeps hserial rfl rfl ?_ ?_
      fun _ hmem => absurd hmem List.not_mem_nil⟩
    · intro id₁ id₂ call₁ call₂ hne hcall₁ hcall₂ hpast₁ hpast₂
      by_cases hid₁ : id₁ = id
      · subst hid₁
        obtain rfl := hself call₁ hcall₁
        rw [hinput]
        exact Ne.symm ((hnew hpast₁).1 id₂ call₂ (Ne.symm hne)
          (hother id₂ call₂ (Ne.symm hne) hcall₂) hpast₂)
      · by_cases hid₂ : id₂ = id
        · subst hid₂
          obtain rfl := hself call₂ hcall₂
          rw [hinput]
          exact (hnew hpast₂).1 id₁ call₁ hne (hother id₁ call₁ hne hcall₁) hpast₁
        · exact h.apart id₁ id₂ call₁ call₂ hne (hother id₁ call₁ hid₁ hcall₁)
            (hother id₂ call₂ hid₂ hcall₂) hpast₁ hpast₂
    · intro id' other hcall' hpast
      by_cases hid : id' = id
      · subst hid
        obtain rfl := hself other hcall'
        rw [hinput]
        exact (hnew hpast).2
      · exact h.ahead id' other (hother id' other hid hcall') hpast
  | commits id call snapshot hcall hstage =>
    have hpast : pastGuard call.stage := by rw [hstage]; rfl
    obtain ⟨hfound, -, -, hrows⟩ := h.serial.commit hcall hstage
    have hid : snapshot.id = call.payoutSnapshotId := by simpa using List.find?_some hfound
    refine ⟨Or.inr ⟨call.input.blockHeight, snapshot, ?_, ?_, ?_, ?_, ?_⟩,
      h.commits hcall hstage hserial rfl rfl⟩
    · rw [hid]
      rfl
    · exact h.ahead id call hcall hpast
    · exact List.mem_of_find?_eq_some hfound
    · rw [hid]
      exact sameRows_of_rowsOf hrows
    · intro address
      rw [hid, ← totalPaid_apply call.input.blockHeight call.payoutSnapshotId
        snapshot.coinbaseValueSats _ (h.serial.create.entryBalanced _)]
      simp only [totalPaid, (sameRows_of_rowsOf hrows).1]

/-! ### The result -/

variable (env config) in
/-- **A found block is finalized once**, while no call reads the guard between the guard and the end
of another call of its height. At every step the ledger stays as it is, or a snapshot is applied
to it at a height that was not finalized; and at every height about which a call was told that it
is finalized, exactly one finalization took place. -/
theorem finalized_once (inputs : List PayoutInput)
    (hguards : (payoutMachine env config).Along GuardsApart .initial [] inputs) :
    (payoutMachine env config).Along (FinalizesOnce env config) .initial [] inputs ∧
      ∀ input result,
        .finalizeEnded input result ∈ (payoutMachine env config).history .initial inputs →
        SaysFinalized result →
        ((finalizedOf ((payoutMachine env config).history .initial inputs)).map Prod.fst).count
          input.blockHeight = 1 := by
  have hstep : ∀ world history input, OnceInv world history → GuardsApart world history input →
      FinalizesOnce env config world history input ∧
        OnceInv ((payoutMachine env config).step world input).1
          (history ++ ((payoutMachine env config).step world input).2) :=
    fun world history input hinv hguards => hinv.step hguards
  have hend := (payoutMachine env config).history_invariant
    (fun world history input hinv hguards => (hstep world history input hinv hguards).2)
    onceInv_initial hguards
  rw [List.nil_append] at hend
  refine ⟨(payoutMachine env config).along_of_invariant hstep onceInv_initial hguards, ?_⟩
  intro input result hmem hsays
  obtain ⟨finalized, hfinalized, hheight⟩ := hend.told input result hmem hsays
  exact List.count_eq_one_of_mem hend.once (List.mem_map.mpr ⟨finalized, hfinalized, hheight⟩)

/-- Where every step finalizes once, no height is finalized twice. -/
theorem nodup_finalizedOf {inputs : List PayoutInput}
    (h : (payoutMachine env config).Along (FinalizesOnce env config) .initial [] inputs) :
    ((finalizedOf ((payoutMachine env config).history .initial inputs)).map Prod.fst).Nodup := by
  have hstep : ∀ (world : PayoutWorld) (history : List PayoutEvent) (input : PayoutInput),
      ((finalizedOf history).map Prod.fst).Nodup → FinalizesOnce env config world history input →
      ((finalizedOf (history ++ ((payoutMachine env config).step world input).2)).map
        Prod.fst).Nodup := by
    intro world history input hnodup honce
    rw [finalizedOf_append]
    rcases honce with ⟨hnone, -⟩ | ⟨blockHeight, snapshot, hone, hnew, -⟩
    · have hsame : finalizedOf ((payoutMachine env config).step world input).2 = [] := hnone
      rwa [hsame, List.append_nil]
    · have hsame : finalizedOf ((payoutMachine env config).step world input).2
          = [(blockHeight, snapshot.id)] := hone
      rw [hsame, List.map_append]
      refine List.nodup_append.mpr ⟨hnodup, List.nodup_singleton _, ?_⟩
      intro height hmem height' hmem'
      obtain ⟨finalized, hbefore, rfl⟩ := List.mem_map.mp hmem
      obtain rfl := List.mem_singleton.mp hmem'
      exact hnew finalized hbefore
  have hstart : ((finalizedOf []).map Prod.fst).Nodup := List.nodup_nil
  exact @Machine.history_invariant PayoutWorld PayoutInput PayoutEvent (payoutMachine env config)
    (fun _ history => ((finalizedOf history).map Prod.fst).Nodup) _ hstep .initial [] hstart inputs h

end

/-! ### Two calls for one block -/

def sampleConfig : PayoutConfig where
  snapshotsEnabled := true
  method := "pplns"
  windowFactor := 1
  bootstrapWindow := false
  maxCoinbaseOutputs := 20
  minOutputSats := 546
  feeAddress := ""
  feePercent := 0
  coinbaseWeightBudget := 4000

/-- The block of the snapshot is found, and two paths report it. -/
def sampleFound : PayoutInput :=
  .finalizeSnapshotForBlock
    { payoutSnapshotId := some 1
      blockHeight := 5
      blockSubmissionResult := some "SUCCESS!"
      payoutMode := .pplns }

/-- One miner did all the work, a template with 1000 sats is made for height 5, and its block is
reported twice. Then the two calls take turns. -/
def sampleFinalizations (turns : List ℕ) : List PayoutInput :=
  [.rollup [⟨1, 1, 10, 10, 100⟩] [⟨1, "A", 100, 10⟩],
    .createSnapshotForTemplate ⟨5, 1000, 100⟩] ++ List.replicate 9 (.statement 0) ++
    [sampleFound, sampleFound] ++ turns.map .statement

/-- The second call starts when the first one is through. -/
theorem finalized_once_sample :
    (payoutMachine sampleEnv sampleConfig).Along (FinalizesOnce sampleEnv sampleConfig) .initial []
        (sampleFinalizations [1, 1, 1, 1, 1, 1, 2, 2]) ∧
      totalPaid ((payoutMachine sampleEnv sampleConfig).final .initial
        (sampleFinalizations [1, 1, 1, 1, 1, 1, 2, 2])).db.ledger "A" = 1000 :=
  ⟨(finalized_once sampleEnv sampleConfig (sampleFinalizations [1, 1, 1, 1, 1, 1, 2, 2])
    (by decide +kernel)).1, by decide +kernel⟩

/-- The second call reads the guard before the first one commits: both finalize the block, and
its miner is booked twice the 1000 sats. -/
theorem finalized_twice :
    finalizedOf ((payoutMachine sampleEnv sampleConfig).history .initial
        (sampleFinalizations [1, 1, 2, 2, 1, 1, 1, 1, 2, 2, 2, 2])) = [(5, 1), (5, 1)] ∧
      totalPaid ((payoutMachine sampleEnv sampleConfig).final .initial
        (sampleFinalizations [1, 1, 2, 2, 1, 1, 1, 1, 2, 2, 2, 2])).db.ledger "A" = 2000 ∧
      ¬ (payoutMachine sampleEnv sampleConfig).Along (FinalizesOnce sampleEnv sampleConfig)
        .initial [] (sampleFinalizations [1, 1, 2, 2, 1, 1, 1, 1, 2, 2, 2, 2]) := by
  have htwice : finalizedOf ((payoutMachine sampleEnv sampleConfig).history .initial
      (sampleFinalizations [1, 1, 2, 2, 1, 1, 1, 1, 2, 2, 2, 2])) = [(5, 1), (5, 1)] := by
    decide +kernel
  refine ⟨htwice, by decide +kernel, ?_⟩
  intro honce
  have hnodup := nodup_finalizedOf honce
  rw [htwice] at hnodup
  exact absurd hnodup (by decide)

end PublicPool.Proofs
