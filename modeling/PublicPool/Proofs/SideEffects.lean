import PublicPool.Proofs.Sv1.Attribution
import PublicPool.SideEffects

/-!
# `PublicPool.Proofs.SideEffects`: what a failure on the way costs

Accepted work is kept when a block goes to the node, a block that the node takes is booked, and a
share that the miner was told about is recorded (`Kept`). Each of the paths puts these calls behind
others that may fail, so work is lost; `Spared` says on which path by which failures.
`work_kept_iff` is the exact account.

Both kinds of shares have the same shape: `ShareCalls` says which calls their handlers make.
-/

set_option autoImplicit false

namespace PublicPool.Proofs

open Lib (Handler)

/-- The header of accepted work meets the network target. -/
def MeetsNetworkTarget {host : Externals} : AcceptedWork host → Prop
  | .sv1 _ _ _ _ jobTemplate header _ => Sv1.StratumV1Client.isBlockCandidate host jobTemplate header
  | .sv2Standard _ _ _ _ share _ _ | .sv2Extended _ _ _ _ share _ _ =>
    Sv2.isBlockCandidate host share.jobTemplate share.header
  | .tdp _ _ _ _ _ template block _ _ _ | .jdp _ _ _ _ _ template block _ _ =>
    ∃ header, block.header host = some header ∧
      Sv2.isBlockCandidate host template.jobTemplate header

/-- The block that the pool is to submit for accepted work, if it can be put together. -/
def foundBlock {host : Externals} : AcceptedWork host → Option FoundBlock
  | .sv1 _ client submission job jobTemplate header _ =>
    if Sv1.StratumV1Client.isBlockCandidate host jobTemplate header then
      (client.submittedBlock host submission job jobTemplate).map fun (_, blockHex) =>
        client.sv1FoundBlock job jobTemplate blockHex
    else none
  | .sv2Standard context _ _ _ share _ _ | .sv2Extended context _ _ _ share _ _ =>
    share.block.join.map fun (_, blockHex) => context.sv2FoundBlock share blockHex
  | .tdp config _ connection solution _ template _ blockHex _ _ =>
    some (connection.tdpFoundBlock config template solution.templateId.toNat blockHex)
  | .jdp _ connection _ _ declared template _ blockHex _ =>
    some (Sv2.jdpFoundBlock connection.payoutMode declared template blockHex)

/-- No accepted work is lost. -/
structure Kept {host : Externals} (work : AcceptedWork host) (result : Option String)
    (fails : SideEffect → Bool) (calls : List SubmitCall) : Prop where
  submitted : MeetsNetworkTarget work →
    ∃ block ∈ foundBlock work, .submitBlock block.blockHex ∈ calls
  finalized : isSuccessfulBlockSubmission result = true →
    ∀ block ∈ foundBlock work, .submitBlock block.blockHex ∈ calls → block.payoutMode = .pplns →
      .finalizeSnapshotForBlock (block.finalizeInput result) ∈ calls
  recorded : .reply ∈ calls → fails .writeReply = false →
    ∃ share, .recordAcceptedShare share ∈ calls

/-- A report comes to its end. -/
def ReportEnds (block : FoundBlock) (result : Option String) (fails : SideEffect → Bool) : Prop :=
  fails .saveBlock = false ∧
    (block.payoutMode = .pplns → fails .finalizeSnapshot = false) ∧
      fails .notifySubscribers = false ∧
        (isSuccessfulBlockSubmission result = true → fails .resetStatistics = false)

/-- A share is spared. One that is no block needs the client's row only; with a block, everything
has to go well. -/
structure ShareSpared {host : Externals} (work : AcceptedWork host) (result : Option String)
    (fails : SideEffect → Bool) : Prop where
  block : MeetsNetworkTarget work → fails .writeReply = false ∧ fails .insertClient = false ∧
    ∃ block ∈ foundBlock work, ReportEnds block result fails
  share : ¬ MeetsNetworkTarget work → fails .writeReply = false → fails .insertClient = false

/-- The failures spare what comes in on a path. A solution is submitted in any case. -/
def Spared {host : Externals} (result : Option String) (fails : SideEffect → Bool)
    (work : AcceptedWork host) : Prop :=
  match work with
  | .sv1 .. | .sv2Standard .. | .sv2Extended .. => ShareSpared work result fails
  | .tdp .. | .jdp .. => isSuccessfulBlockSubmission result = true →
    ∀ block ∈ foundBlock work, block.payoutMode = .pplns → fails .saveBlock = false

/-! ### Shares -/

/-- The calls that the handler of a share makes: it comes to its block if it gets so far, and to
the record at its very end. -/
structure ShareCalls {host : Externals} (work : AcceptedWork host) (result : Option String)
    (fails : SideEffect → Bool) (calls : List SubmitCall) (reached assembles : Prop) : Prop where
  candidate : (foundBlock work).isSome → MeetsNetworkTarget work
  assembled : (MeetsNetworkTarget work → (foundBlock work).isSome) → assembles
  replied : .reply ∈ calls
  reached_imp : reached → fails .writeReply = false
  imp_reached : fails .writeReply = false → fails .insertClient = false →
    (foundBlock work).isSome → reached
  submitBlock : ∀ blockHex, .submitBlock blockHex ∈ calls ↔
    reached ∧ ∃ block ∈ foundBlock work, blockHex = block.blockHex
  finalize : ∀ input, .finalizeSnapshotForBlock input ∈ calls ↔
    reached ∧ ∃ block ∈ foundBlock work,
      fails .saveBlock = false ∧ block.payoutMode = .pplns ∧ input = block.finalizeInput result
  record : (∃ share, .recordAcceptedShare share ∈ calls) ↔
    fails .writeReply = false ∧ fails .insertClient = false ∧ assembles ∧
      ∀ block ∈ foundBlock work, ReportEnds block result fails

section
variable {host : Externals} {work : AcceptedWork host} {result : Option String}
  {fails : SideEffect → Bool} {calls : List SubmitCall} {reached assembles : Prop}

theorem ShareCalls.spared (h : ShareCalls work result fails calls reached assembles)
    (hkept : Kept work result fails calls) : ShareSpared work result fails where
  block := by
    intro htarget
    obtain ⟨block, hblock, hsubmit⟩ := hkept.submitted htarget
    have hreply := h.reached_imp ((h.submitBlock _).mp hsubmit).1
    obtain ⟨-, hinsert, -, hends⟩ := h.record.mp (hkept.recorded h.replied hreply)
    exact ⟨hreply, hinsert, block, hblock, hends block hblock⟩
  share := by
    intro _ hreply
    exact (h.record.mp (hkept.recorded h.replied hreply)).2.1

theorem ShareCalls.kept (h : ShareCalls work result fails calls reached assembles)
    (hspared : ShareSpared work result fails) : Kept work result fails calls where
  submitted := by
    intro htarget
    obtain ⟨hreply, hinsert, block, hblock, -⟩ := hspared.block htarget
    have hreached := h.imp_reached hreply hinsert (Option.isSome_iff_exists.mpr ⟨block, hblock⟩)
    exact ⟨block, hblock, (h.submitBlock _).mpr ⟨hreached, block, hblock, rfl⟩⟩
  finalized := by
    intro _ block hblock hsubmit hmode
    have htarget := h.candidate (Option.isSome_iff_exists.mpr ⟨block, hblock⟩)
    obtain ⟨-, -, block', hblock', hends⟩ := hspared.block htarget
    obtain rfl : block = block' := Option.mem_unique hblock hblock'
    have hreached := ((h.submitBlock _).mp hsubmit).1
    exact (h.finalize _).mpr ⟨hreached, block, hblock, hends.1, hmode, rfl⟩
  recorded := by
    intro _ hreply
    by_cases htarget : MeetsNetworkTarget work
    · obtain ⟨-, hinsert, block, hblock, hends⟩ := hspared.block htarget
      have hassembles := h.assembled fun _ => Option.isSome_iff_exists.mpr ⟨block, hblock⟩
      refine h.record.mpr ⟨hreply, hinsert, hassembles, fun block' hblock' => ?_⟩
      rw [Option.mem_unique hblock' hblock]
      exact hends
    · -- no block without a header that meets the target
      have hnone : ∀ block, block ∉ foundBlock work := fun block hblock =>
        htarget (h.candidate (Option.isSome_iff_exists.mpr ⟨block, hblock⟩))
      exact h.record.mpr ⟨hreply, hspared.share htarget hreply,
        h.assembled fun h' => absurd h' htarget,
        fun block hblock => absurd hblock (hnone block)⟩

theorem ShareCalls.kept_iff (h : ShareCalls work result fails calls reached assembles) :
    Kept work result fails calls ↔ ShareSpared work result fails :=
  ⟨h.spared, h.kept⟩

end

/-! ### Stratum V1 -/

section
open Sv1 Sv1.StratumV1Client
variable {host : Externals} {jobs : StratumV1JobsService} {client : StratumV1Client}
  {submission : MiningSubmitMessage} {job : MiningJob} {jobTemplate : JobTemplate}
  {header : Bytes} {result : Option String} {fails : SideEffect → Bool}

/-- What the report of a submission comes to. -/
theorem value_reportSubmission {u : Unit} :
    (client.reportSubmission host submission job jobTemplate header result).value fails = some u ↔
      (isBlockCandidate host jobTemplate header = true →
        ∃ block, client.submittedBlock host submission job jobTemplate = some block ∧
          ReportEnds (client.sv1FoundBlock job jobTemplate block.2) result fails) := by
  unfold reportSubmission
  split
  · rename_i hcandidate
    simp [hcandidate, value_reportMinedBlock, ReportEnds]
  · rename_i hno
    simp [hno]

/-- The calls of the report of a submission are those of its block. -/
theorem mem_calls_reportSubmission {call : SubmitCall} :
    call ∈ (client.reportSubmission host submission job jobTemplate header result).calls fails ↔
      isBlockCandidate host jobTemplate header = true ∧
        ∃ block, client.submittedBlock host submission job jobTemplate = some block ∧
          call ∈ (reportMinedBlock (client.sv1FoundBlock job jobTemplate block.2) result).calls
            fails := by
  unfold reportSubmission
  split
  · rename_i hcandidate
    simp [hcandidate]
  · rename_i hno
    simp [hno]

/-- The record comes last. -/
theorem exists_recordAcceptedShare :
    (∃ share, .recordAcceptedShare share ∈
        (client.acceptedHandler host submission job jobTemplate header result).calls fails) ↔
      fails .writeReply = false ∧
        (client.reportSubmission host submission job jobTemplate header result).value fails
          = some () ∧ fails .insertClient = false := by
  simp [acceptedHandler, mem_calls_reportSubmission, Unique.exists_iff]

theorem shareCalls_sv1
    (haccepted : client.judgeSubmission host jobs submission = .accepted job jobTemplate header) :
    ShareCalls (.sv1 jobs client submission job jobTemplate header haccepted) result fails
      ((client.acceptedHandler host submission job jobTemplate header result).calls fails)
      (fails .writeReply = false)
      (isBlockCandidate host jobTemplate header = true →
        (client.submittedBlock host submission job jobTemplate).isSome) where
  candidate := by
    intro hsome
    by_contra hno
    simp [foundBlock, show ¬ isBlockCandidate host jobTemplate header = true from hno] at hsome
  assembled := by
    intro hfound hcandidate
    simpa [foundBlock, hcandidate] using hfound hcandidate
  replied := by simp [acceptedHandler]
  reached_imp := id
  imp_reached h _ _ := h
  submitBlock := by
    intro blockHex
    simp [acceptedHandler, mem_calls_reportSubmission, foundBlock, and_assoc]
  finalize := by
    intro input
    simp [acceptedHandler, mem_calls_reportSubmission, foundBlock, and_assoc]
  record := by
    rw [exists_recordAcceptedShare, value_reportSubmission]
    refine and_congr_right fun _ => ?_
    rw [and_comm]
    refine and_congr_right fun _ => ?_
    cases hblock : client.submittedBlock host submission job jobTemplate with
    | none => simp [foundBlock, hblock]
    | some block => simp [foundBlock, hblock]

end

/-! ### Stratum V2 -/

section
open Sv2 Sv2.Context
variable {host : Externals} {context : Context} {share : Sv2.AcceptedShare}
  {result : Option String} {fails : SideEffect → Bool}

/-- The pool builds blocks only for headers that meet the network target. -/
def BlocksMeetTarget (host : Externals) (share : Sv2.AcceptedShare) : Prop :=
  share.block.isSome → Sv2.isBlockCandidate host share.jobTemplate share.header = true

variable {sum channelId : ℕ} {channel : ChannelState} {tuple : ShareTuple}

theorem judgeHeader_accepted {jobDifficulty : Option ℚ} {header : Option Bytes}
    {accept : Bytes → Sv2.AcceptedShare}
    (h : judgeHeader host jobDifficulty header accept = .accepted share sum) :
    ∃ header, share = accept header := by
  unfold judgeHeader at h
  split at h
  · cases h
  · split at h
    · split at h
      · cases h
      · cases h
        exact ⟨_, rfl⟩
    · cases h

theorem judgeStandard_meetsTarget {jobs : StratumV1JobsService}
    (h : judgeStandard host jobs channelId channel tuple = .accepted share sum) :
    BlocksMeetTarget host share := by
  unfold judgeStandard at h
  split at h
  · split at h
    · cases h
    · obtain ⟨header, rfl⟩ := judgeHeader_accepted h
      intro hblock
      by_contra hno
      simp only [if_neg hno] at hblock
      cases hblock
  · cases h

theorem judgeExtended_meetsTarget {extranonce : Bytes}
    (h : judgeExtended host channelId channel tuple extranonce = .accepted share sum) :
    BlocksMeetTarget host share := by
  unfold judgeExtended at h
  split at h
  · cases h
  · split at h
    · cases h
    · split at h
      · cases h
      · obtain ⟨header, rfl⟩ := judgeHeader_accepted h
        intro hblock
        by_contra hno
        simp only [if_neg fun hboth => hno (And.left hboth)] at hblock
        cases hblock

/-- The block of a share, for the handler. -/
def shareBlock (context : Context) (share : Sv2.AcceptedShare) : Option FoundBlock :=
  share.block.join.map fun (_, blockHex) => context.sv2FoundBlock share blockHex

/-- A share whose block can not be put together ends its handler. -/
theorem value_updatedJobBlock {blockHex : Option Bytes} :
    (updatedJobBlock share).value fails = some blockHex ↔
      share.block ≠ some none ∧ blockHex = share.block.join.map Prod.snd := by
  unfold updatedJobBlock
  cases share.block with
  | none => simp [eq_comm]
  | some block =>
    cases block with
    | none => simp
    | some block => simp [eq_comm]

@[simp] theorem calls_updatedJobBlock : (updatedJobBlock share).calls fails = [] := by
  unfold updatedJobBlock
  split <;> rfl

theorem mem_calls_reportShare {call : SubmitCall} :
    call ∈ (context.reportShare share result (share.block.join.map Prod.snd)).calls fails ↔
      ∃ block ∈ shareBlock context share, call ∈ (reportMinedBlock block result).calls fails := by
  unfold shareBlock reportShare
  cases share.block.join with
  | none => simp
  | some block => simp

theorem value_reportShare {u : Unit} :
    (context.reportShare share result (share.block.join.map Prod.snd)).value fails = some u ↔
      ∀ block ∈ shareBlock context share, ReportEnds block result fails := by
  unfold shareBlock reportShare
  cases share.block.join with
  | none => simp
  | some block => simp [value_reportMinedBlock, ReportEnds]

/-- There is a block when it was put together. -/
theorem isSome_shareBlock :
    (shareBlock context share).isSome ↔ share.block.isSome ∧ share.block ≠ some none := by
  unfold shareBlock
  cases share.block with
  | none => simp
  | some block =>
    cases block with
    | none => simp
    | some block => simp

theorem shareCalls_sv2 {work : AcceptedWork host}
    (hfound : foundBlock work = shareBlock context share)
    (htarget : MeetsNetworkTarget work ↔
      Sv2.isBlockCandidate host share.jobTemplate share.header = true)
    (hmeets : BlocksMeetTarget host share) :
    ShareCalls work result fails ((context.acceptedHandler share result).calls fails)
      (fails .writeReply = false ∧ fails .insertClient = false ∧ share.block ≠ some none)
      (share.block ≠ some none) where
  candidate := by
    rw [hfound, htarget]
    intro hsome
    exact hmeets (isSome_shareBlock.mp hsome).1
  assembled := by
    rw [hfound, htarget]
    intro hsome hnone
    exact (isSome_shareBlock.mp (hsome (hmeets (by rw [hnone]; rfl)))).2 hnone
  replied := by simp [acceptedHandler]
  reached_imp h := h.1
  imp_reached := by
    rw [hfound]
    intro hreply hinsert hsome
    exact ⟨hreply, hinsert, (isSome_shareBlock.mp hsome).2⟩
  submitBlock := by
    intro blockHex
    rw [hfound]
    simp [acceptedHandler, value_updatedJobBlock, mem_calls_reportShare, and_left_comm, and_assoc]
  finalize := by
    intro input
    rw [hfound]
    simp [acceptedHandler, value_updatedJobBlock, mem_calls_reportShare, and_left_comm, and_assoc]
  record := by
    rw [hfound]
    simp [acceptedHandler, value_updatedJobBlock, mem_calls_reportShare, value_reportShare,
      and_left_comm]

end

/-! ### The handlers in one step and in turns

Without a failure, the calls are the events of `Sv1.Client` and of the turns of `Sv2.Client`. -/

section
variable {result : Option String} {block : FoundBlock}

/-- The calls of a report that nothing fails in. -/
theorem calls_reportMinedBlock :
    (reportMinedBlock block result).calls (fun _ => false)
      = [.submitBlock block.blockHex, .save (block.record result)]
        ++ (if block.payoutMode = .pplns then
          [.finalizeSnapshotForBlock (block.finalizeInput result)] else [])
        ++ [.notifySubscribersBlockFound block.minerAddress block.height result]
        ++ if isSuccessfulBlockSubmission result then [.resetBestDifficultyAndShares] else [] := by
  unfold reportMinedBlock reportBlock finalizeForBlock resetAfterBlock
  by_cases hmode : block.payoutMode = .pplns
  · rw [if_pos hmode, if_pos hmode]
    cases isSuccessfulBlockSubmission result <;> rfl
  · rw [if_neg hmode, if_neg hmode]
    cases isSuccessfulBlockSubmission result <;> rfl

theorem value_reportMinedBlock_of_no_failure :
    (reportMinedBlock block result).value (fun _ => false) = some () :=
  value_reportMinedBlock.mpr ⟨rfl, fun _ => rfl, rfl, fun _ => rfl⟩

end

section
open Sv1 Sv1.StratumV1Client
variable {host : Externals} {client : StratumV1Client} {submission : MiningSubmitMessage}
  {job : MiningJob} {jobTemplate : JobTemplate} {header : Bytes} {result : Option String}

/-- The events of a call, for a block with the given coinbase. -/
def sv1EventsOf (submission : MiningSubmitMessage) (job : MiningJob) (header : Bytes)
    (coinbase : Transaction) : SubmitCall → List Sv1Event
  | .reply => [.response]
  | .save block => [.blockSaved block job]
  | .finalizeSnapshotForBlock input => [.finalizeCalled input coinbase]
  | .recordAcceptedShare share => [.shareRecorded share submission job header]
  | _ => []

/-- The calls of a submission that nothing fails in. -/
theorem calls_acceptedHandler
    (hvalue : (client.reportSubmission host submission job jobTemplate header result).value
      (fun _ => false) = some ()) :
    (client.acceptedHandler host submission job jobTemplate header result).calls (fun _ => false)
      = .reply :: (client.reportSubmission host submission job jobTemplate header result).calls
          (fun _ => false) ++
        [.ensureClientEntity, .recordAcceptedShare (client.shareRecord host
          (recordedIdentity (client.clientAuthorization.getD ⟨"", ""⟩) job) job jobTemplate
          submission header result)] := by
  unfold acceptedHandler
  rw [Handler.calls_bind_of_value (a := ()) rfl]
  rw [Handler.calls_bind_of_value hvalue]
  rfl

/-- Without a failure, the calls are the events of the accepted submission as one step. -/
theorem acceptSubmission_eq {coinbase : Transaction} {blockHex : Bytes}
    (hblock : isBlockCandidate host jobTemplate header = true →
      client.submittedBlock host submission job jobTemplate = some (coinbase, blockHex)) :
    (client.acceptSubmission host submission job jobTemplate header result none).1
      = ((client.acceptedHandler host submission job jobTemplate header result).calls
          fun _ => false).flatMap (sv1EventsOf submission job header coinbase) := by
  by_cases hcandidate : isBlockCandidate host jobTemplate header = true
  · have hassembled := hblock hcandidate
    have hreport : client.reportSubmission host submission job jobTemplate header result
        = (do
          let (_, blockHex) ← .ofOption (some (coinbase, blockHex))
          reportMinedBlock (client.sv1FoundBlock job jobTemplate blockHex) result) := by
      rw [reportSubmission, if_pos hcandidate, hassembled]
    have hcalls : (client.reportSubmission host submission job jobTemplate header result).calls
        (fun _ => false) = (reportMinedBlock (client.sv1FoundBlock job jobTemplate blockHex)
          result).calls fun _ => false := by
      rw [hreport]
      rfl
    have hvalue : (client.reportSubmission host submission job jobTemplate header result).value
        (fun _ => false) = some () :=
      value_reportSubmission.mpr fun _ =>
        ⟨_, hassembled, rfl, fun _ => rfl, rfl, fun _ => rfl⟩
    rw [calls_acceptedHandler hvalue, hcalls, calls_reportMinedBlock]
    unfold Sv1.StratumV1Client.submittedBlock at hassembled
    simp only [acceptSubmission, submitBlock, if_pos hcandidate, hassembled]
    by_cases hmode : client.payoutMode = .pplns
    · cases isSuccessfulBlockSubmission result <;>
        simp [hmode, finalizeEvents, sv1EventsOf, sv1FoundBlock, blockRecord, FoundBlock.record,
          FoundBlock.finalizeInput]
    · cases isSuccessfulBlockSubmission result <;>
        simp [hmode, finalizeEvents, sv1EventsOf, sv1FoundBlock, blockRecord, FoundBlock.record]
  · have hreport : client.reportSubmission host submission job jobTemplate header result
        = pure () := by
      rw [reportSubmission, if_neg hcandidate]
    rw [calls_acceptedHandler (by rw [hreport]; rfl), hreport]
    simp [acceptSubmission, hcandidate, sv1EventsOf]

end

section
open Sv2 Sv2.Context
variable {context : Context} {share : Sv2.AcceptedShare} {result : Option String}

/-- The events of a call after the reply, for a block with the given coinbase. -/
def sv2EventsOf (share : Sv2.AcceptedShare) (coinbase : Transaction) : SubmitCall → List Sv2Event
  | .save block => [.blockSaved block]
  | .finalizeSnapshotForBlock input => [.finalizeCalled input coinbase]
  | .recordAcceptedShare record => [.shareRecorded record share]
  | _ => []

/-- Without a failure, the calls of a share that is no block are the events of its turn. -/
theorem afterShareReply_eq (coinbase : Transaction) (hblock : share.block = none) :
    (context.afterShareReply share).events
      = ((context.acceptedHandler share result).calls fun _ => false).flatMap
          (sv2EventsOf share coinbase) := by
  unfold afterShareReply Context.acceptedHandler updatedJobBlock
  rw [hblock]
  rfl

/-- Without a failure, the calls of a block are the events of its turns. -/
theorem afterSubmitBlock_eq {coinbase : Transaction} {blockHex : Bytes}
    (hblock : share.block = some (some (coinbase, blockHex))) :
    (context.afterSubmitBlock share coinbase blockHex result).events
        ++ (context.afterSaveBlock share coinbase result).events
        ++ (context.recordShare share result).events
      = ((context.acceptedHandler share result).calls fun _ => false).flatMap
          (sv2EventsOf share coinbase) := by
  have hcalls : (context.acceptedHandler share result).calls (fun _ => false)
      = [.reply, .ensureClientEntity] ++ (reportMinedBlock (context.sv2FoundBlock share blockHex)
          result).calls (fun _ => false) ++
        [.recordAcceptedShare (context.shareRecord share result)] := by
    unfold Context.acceptedHandler updatedJobBlock
    rw [hblock]
    rw [Handler.calls_bind_of_value (a := ()) rfl, Handler.calls_bind_of_value (a := some blockHex) rfl,
      Handler.calls_bind_of_value (a := ()) rfl]
    show _ ++ (_ ++ (_ ++ (reportMinedBlock _ result >>= _).calls _)) = _
    rw [Handler.calls_bind_of_value value_reportMinedBlock_of_no_failure]
    simp
  rw [hcalls, calls_reportMinedBlock]
  by_cases hmode : context.client.payoutMode = .pplns
  · cases isSuccessfulBlockSubmission result <;>
      simp [hmode, afterSubmitBlock, afterSaveBlock, Context.recordShare, sv2EventsOf,
        sv2FoundBlock, FoundBlock.record, FoundBlock.finalizeInput]
  · cases isSuccessfulBlockSubmission result <;>
      simp [hmode, afterSubmitBlock, afterSaveBlock, Context.recordShare, sv2EventsOf,
        sv2FoundBlock, FoundBlock.record]

end

/-! ### Solutions -/

section
variable {host : Externals} {work : AcceptedWork host} {block : FoundBlock}
  {result : Option String} {fails : SideEffect → Bool}

/-- A solution is answered with nothing but the report of its block. -/
theorem kept_report_iff (hfound : foundBlock work = some block) :
    Kept work result fails ((reportBlock block result).calls fails) ↔
      (isSuccessfulBlockSubmission result = true → ∀ block ∈ foundBlock work,
        block.payoutMode = .pplns → fails .saveBlock = false) := by
  constructor
  · intro hkept hsuccess block' hblock hmode
    obtain rfl : block = block' := Option.some.inj (hfound.symm.trans hblock)
    have hfinalized := hkept.finalized hsuccess block hblock
      (submitBlock_mem_reportBlock.mpr rfl) hmode
    exact (finalize_mem_reportBlock.mp hfinalized).1
  · intro hspared
    have hsubmitted : .submitBlock block.blockHex ∈ (reportBlock block result).calls fails :=
      submitBlock_mem_reportBlock.mpr rfl
    exact
      { submitted := fun _ => ⟨block, hfound, hsubmitted⟩
        finalized := by
          intro hsuccess block' hblock _ hmode
          obtain rfl : block = block' := Option.some.inj (hfound.symm.trans hblock)
          exact finalize_mem_reportBlock.mpr ⟨hspared hsuccess block hblock hmode, hmode, rfl⟩
        recorded := by
          intro hreply
          simp [reportBlock, finalizeForBlock] at hreply }

end

/-! ### All paths -/

/-- On each of the four paths, for all failures and answers of the node, accepted work is kept if
and only if the failures spare it. -/
theorem work_kept_iff (host : Externals) (work : AcceptedWork host) (result : Option String)
    (fails : SideEffect → Bool) :
    Kept work result fails ((work.handler result).calls fails) ↔ Spared result fails work := by
  cases work with
  | sv1 jobs client submission job jobTemplate header accepted =>
    exact (shareCalls_sv1 accepted).kept_iff
  | sv2Standard context channelId channel submission share newSharesSum accepted =>
    exact (shareCalls_sv2 rfl Iff.rfl (judgeStandard_meetsTarget accepted)).kept_iff
  | sv2Extended context channelId channel submission share newSharesSum accepted =>
    exact (shareCalls_sv2 rfl Iff.rfl (judgeExtended_meetsTarget accepted)).kept_iff
  | tdp config templates connection solution now template block blockHex solutionKey accepted =>
    have hhandler : connection.handleSubmitSolution host config templates solution now result
        = reportBlock (connection.tdpFoundBlock config template solution.templateId.toNat
          blockHex) result := by
      rw [Sv2.TdpConnection.handleSubmitSolution, accepted]
    show Kept _ _ _ ((connection.handleSubmitSolution host config templates solution now
      result).calls fails) ↔ _
    rw [hhandler]
    exact kept_report_iff rfl
  | jdp templates connection solution now declared template block blockHex accepted =>
    have hhandler : connection.handlePushSolution host templates solution now result
        = reportBlock (Sv2.jdpFoundBlock connection.payoutMode declared template blockHex)
          result := by
      rw [Sv2.JdpConnection.handlePushSolution, accepted]
    show Kept _ _ _ ((connection.handlePushSolution host templates solution now result).calls
      fails) ↔ _
    rw [hhandler]
    exact kept_report_iff rfl

/-! ### A block whose miner is gone -/

namespace LostSample

/-- `Sv1Sample.template`, for a network of the lowest difficulty. -/
def template : JobTemplate :=
  { Sv1Sample.template "A" with
    blockData := { (Sv1Sample.template "A").blockData with networkDifficulty := some 1 } }

/-- `A` has a job of the pool. -/
def world : Sv1.Sv1World :=
  (Sv1.sv1Machine Sv1Sample.host Sv1Sample.config).final .initial
    (Sv1Sample.login 0 .pplns "A.rig" ++
      [.template template 1700000000000, .sendJob 0 0 true true 1700000000001])

def client : Sv1.StratumV1Client := (world.clients 0).getD (.initial .pplns .sv1)

def submission : Sv1.MiningSubmitMessage where
  jobId := "1"
  extraNonce2 := "0000000000000001"
  ntime := "6553f101"
  nonce := "00000005"
  versionMask := "0"

/-- Whether a submission is accepted and a block. -/
def isBlock : Sv1.StratumV1Client.SubmissionVerdict → Bool
  | .accepted _ jobTemplate header =>
    Sv1.StratumV1Client.isBlockCandidate Sv1Sample.host jobTemplate header
  | _ => false

theorem exists_block : ∃ job jobTemplate header,
    client.judgeSubmission Sv1Sample.host world.service submission
        = .accepted job jobTemplate header ∧
      Sv1.StratumV1Client.isBlockCandidate Sv1Sample.host jobTemplate header = true := by
  have hblock : isBlock (client.judgeSubmission Sv1Sample.host world.service submission)
      = true := by decide +kernel
  unfold isBlock at hblock
  split at hblock
  · rename_i job jobTemplate header haccepted
    exact ⟨job, jobTemplate, header, haccepted, hblock⟩
  · cases hblock

/-- The reply can not be written. -/
def fails : SideEffect → Bool
  | .writeReply => true
  | _ => false

end LostSample

/-- The miner of a block is gone when its reply is written: the block is not submitted. -/
theorem not_work_kept :
    ∃ work : AcceptedWork Sv1Sample.host, MeetsNetworkTarget work ∧
      (∀ blockHex, .submitBlock blockHex ∉
        (work.handler (some "SUCCESS!")).calls LostSample.fails) ∧
      ¬ Kept work (some "SUCCESS!") LostSample.fails
        ((work.handler (some "SUCCESS!")).calls LostSample.fails) := by
  obtain ⟨job, jobTemplate, header, haccepted, hblock⟩ := LostSample.exists_block
  have hlost : ∀ blockHex, .submitBlock blockHex ∉
      (LostSample.client.acceptedHandler Sv1Sample.host LostSample.submission job jobTemplate
        header (some "SUCCESS!")).calls LostSample.fails := by
    intro blockHex
    simp [Sv1.StratumV1Client.acceptedHandler, LostSample.fails]
  refine ⟨.sv1 _ _ _ job jobTemplate header haccepted, hblock, hlost, fun hkept => ?_⟩
  obtain ⟨block, -, hsubmitted⟩ := hkept.submitted hblock
  exact hlost _ hsubmitted

end PublicPool.Proofs
