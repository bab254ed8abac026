import PublicPool.Proofs.Sv2.AnnouncedTarget
import PublicPool.Proofs.Sv2.DoubleCredit

/-!
# `PublicPool.Proofs.Sv2.SubmissionAnswers`: every submission and its answer

A submission is answered with a success or with an error, once, and its handler goes on to record
an accepted share. `HandlerRun` follows one handler through its turns, with the connection in any
state whenever it goes on. What ends a handler early is a write that throws: the version of the
header is written as a signed number although it comes as an unsigned one, the difficulty has to
fit into eight bytes, and a candidate has to make a block.

`CanAnswer` collects these writes for a submission that is judged; one that is refused before needs
none of them.
-/

set_option autoImplicit false

namespace PublicPool.Sv2

/-- The channel and the sequence number of a submission. -/
def Sv2Message.numbers? : Sv2Message → Option (ℕ × ℕ)
  | .submitSharesStandard submission =>
    some (submission.channelId.toNat, submission.sequenceNumber.toNat)
  | .submitSharesExtended submission =>
    some (submission.channelId.toNat, submission.sequenceNumber.toNat)
  | _ => none

/-- The channel and the sequence number that an answer names. -/
def Sv2Event.answers? : Sv2Event → Option (ℕ × ℕ)
  | .submitSharesSuccess channelId sequenceNumber _
  | .submitSharesError channelId sequenceNumber _ => some (channelId, sequenceNumber)
  | _ => none

/-- What a submission on a live job is judged on: the fields of its header that the job gives, the
template of the job, and the block that a candidate becomes if the pool submits it itself. -/
structure JudgedWork where
  prevHash : Bytes
  nBits : ℤ
  merkleRoot : Digest
  jobTemplate : JobTemplate
  isSubmitted : Bool
  block : Option (Transaction × Bytes)

/-- The look-ups of a submission. -/
def judgedWork? (host : Externals) (jobs : StratumV1JobsService) (channel : ChannelState)
    (tuple : ShareTuple) : Option JudgedWork :=
  match tuple.extranonce with
  | none =>
    match jobs.getJobById (Js.toString16 tuple.jobId), channel.jobIdToMerkleRoot tuple.jobId with
    | some job, some sentMerkleRoot =>
      (jobs.getJobTemplateById job.jobTemplateId).map fun jobTemplate =>
        { prevHash := jobTemplate.block.prevHash
          nBits := jobTemplate.block.bits
          merkleRoot := sentMerkleRoot
          jobTemplate
          isSubmitted := true
          block := job.copyAndUpdateBlock host jobTemplate
            (some (Js.bitXor (some tuple.version) (some jobTemplate.block.version)))
            (some tuple.nonce) (Js.toHex channel.extranoncePrefix) fixedStandardExtranonce2
            (some tuple.ntime) }
    | _, _ => none
  | some extranonce =>
    ((channel.extendedJobs tuple.jobId).filter fun job =>
        job.retiredAt.isNone && extranonce.length = channel.extranonceSize).map fun job =>
      let coinbaseTxBytes := job.coinbaseTxBytes channel.extranoncePrefix extranonce
      let merkleRoot := merkleRootOfPath host (host.hash256 coinbaseTxBytes) job.merklePath
      { prevHash := job.prevHash
        nBits := job.nBits
        merkleRoot
        jobTemplate := job.jobTemplate
        isSubmitted := decide (job.workProtocol ≠ .sv2Jdp)
        block := reconstructExtendedBlock host job tuple merkleRoot coinbaseTxBytes }

/-- The header of a submission. -/
def JudgedWork.header (work : JudgedWork) (tuple : ShareTuple) : Option Bytes :=
  shareHeader work.prevHash work.nBits work.merkleRoot tuple

end PublicPool.Sv2

namespace PublicPool.Proofs

open Sv2
open Sv2.Context
open DifficultyUtils

/-! ### A handler and its turns -/

/-- What a handler has done after some of its turns, and where it is then: a call that it awaited
does not fail, and the connection is in any state when it goes on. -/
inductive HandlerRun (host : Externals) (config : Sv2Config) :
    Context → Handled → List Sv2Event → Next → Prop
  | turn {context : Context} {handled : Handled} {env : TurnEnv}
      (hgoes : goesOn env handled = true) :
      HandlerRun host config context handled (context.turn host config env handled).events
        (context.turn host config env handled).next
  | goesOn {context context' : Context} {handled : Handled} {env : TurnEnv} {wait : Wait}
      {events : List Sv2Event} {next : Next} (hgoes : goesOn env handled = true)
      (hwaits : (context.turn host config env handled).next = .waits wait)
      (hrest : HandlerRun host config context' (.wait wait) events next) :
      HandlerRun host config context handled
        ((context.turn host config env handled).events ++ events) next

/-- A turn whose call succeeds, with nothing else from outside. -/
def plainEnv : TurnEnv where
  failed := false
  result := none
  now := 0
  random := (0, 0)
  declaredJob := none

/-- A handler can get to its end. -/
def Returns (host : Externals) (config : Sv2Config) (context : Context) (handled : Handled) :
    Prop :=
  ∃ events, HandlerRun host config context handled events .returns

/-- The handler of a submission answers it once, never throws, and returns. -/
structure AnsweredOnce (host : Externals) (config : Sv2Config) (context : Context)
    (message : Sv2Message) (numbers : ℕ × ℕ) : Prop where
  answered : ∀ events next, HandlerRun host config context (.frame message) events next →
    events.filterMap Sv2Event.answers? = [numbers]
  neverThrows : ∀ events, ¬ HandlerRun host config context (.frame message) events .throws
  returns : Returns host config context (.frame message)

/-- The condition: a new submission on a live job has a version below `2 ^ 31`, and if its hash
meets the target of the job, then the difficulty of the job fits into the reply and a candidate that
the pool submits makes a block. -/
def CanAnswer (host : Externals) (context : Context) (message : Sv2Message) : Prop :=
  ∀ submitted ∈ submitted? context.client message,
    submitted.2.2.submissionKey ∉ submitted.2.1.miningSubmissionHashes →
      ∀ work ∈ judgedWork? host context.jobs submitted.2.1 submitted.2.2,
        submitted.2.2.version < 2 ^ 31 ∧
          ∀ header ∈ work.header submitted.2.2,
            meetsTarget (host.hash256 header).bytes
                (difficultyToTarget (submitted.2.1.jobDifficulty submitted.2.2.jobId)) = true →
              (newSharesSum (submitted.2.1.jobDifficulty submitted.2.2.jobId)).isSome = true ∧
                (isBlockCandidate host work.jobTemplate header = true ∧ work.isSubmitted = true →
                  work.block.isSome = true)

instance (host : Externals) (context : Context) (message : Sv2Message) :
    Decidable (CanAnswer host context message) :=
  inferInstanceAs (Decidable (∀ _ ∈ _, _ → ∀ _ ∈ _, _))

section
variable {host : Externals} {config : Sv2Config} {context : Context}

/-! ### After the answer -/

/-- A handler that has answered and goes on without an error: it ends, or it records a share whose
block can be built. -/
def HasAnswered : Wait → Prop
  | .reply thenClose => thenClose = false
  | .shareReply share => share.block ≠ some none
  | .submitBlock .. | .saveBlock .. | .finalizeSnapshot .. | .notifyBlock .. | .recordShare => True
  | _ => False

/-- A turn after the answer sends no other one, and goes on or returns. -/
structure EndsQuietly (turn : Turn) : Prop where
  silent : turn.events.filterMap Sv2Event.answers? = []
  goesOn : turn.next = .returns ∨ ∃ wait, turn.next = .waits wait ∧ HasAnswered wait

theorem endsQuietly_recordShare (share : AcceptedShare) (blockSubmissionResult : Option String) :
    EndsQuietly (context.recordShare share blockSubmissionResult) :=
  ⟨rfl, Or.inr ⟨_, rfl, trivial⟩⟩

variable {share : AcceptedShare} {message : Sv2Message} {channelId sequenceNumber : ℕ}

theorem endsQuietly_afterShareReply (h : share.block ≠ some none) :
    EndsQuietly (context.afterShareReply share) := by
  unfold afterShareReply
  split
  · exact endsQuietly_recordShare share _
  · rename_i hblock
    exact absurd hblock h
  · exact ⟨rfl, Or.inr ⟨_, rfl, trivial⟩⟩

theorem endsQuietly_turn {env : TurnEnv} {wait : Wait} (h : HasAnswered wait)
    (hgoes : goesOn env (.wait wait) = true) :
    EndsQuietly (context.turn host config env (.wait wait)) := by
  have hsucceeds : env.failed = false := by
    rwa [goesOn, Bool.not_eq_true'] at hgoes
  have hturn : context.turn host config env (.wait wait) = context.resume host config env wait := by
    simp only [turn, hsucceeds, Bool.false_eq_true, if_false]
  rw [hturn]
  cases wait with
  | reply thenClose => exact ⟨rfl, Or.inl rfl⟩
  | recordShare => exact ⟨rfl, Or.inl rfl⟩
  | shareReply share => exact endsQuietly_afterShareReply h
  | submitBlock share coinbase blockHex => exact ⟨rfl, Or.inr ⟨_, rfl, trivial⟩⟩
  | saveBlock share coinbase blockSubmissionResult =>
    refine ⟨?_, Or.inr ⟨_, rfl, trivial⟩⟩
    simp only [resume, afterSaveBlock]
    split
    · rfl
    · rfl
  | finalizeSnapshot share blockSubmissionResult => exact ⟨rfl, Or.inr ⟨_, rfl, trivial⟩⟩
  | notifyBlock share blockSubmissionResult => exact endsQuietly_recordShare share _
  | _ => cases h

/-- However far a handler goes after its answer, it sends no other one and does not throw. -/
theorem HandlerRun.quiet {handled : Handled} {events : List Sv2Event} {next : Next}
    (h : HandlerRun host config context handled events next) {wait : Wait}
    (hhandled : handled = .wait wait) (hanswered : HasAnswered wait) :
    events.filterMap Sv2Event.answers? = [] ∧ next ≠ .throws := by
  induction h generalizing wait with
  | @turn context handled env hgoes =>
    subst hhandled
    have hquiet := @endsQuietly_turn host config context env wait hanswered hgoes
    refine ⟨hquiet.silent, ?_⟩
    rcases hquiet.goesOn with hnext | ⟨wait', hnext, -⟩
    · rw [hnext]
      exact Next.noConfusion
    · rw [hnext]
      exact Next.noConfusion
  | @goesOn context context' handled env wait' events next hgoes hwaits hrest ih =>
    subst hhandled
    have hquiet := @endsQuietly_turn host config context env wait hanswered hgoes
    rcases hquiet.goesOn with hnext | ⟨wait'', hnext, hanswered'⟩
    · cases hnext.symm.trans hwaits
    · cases hnext.symm.trans hwaits
      obtain ⟨hsilent, hthrows⟩ := ih rfl hanswered'
      rw [List.filterMap_append, hquiet.silent, hsilent]
      exact ⟨rfl, hthrows⟩

/-- A handler that has answered gets to its end. -/
theorem returns_of_hasAnswered {wait : Wait} (h : HasAnswered wait) (context : Context) :
    Returns host config context (.wait wait) := by
  have hends (wait : Wait)
      (hreturns : (context.turn host config plainEnv (.wait wait)).next = .returns) :
      Returns host config context (.wait wait) := by
    have hturn := @HandlerRun.turn host config context (.wait wait) plainEnv rfl
    rw [hreturns] at hturn
    exact ⟨_, hturn⟩
  have hgoes (wait wait' : Wait)
      (hnext : (context.turn host config plainEnv (.wait wait)).next = .waits wait')
      (hrest : Returns host config context (.wait wait')) :
      Returns host config context (.wait wait) := by
    obtain ⟨events, hrun⟩ := hrest
    exact ⟨_, @HandlerRun.goesOn host config context context _ plainEnv _ _ _ rfl hnext hrun⟩
  -- from the last call back to the first one
  have hrecord : Returns host config context (.wait .recordShare) := hends _ rfl
  have hnotify (share : AcceptedShare) (result : Option String) :
      Returns host config context (.wait (.notifyBlock share result)) := hgoes _ _ rfl hrecord
  have hfinalize (share : AcceptedShare) (result : Option String) :
      Returns host config context (.wait (.finalizeSnapshot share result)) :=
    hgoes _ _ rfl (hnotify share result)
  have hsave (share : AcceptedShare) (coinbase : Transaction) (result : Option String) :
      Returns host config context (.wait (.saveBlock share coinbase result)) :=
    hgoes _ _ rfl (hfinalize share result)
  have hsubmit (share : AcceptedShare) (coinbase : Transaction) (blockHex : Bytes) :
      Returns host config context (.wait (.submitBlock share coinbase blockHex)) :=
    hgoes _ _ rfl (hsave share coinbase none)
  cases wait with
  | reply thenClose => exact hends _ rfl
  | recordShare => exact hrecord
  | shareReply share =>
    cases hblock : share.block with
    | none =>
      refine hgoes _ .recordShare ?_ hrecord
      show (context.afterShareReply share).next = _
      rw [afterShareReply, hblock]
      rfl
    | some built =>
      cases built with
      | none => exact absurd hblock h
      | some block =>
        refine hgoes _ (.submitBlock share block.1 block.2) ?_ (hsubmit share block.1 block.2)
        show (context.afterShareReply share).next = _
        rw [afterShareReply, hblock]
  | submitBlock share coinbase blockHex => exact hsubmit share coinbase blockHex
  | saveBlock share coinbase result => exact hsave share coinbase result
  | finalizeSnapshot share result => exact hfinalize share result
  | notifyBlock share result => exact hnotify share result
  | _ => cases h

/-! ### The verdict -/

/-- The header is written unless the version does not fit into a signed number. -/
theorem isSome_header_iff (work : JudgedWork) (tuple : ShareTuple) :
    (work.header tuple).isSome = true ↔ tuple.version < 2 ^ 31 := by
  have hunsigned (n : ℤ) : (Js.writeUInt32LE (some (uint32 n))).isSome = true := by
    have hnonneg := Int.emod_nonneg n (show (2 ^ 32 : ℤ) ≠ 0 by decide)
    have hlt := Int.emod_lt_of_pos n (show (0 : ℤ) < 2 ^ 32 by decide)
    unfold Js.writeUInt32LE uint32
    simp only
    rw [if_pos (by omega)]
    rfl
  obtain ⟨timestamp, htimestamp⟩ := Option.isSome_iff_exists.mp (hunsigned tuple.ntime)
  obtain ⟨bits, hbits⟩ := Option.isSome_iff_exists.mp (hunsigned work.nBits)
  obtain ⟨nonce, hnonce⟩ := Option.isSome_iff_exists.mp (hunsigned tuple.nonce)
  unfold JudgedWork.header shareHeader buildHeader
  simp only [htimestamp, hbits, hnonce, Option.bind_eq_bind, Option.bind_some, Option.pure_def]
  unfold Js.writeInt32LE
  split
  · rename_i hversion
    simp only [Option.bind_some, Option.isSome_some, true_iff]
    omega
  · rename_i hversion
    simp only [Option.bind_none, Option.isSome_none, Bool.false_eq_true, false_iff]
    omega

/-- Without a live job a submission is refused. -/
theorem verdictOn_of_no_work {jobs : StratumV1JobsService} {channelId : ℕ} {channel : ChannelState}
    {tuple : ShareTuple} (h : judgedWork? host jobs channel tuple = none) :
    ∃ errorCode, verdictOn host jobs channelId channel tuple = .rejected errorCode := by
  unfold judgedWork? at h
  unfold verdictOn
  cases hextranonce : tuple.extranonce with
  | none =>
    simp only [hextranonce] at h ⊢
    refine ⟨"invalid-job-id", ?_⟩
    cases hjob : jobs.getJobById (Js.toString16 tuple.jobId) with
    | none => simp only [judgeStandard, hjob]
    | some job =>
      cases hroot : channel.jobIdToMerkleRoot tuple.jobId with
      | none => simp only [judgeStandard, hjob, hroot]
      | some sentMerkleRoot =>
        simp only [hjob, hroot, Option.map_eq_none_iff] at h
        simp only [judgeStandard, hjob, hroot, h]
  | some extranonce =>
    simp only [hextranonce, judgeExtended, Option.map_eq_none_iff, Option.filter_eq_none_iff] at h ⊢
    split
    · exact ⟨_, rfl⟩
    · rename_i job hjob
      split
      · exact ⟨_, rfl⟩
      · rename_i hretired
        split
        · exact ⟨_, rfl⟩
        · rename_i hlength
          refine absurd ?_ (h job hjob)
          rw [Bool.and_eq_true]
          exact ⟨by simpa using hretired, by simpa using hlength⟩

/-- On a live job the header is judged; a share that is accepted names the block that its job
becomes. -/
theorem verdictOn_of_work {jobs : StratumV1JobsService} {channel : ChannelState}
    {tuple : ShareTuple} {work : JudgedWork} (h : judgedWork? host jobs channel tuple = some work)
    (channelId : ℕ) :
    ∃ accept, verdictOn host jobs channelId channel tuple
        = judgeHeader host (channel.jobDifficulty tuple.jobId) (work.header tuple) accept ∧
      ∀ header, (accept header).block =
        if isBlockCandidate host work.jobTemplate header = true ∧ work.isSubmitted = true then
          some work.block
        else none := by
  unfold judgedWork? at h
  unfold verdictOn
  cases hextranonce : tuple.extranonce with
  | none =>
    simp only [hextranonce] at h
    split at h
    · rename_i job sentMerkleRoot hjob hroot
      obtain ⟨jobTemplate, htemplate, rfl⟩ := Option.map_eq_some_iff.mp h
      simp only [judgeStandard, hjob, hroot, htemplate]
      refine ⟨_, rfl, fun header => ?_⟩
      simp only [and_true]
    · cases h
  | some extranonce =>
    simp only [hextranonce] at h
    obtain ⟨job, hjob, rfl⟩ := Option.map_eq_some_iff.mp h
    obtain ⟨hfound, hlive⟩ := Option.filter_eq_some_iff.mp hjob
    simp only [Bool.and_eq_true, Option.isNone_iff_eq_none, decide_eq_true_eq] at hlive
    obtain ⟨hretired, hlength⟩ := hlive
    simp only [judgeExtended, hfound, hretired, Option.isSome_none, Bool.false_eq_true, if_false,
      hlength, ne_eq, not_true_eq_false]
    refine ⟨_, rfl, fun header => ?_⟩
    simp only [decide_eq_true_eq]

/-! ### The answer -/

/-- A submission is refused without a channel of its kind, and judged on one. -/
theorem handleFrame_of_numbers {message : Sv2Message} {channelId sequenceNumber : ℕ}
    (h : message.numbers? = some (channelId, sequenceNumber)) (env : TurnEnv) :
    (submitted? context.client message = none ∧ context.handleFrame host config env message =
        context.replies (.submitSharesError channelId sequenceNumber "invalid-channel-id")) ∨
      ∃ channel tuple, submitted? context.client message = some (channelId, channel, tuple) ∧
        context.handleFrame host config env message =
          context.submitShare channelId sequenceNumber channel tuple
            (verdictOn host context.jobs channelId channel tuple) := by
  cases message with
  | submitSharesStandard submission =>
    cases h
    cases hchannel : context.client.openChannel? submission.channelId.toNat with
    | none =>
      refine Or.inl ⟨?_, ?_⟩
      · simp only [submitted?, hchannel, Option.map_none]
      · simp only [handleFrame, handleSubmitSharesStandard, hchannel]
    | some channel =>
      refine Or.inr ⟨channel, submission.tuple, ?_, ?_⟩
      · simp only [submitted?, hchannel, Option.map_some]
      · simp only [handleFrame, handleSubmitSharesStandard, hchannel]
        rfl
  | submitSharesExtended submission =>
    cases h
    cases hchannel : (context.client.openChannel? submission.channelId.toNat).filter fun channel =>
        channel.channelType = .extended with
    | none =>
      refine Or.inl ⟨?_, ?_⟩
      · simp only [submitted?, hchannel, Option.map_none]
      · simp only [handleFrame, handleSubmitSharesExtended, hchannel]
    | some channel =>
      refine Or.inr ⟨channel, submission.tuple, ?_, ?_⟩
      · simp only [submitted?, hchannel, Option.map_some]
      · simp only [handleFrame, handleSubmitSharesExtended, hchannel]
        rfl
  | _ => cases h

/-- The first turn of a handler sends the answer and goes on without an error. -/
structure FirstAnswers (turn : Turn) (numbers : ℕ × ℕ) : Prop where
  answered : turn.events.filterMap Sv2Event.answers? = [numbers]
  goesOn : ∃ wait, turn.next = .waits wait ∧ HasAnswered wait

theorem send_of_alive (halive : context.client.destroyed = false) (event : Sv2Event) :
    context.send event = [event] := by
  rw [send, halive]
  rfl

theorem firstAnswers_error (halive : context.client.destroyed = false)
    (channelId sequenceNumber : ℕ) (errorCode : String) :
    FirstAnswers (context.replies (.submitSharesError channelId sequenceNumber errorCode))
      (channelId, sequenceNumber) := by
  refine ⟨?_, .reply false, rfl, rfl⟩
  rw [replies, send_of_alive halive]
  rfl

theorem firstAnswers_success (halive : context.client.destroyed = false)
    (channelId sequenceNumber : ℕ) (hblock : share.block ≠ some none) (newSharesSum : ℕ) :
    FirstAnswers (context.answerShare channelId sequenceNumber (.accepted share newSharesSum))
      (channelId, sequenceNumber) := by
  refine ⟨?_, .shareReply share, rfl, hblock⟩
  rw [answerShare, send_of_alive halive]
  rfl

/-- After a first turn that answers, the handler has answered once whatever comes. -/
theorem answeredOnce_of_firstAnswers {numbers : ℕ × ℕ}
    (h : ∀ env, FirstAnswers (context.turn host config env (.frame message)) numbers) :
    AnsweredOnce host config context message numbers := by
  have hrun {events : List Sv2Event} {next : Next}
      (hrun : HandlerRun host config context (.frame message) events next) :
      events.filterMap Sv2Event.answers? = [numbers] ∧ next ≠ .throws := by
    cases hrun with
    | @turn _ _ env hgoes =>
      obtain ⟨hanswered, wait, hnext, -⟩ := h env
      refine ⟨hanswered, ?_⟩
      rw [hnext]
      exact Next.noConfusion
    | @goesOn _ _ _ env wait events next hgoes hwaits hrest =>
      obtain ⟨hanswered, wait', hnext, hwait⟩ := h env
      cases hnext.symm.trans hwaits
      obtain ⟨hsilent, hthrows⟩ := hrest.quiet rfl hwait
      rw [List.filterMap_append, hanswered, hsilent]
      exact ⟨rfl, hthrows⟩
  refine ⟨fun events next h => (hrun h).1, fun events h => (hrun h).2 rfl, ?_⟩
  obtain ⟨-, wait, hnext, hwait⟩ := h plainEnv
  obtain ⟨events, hrest⟩ := @returns_of_hasAnswered host config wait hwait context
  exact ⟨_, @HandlerRun.goesOn host config context context _ plainEnv _ _ _ rfl hnext hrest⟩

/-- A share whose block cannot be built throws after its answer. -/
theorem throws_after_answer {env : TurnEnv}
    (hnext : (context.turn host config env (.frame message)).next = .waits (.shareReply share))
    (hblock : share.block = some none) :
    ∃ events, HandlerRun host config context (.frame message) events .throws := by
  have hthrows : (context.turn host config plainEnv (.wait (.shareReply share))).next = .throws := by
    show (context.afterShareReply share).next = _
    rw [afterShareReply, hblock]
  have hrest := @HandlerRun.turn host config context (.wait (.shareReply share)) plainEnv rfl
  rw [hthrows] at hrest
  exact ⟨_, .goesOn rfl hnext hrest⟩

/-- A handler that answers once has written what it needed. -/
theorem canAnswer_of_answeredOnce (hnumbers : message.numbers? = some (channelId, sequenceNumber))
    (hanswered : AnsweredOnce host config context message (channelId, sequenceNumber)) :
    CanAnswer host context message := by
  intro submitted hsubmitted hfresh work hwork
  rcases @handleFrame_of_numbers host config context message _ _ hnumbers plainEnv with
    ⟨hnone, -⟩ | ⟨channel, tuple, hsome, hframe⟩
  · cases hnone.symm.trans hsubmitted
  · cases hsome.symm.trans hsubmitted
    obtain ⟨accept, hverdict, hblock⟩ := verdictOn_of_work hwork channelId
    rw [submitShare, if_neg hfresh, hverdict] at hframe
    have hthrows (hthrew : judgeHeader host (channel.jobDifficulty tuple.jobId)
        (work.header tuple) accept = .threw) : False := by
      have hrun := @HandlerRun.turn host config context (.frame message) plainEnv rfl
      have hnext : (context.turn host config plainEnv (.frame message)).next = .throws := by
        show (context.handleFrame host config plainEnv message).next = _
        rw [hframe, hthrew]
        rfl
      rw [hnext] at hrun
      exact hanswered.neverThrows _ hrun
    have hversion : tuple.version < 2 ^ 31 := by
      rw [← isSome_header_iff work tuple]
      by_contra hnone
      rw [Bool.not_eq_true, Option.isSome_eq_false_iff, Option.isNone_iff_eq_none] at hnone
      exact hthrows (by rw [hnone]; rfl)
    refine ⟨hversion, fun header hheader hmeets => ?_⟩
    rw [Option.mem_def] at hheader
    cases hsum : newSharesSum (channel.jobDifficulty tuple.jobId) with
    | none =>
      refine absurd ?_ hthrows
      simp only [hheader, judgeHeader, if_pos hmeets, hsum]
    | some sum =>
      refine ⟨rfl, fun hcandidate => ?_⟩
      by_contra hnone
      rw [Bool.not_eq_true, Option.isSome_eq_false_iff, Option.isNone_iff_eq_none] at hnone
      have hnext : (context.turn host config plainEnv (.frame message)).next
          = .waits (.shareReply (accept header)) := by
        show (context.handleFrame host config plainEnv message).next = _
        rw [hframe, hheader, judgeHeader]
        simp only [if_pos hmeets, hsum]
        rfl
      obtain ⟨events, hrun⟩ := throws_after_answer hnext (by rw [hblock, if_pos hcandidate, hnone])
      exact hanswered.neverThrows events hrun

/-- A submission that can be answered is answered in the first turn. -/
theorem firstAnswers_of_canAnswer (halive : context.client.destroyed = false)
    (hnumbers : message.numbers? = some (channelId, sequenceNumber))
    (hcan : CanAnswer host context message) (env : TurnEnv) :
    FirstAnswers (context.turn host config env (.frame message)) (channelId, sequenceNumber) := by
  show FirstAnswers (context.handleFrame host config env message) _
  rcases @handleFrame_of_numbers host config context message _ _ hnumbers env with
    ⟨-, hframe⟩ | ⟨channel, tuple, hsome, hframe⟩
  · rw [hframe]
    exact firstAnswers_error halive _ _ _
  · rw [hframe, submitShare]
    split
    · exact firstAnswers_error halive _ _ _
    · rename_i hfresh
      -- the submission is remembered before it is judged, which leaves the socket as it is
      let remembered : Context :=
        { context with
          client := context.client.modifyChannel channelId
            (ChannelState.remember · tuple.submissionKey) }
      have halive' : remembered.client.destroyed = false := halive
      have hrefused (errorCode : String) :=
        firstAnswers_error halive' channelId sequenceNumber errorCode
      show FirstAnswers (remembered.answerShare channelId sequenceNumber _) _
      cases hwork : judgedWork? host context.jobs channel tuple with
      | none =>
        obtain ⟨errorCode, hverdict⟩ := @verdictOn_of_no_work host _ channelId _ _ hwork
        rw [hverdict]
        exact hrefused errorCode
      | some work =>
        obtain ⟨hversion, hmeeting⟩ := hcan _ hsome hfresh work hwork
        obtain ⟨accept, hverdict, hblock⟩ := verdictOn_of_work hwork channelId
        obtain ⟨header, hheader⟩ :=
          Option.isSome_iff_exists.mp ((isSome_header_iff work tuple).mpr hversion)
        rw [hverdict, hheader]
        simp only [judgeHeader]
        split
        · rename_i hmeets
          obtain ⟨hsum, hbuilds⟩ := hmeeting header hheader hmeets
          obtain ⟨sum, hsum⟩ := Option.isSome_iff_exists.mp hsum
          simp only [hsum]
          refine firstAnswers_success halive' _ _ ?_ sum
          rw [hblock]
          split
          · rename_i hcandidate
            obtain ⟨block, hbuilt⟩ := Option.isSome_iff_exists.mp (hbuilds hcandidate)
            rw [hbuilt]
            simp
          · simp
        · exact hrefused _

end

/-- A submission on a connection that is not destroyed is answered once, by a handler that does not
throw, exactly when the header, the reply and the block that it comes to can be written. -/
theorem submission_answered_iff (host : Externals) (config : Sv2Config) {context : Context}
    (halive : context.client.destroyed = false) {message : Sv2Message}
    {channelId sequenceNumber : ℕ}
    (hnumbers : message.numbers? = some (channelId, sequenceNumber)) :
    AnsweredOnce host config context message (channelId, sequenceNumber) ↔
      CanAnswer host context message := by
  constructor
  · exact canAnswer_of_answeredOnce hnumbers
  · intro hcan
    exact answeredOnce_of_firstAnswers (firstAnswers_of_canAnswer halive hnumbers hcan)

namespace Sv2Sample

/-- Channel 1 is open and has been sent job 2. -/
def waiting : List Sv2Input :=
  [.connect 0 "s" .solo, .template (template 7 true) 1700000000000, .data 0 [openStandard]]
    ++ turns 14

/-- A submission on job 2 with a version. -/
def versioned (version : UInt32) : Sv2Message :=
  .submitSharesStandard { submission 2 5 with version }

end Sv2Sample

open Sv2Sample in
/-- A submission with a version from `2 ^ 31` on throws without an answer, on a channel that was
sent its job. -/
theorem not_submission_answered :
    ¬ ∀ (inputs : List Sv2Input) (client : StratumV2Client) (message : Sv2Message)
        (numbers : ℕ × ℕ),
      ((sv2Machine host config).final .initial inputs).clients 0 = some client →
        client.destroyed = false → message.numbers? = some numbers →
          AnsweredOnce host config
            (((sv2Machine host config).final .initial inputs).context client) message numbers := by
  intro hall
  have hcheck : ((((sv2Machine host config).final .initial waiting).clients 0).any fun client =>
      !client.destroyed && closesOn .subscription
        ((((sv2Machine host config).final .initial waiting).context client).turn host config env
          (.frame (versioned 0x80000000))).next) = true := by
    decide +kernel
  obtain ⟨client, hclient, hrest⟩ := (Option.any_eq_true _ _).mp hcheck
  rw [Bool.and_eq_true, Bool.not_eq_true'] at hrest
  obtain ⟨halive, hcloses⟩ := hrest
  have hanswered := hall waiting client (versioned 0x80000000) (1, 0) hclient halive rfl
  have hrun := @HandlerRun.turn host config
    (((sv2Machine host config).final .initial waiting).context client)
    (.frame (versioned 0x80000000)) env rfl
  cases hnext : ((((sv2Machine host config).final .initial waiting).context client).turn host
      config env (.frame (versioned 0x80000000))).next with
  | throws =>
    rw [hnext] at hrun
    exact hanswered.neverThrows _ hrun
  | waits | returns =>
    rw [hnext] at hcloses
    cases hcloses

open Sv2Sample in
theorem submission_answered_iff_sample :
    ∃ client, ((sv2Machine host config).final .initial waiting).clients 0 = some client ∧
      AnsweredOnce host config (((sv2Machine host config).final .initial waiting).context client)
        (versioned 0x20000000) (1, 0) := by
  have hcheck : ((((sv2Machine host config).final .initial waiting).clients 0).any fun client =>
      !client.destroyed && decide (CanAnswer host
        (((sv2Machine host config).final .initial waiting).context client)
        (versioned 0x20000000))) = true := by
    decide +kernel
  obtain ⟨client, hclient, hrest⟩ := (Option.any_eq_true _ _).mp hcheck
  rw [Bool.and_eq_true, Bool.not_eq_true', decide_eq_true_eq] at hrest
  obtain ⟨halive, hcan⟩ := hrest
  have hview : (((sv2Machine host config).final .initial waiting).context client).client.destroyed
      = false := halive
  exact ⟨client, hclient, (submission_answered_iff host config hview rfl).mpr hcan⟩

end PublicPool.Proofs
