import PublicPool.Proofs.SideEffects
import PublicPool.Proofs.Sv1.AnnouncedDifficulty
import PublicPool.Proofs.Sv1.BlockHeader
import PublicPool.Proofs.WinningTargets

/-!
# `PublicPool.Proofs.WinningHash`: when no winning hash is dropped

A submission is judged by the target of its session or its job first, and only what passes is
compared with the target of the network difficulty. `LiveWork` is a submission on a live job of a
template, over SV1 or as a standard or an extended share over SV2, up to the hash of its header.
`winning_submitted_iff` ranges over all hash functions, so over all hashes that the header may have:
every winning one leads to `SUBMIT_BLOCK`, and is below the target that the template is announced
with, exactly when no difficulty is rounded up past the one of `nBits` (`KeepsWinning`).

A custom job carries the `nBits` of its miner, who submits its blocks; it is no job of a template.
-/

set_option autoImplicit false

namespace PublicPool

/-- The same packages with another hash. -/
def Externals.withHash (host : Externals) (hash : Bytes → Digest) : Externals :=
  { host with hash256 := hash }

end PublicPool

namespace PublicPool.Proofs

open DifficultyUtils Sv1 Sv2
open Sv1.StratumV1Client (headerOf judgeSubmission submittedBlock)
open Lib (Machine)

/-! ### Submissions on live jobs -/

/-- A submission on a live job of a template, in the state it is judged in. Its header can be
written, and the transaction package puts its block together. -/
inductive LiveWork (host : Externals)
  | sv1 (config : Sv1Config) (inputs : List AwaitInput) (id : ℕ) (client : StratumV1Client)
      (submission : MiningSubmitMessage) (job : MiningJob) (jobTemplate : JobTemplate)
      (reached : ((awaitMachine host config).final .initial inputs).pool.clients id = some client)
      (liveJob : ((awaitMachine host config).final .initial inputs).pool.service.getJobById
        submission.jobId = some job)
      (liveTemplate : ((awaitMachine host config).final
        .initial inputs).pool.service.getJobTemplateById job.jobTemplateId = some jobTemplate)
      (fresh : submission.submissionHash ∉ client.miningSubmissionHashes)
      (written : (client.headerOf host job jobTemplate submission).isSome)
      (built : (client.submittedBlock host submission job jobTemplate).isSome)
  | sv2Standard (context : Context) (channelId : ℕ) (channel : ChannelState)
      (submission : Sv2SubmitSharesStandard) (job : MiningJob) (jobTemplate : JobTemplate)
      (sentMerkleRoot : Digest)
      (liveJob : context.jobs.getJobById (Js.toString16 submission.tuple.jobId) = some job)
      (sentRoot : channel.jobIdToMerkleRoot submission.tuple.jobId = some sentMerkleRoot)
      (liveTemplate : context.jobs.getJobTemplateById job.jobTemplateId = some jobTemplate)
      (written : (shareHeader jobTemplate.block.prevHash jobTemplate.block.bits sentMerkleRoot
        submission.tuple).isSome)
      (built : (job.copyAndUpdateBlock host jobTemplate
        (some (Js.bitXor (some submission.tuple.version) (some jobTemplate.block.version)))
        (some submission.tuple.nonce) (Js.toHex channel.extranoncePrefix) fixedStandardExtranonce2
        (some submission.tuple.ntime)).isSome)
  | sv2Extended (context : Context) (channelId : ℕ) (channel : ChannelState)
      (submission : Sv2SubmitSharesExtended) (job : ExtendedJobData)
      (liveJob : channel.extendedJobs submission.tuple.jobId = some job)
      (notRetired : job.retiredAt = none)
      (sized : submission.extranonce.length = channel.extranonceSize)
      (pool : job.workProtocol = .pool)
      (written : (shareHeader job.prevHash job.nBits (merkleRootOfPath host
        (host.hash256 (job.coinbaseTxBytes channel.extranoncePrefix submission.extranonce))
        job.merklePath) submission.tuple).isSome)
      (built : (reconstructExtendedBlock host job submission.tuple (merkleRootOfPath host
        (host.hash256 (job.coinbaseTxBytes channel.extranoncePrefix submission.extranonce))
        job.merklePath) (job.coinbaseTxBytes channel.extranoncePrefix submission.extranonce)).isSome)

namespace LiveWork

variable {host : Externals}

/-- The template of the job. -/
def jobTemplate : LiveWork host → JobTemplate
  | .sv1 _ _ _ _ _ _ jobTemplate .. | .sv2Standard _ _ _ _ _ jobTemplate .. => jobTemplate
  | .sv2Extended _ _ _ _ job .. => job.jobTemplate

/-- The difficulty the submission is judged by first. -/
def difficulty : LiveWork host → Option ℚ
  | .sv1 _ _ _ client .. => client.sessionDifficulty
  | .sv2Standard _ _ channel submission .. => channel.jobDifficulty submission.tuple.jobId
  | .sv2Extended _ _ channel submission .. => channel.jobDifficulty submission.tuple.jobId

/-- The reply to the share can be written: over SV2 it has the difficulty in eight bytes. -/
def Answerable : LiveWork host → Prop
  | .sv1 .. => True
  | .sv2Standard _ _ channel submission .. =>
    (newSharesSum (channel.jobDifficulty submission.tuple.jobId)).isSome
  | .sv2Extended _ _ channel submission .. =>
    (newSharesSum (channel.jobDifficulty submission.tuple.jobId)).isSome

/-- The header under a hash. -/
def header (hash : Bytes → Digest) : LiveWork host → Option Bytes
  | .sv1 _ _ _ client submission job jobTemplate .. =>
    client.headerOf (host.withHash hash) job jobTemplate submission
  | .sv2Standard _ _ _ submission _ jobTemplate sentMerkleRoot .. =>
    shareHeader jobTemplate.block.prevHash jobTemplate.block.bits sentMerkleRoot submission.tuple
  | .sv2Extended _ _ channel submission job .. =>
    shareHeader job.prevHash job.nBits (merkleRootOfPath (host.withHash hash)
      (hash (job.coinbaseTxBytes channel.extranoncePrefix submission.extranonce)) job.merklePath)
      submission.tuple

/-- The calls that follow the judgement under a hash, when none of them fails. -/
def calls (hash : Bytes → Digest) (result : Option String) : LiveWork host → List SubmitCall
  | .sv1 config inputs _ client submission .. =>
    match client.judgeSubmission (host.withHash hash)
        ((awaitMachine host config).final .initial inputs).pool.service submission with
    | .accepted job jobTemplate header =>
      (client.acceptedHandler (host.withHash hash) submission job jobTemplate header result).calls
        fun _ => false
    | _ => []
  | .sv2Standard context channelId channel submission .. =>
    match judgeStandard (host.withHash hash) context.jobs channelId channel submission.tuple with
    | .accepted share _ => (context.acceptedHandler share result).calls fun _ => false
    | _ => []
  | .sv2Extended context channelId channel submission .. =>
    match judgeExtended (host.withHash hash) channelId channel submission.tuple
        submission.extranonce with
    | .accepted share _ => (context.acceptedHandler share result).calls fun _ => false
    | _ => []

end LiveWork

/-- A call of `SUBMIT_BLOCK`. -/
def isSubmitBlock : SubmitCall → Bool
  | .submitBlock _ => true
  | _ => false

/-- No winning hash is dropped: under every hash function, if the header wins, its block is
submitted, and the template is announced with a target that it meets. -/
def DropsNoWin {host : Externals} (work : LiveWork host) (result : Option String) : Prop :=
  ∀ hash, ∀ header ∈ work.header hash, Wins work.jobTemplate.block.bits (hash header) →
    (work.calls hash result).any isSubmitBlock = true ∧
      ∃ target ∈ targetFromDifficulty work.jobTemplate.blockData.networkDifficulty,
        meetsTarget (hash header).bytes target = true

/-- No difficulty is rounded up past the one of `nBits`. -/
structure KeepsWinning (nBits : ℤ) (difficulty : Option ℚ) : Prop where
  share : RoundsBelow nBits difficulty
  block : RoundsBelow nBits (calculateNetworkDifficulty nBits)
  announced : (calculateNetworkDifficulty nBits).isSome ∧ networkTarget nBits ≤ trueDiffOne

/-! ### What is submitted -/

theorem any_isSubmitBlock {calls : List SubmitCall} :
    calls.any isSubmitBlock = true ↔ ∃ blockHex, .submitBlock blockHex ∈ calls := by
  rw [List.any_eq_true]
  constructor
  · rintro ⟨call, hmem, hcall⟩
    cases call with
    | submitBlock blockHex => exact ⟨blockHex, hmem⟩
    | _ => cases hcall
  · rintro ⟨blockHex, hmem⟩
    exact ⟨_, hmem, rfl⟩

section
variable {host : Externals} {result : Option String}

/-- Over SV1 the block of an accepted share is submitted when its header is a candidate. -/
theorem sv1_submits_iff {client : StratumV1Client} {submission : MiningSubmitMessage}
    {job : MiningJob} {jobTemplate : JobTemplate} {header : Bytes}
    (hbuilt : (client.submittedBlock host submission job jobTemplate).isSome) :
    ((client.acceptedHandler host submission job jobTemplate header result).calls
        fun _ => false).any isSubmitBlock = true
      ↔ StratumV1Client.isBlockCandidate host jobTemplate header = true := by
  rw [any_isSubmitBlock]
  obtain ⟨block, hblock⟩ := Option.isSome_iff_exists.mp hbuilt
  simp [StratumV1Client.acceptedHandler, mem_calls_reportSubmission, hblock]

/-- Over SV2 the block of an accepted share is submitted when there is one. -/
theorem sv2_submits_iff {context : Context} {share : Sv2.AcceptedShare}
    (hbuilt : share.block ≠ some none) :
    ((context.acceptedHandler share result).calls fun _ => false).any isSubmitBlock = true
      ↔ share.block.isSome := by
  rw [any_isSubmitBlock]
  have hshare : (∃ block, shareBlock context share = some block) ↔ share.block.isSome := by
    rw [← Option.isSome_iff_exists, isSome_shareBlock]
    exact and_iff_left hbuilt
  rw [← hshare]
  simp [Context.acceptedHandler, value_updatedJobBlock, mem_calls_reportShare, hbuilt]

/-! ### What does not depend on the hash -/

variable (hash : Bytes → Digest)

/-- A block is put together under every hash. -/
theorem isSome_copyAndUpdateBlock {job : MiningJob} {jobTemplate : JobTemplate}
    {versionMask nonce timestamp : Option ℤ} {extraNonce extraNonce2 : List Char}
    (h : (job.copyAndUpdateBlock host jobTemplate versionMask nonce extraNonce extraNonce2
      timestamp).isSome) :
    (job.copyAndUpdateBlock (host.withHash hash) jobTemplate versionMask nonce extraNonce
      extraNonce2 timestamp).isSome := by
  obtain ⟨block, hblock⟩ := Option.isSome_iff_exists.mp h
  simp only [MiningJob.copyAndUpdateBlock, Option.bind_eq_bind, Option.bind_eq_some_iff] at hblock
  obtain ⟨coinbase, hcoinbase, header, hheader, -⟩ := hblock
  obtain ⟨header', hheader', -⟩ := @blockHeaderBytes_of_root _ _ _
    (job.blockMerkleRoot (host.withHash hash) coinbase) _ _ _ _ hheader
  have hcoinbase' : job.blockCoinbase (host.withHash hash) extraNonce extraNonce2
      = some coinbase := hcoinbase
  simp [MiningJob.copyAndUpdateBlock, hcoinbase', hheader']

theorem isSome_reconstructExtendedBlock {job : ExtendedJobData} {tuple : ShareTuple}
    {root root' : Digest} {coinbaseTxBytes : Bytes}
    (h : (reconstructExtendedBlock host job tuple root coinbaseTxBytes).isSome) :
    (reconstructExtendedBlock (host.withHash hash) job tuple root' coinbaseTxBytes).isSome := by
  obtain ⟨block, hblock⟩ := Option.isSome_iff_exists.mp h
  simp only [reconstructExtendedBlock, Option.bind_eq_bind, Option.bind_eq_some_iff] at hblock
  obtain ⟨coinbase, hcoinbase, header, hheader, -⟩ := hblock
  obtain ⟨header', hheader', -⟩ := @blockHeaderBytes_of_root _ _ _ root' _ _ _ _ hheader
  have hcoinbase' : (host.withHash hash).fromBuffer coinbaseTxBytes = some coinbase := hcoinbase
  simp [reconstructExtendedBlock, hcoinbase', hheader']

/-- A header is written around every merkle root. -/
theorem isSome_buildHeader {prevHash : Bytes} {root root' : Digest}
    {version timestamp nBits nonce : ℤ}
    (h : (buildHeader prevHash root version timestamp nBits nonce).isSome) :
    (buildHeader prevHash root' version timestamp nBits nonce).isSome := by
  obtain ⟨header, hheader⟩ := Option.isSome_iff_exists.mp h
  simp only [buildHeader, Option.bind_eq_bind, Option.bind_eq_some_iff] at hheader
  obtain ⟨versionBytes, hversion, timestampBytes, htimestamp, bitsBytes, hbits, nonceBytes, hnonce,
    -⟩ := hheader
  simp [buildHeader, hversion, htimestamp, hbits, hnonce]

/-- The header of a live submission is written under every hash. -/
theorem LiveWork.exists_header (work : LiveWork host) :
    ∃ header, work.header hash = some header := by
  rw [← Option.isSome_iff_exists]
  cases work with
  | sv1 config inputs id client submission job jobTemplate _ _ _ _ written _ =>
    obtain ⟨header, hheader⟩ := Option.isSome_iff_exists.mp written
    obtain ⟨header', hheader', -⟩ := @blockHeaderBytes_of_root _ _ _
      (merkleRootOfPath (host.withHash hash) (hash (coinbaseOf client job submission))
        job.merkleBranches) _ _ _ _ (judgedHeader_eq hheader)
    exact Option.isSome_iff_exists.mpr ⟨header', hheader'⟩
  | sv2Standard context channelId channel submission job jobTemplate root _ _ _ written _ =>
    exact written
  | sv2Extended context channelId channel submission job _ _ _ _ written _ =>
    exact isSome_buildHeader written

end

/-! ### The target of a session -/

/-- The target of every connection is that of its difficulty. -/
def SessionTargets (world : AwaitWorld) : Prop := TargetsMatch world.pool

section
variable {host : Externals} {config : Sv1Config} {world : AwaitWorld}

theorem SessionTargets.beginSubmit (h : SessionTargets world) (id : ℕ)
    (params : List JsonValue) : SessionTargets (world.beginSubmit id params) := by
  unfold AwaitWorld.beginSubmit
  split
  · rename_i client hclient
    split
    · exact h
    · split
      · exact TargetsMatch.setClient h (h id client hclient)
      · exact h
  · exact h

theorem SessionTargets.beginSuggestDifficulty (h : SessionTargets world) (id : ℕ)
    (suggestedDifficulty : ℚ) :
    SessionTargets (world.beginSuggestDifficulty id suggestedDifficulty) := by
  unfold AwaitWorld.beginSuggestDifficulty
  split
  · split
    · exact h
    · exact h
  · exact h

theorem SessionTargets.resume (h : SessionTargets world) (id k : ℕ) (succeeded : Bool)
    (answer : Option String) :
    SessionTargets (world.resume host config id k succeeded answer).1 := by
  unfold AwaitWorld.resume
  split
  · rename_i client call hclient hcall
    obtain ⟨client', next, events, hresumed⟩ : ∃ client' next events,
        client.resume host config world.pool.service succeeded answer call
          = (client', next, events) := ⟨_, _, _, rfl⟩
    have hmoves : let resumed :=
          client.resume host config world.pool.service succeeded answer call
        Resumes host config client call resumed.1 resumed.2.1 resumed.2.2 := resumes ..
    rw [hresumed] at hmoves
    simp only [hresumed]
    refine TargetsMatch.setClient h ?_
    rcases hmoves.difficulty with hkeeps | ⟨suggestedDifficulty, -, hsets⟩
    · rw [hkeeps.target, hkeeps.session]
      exact h id client hclient
    · rw [hsets.target, hsets.session]
  · exact h

theorem SessionTargets.poolStep (h : SessionTargets world) {input : Sv1Input}
    (hsubmit : ∀ id params result fault, input ≠ .submit id params result fault)
    (hsuggest : ∀ id difficulty, input ≠ .suggestDifficulty id difficulty) :
    SessionTargets { world with pool := (sv1Step host config world.pool input).1 } :=
  TargetsMatch.move h (sv1Step_difficulty host config hsubmit hsuggest)

/-- What is no submission and no suggestion is one step of the pool. -/
theorem awaitStep_begin {input : Sv1Input}
    (hsubmit : ∀ id params result fault, input ≠ .submit id params result fault)
    (hsuggest : ∀ id difficulty, input ≠ .suggestDifficulty id difficulty) :
    (awaitStep host config world (.begin input)).1
      = { world with pool := (sv1Step host config world.pool input).1 } := by
  cases input with
  | submit id params result fault => exact absurd rfl (hsubmit id params result fault)
  | suggestDifficulty id difficulty => exact absurd rfl (hsuggest id difficulty)
  | _ => rfl

/-- Every step keeps the targets. -/
theorem SessionTargets.step (h : SessionTargets world) (input : AwaitInput) :
    SessionTargets (awaitStep host config world input).1 := by
  cases input with
  | resume id k succeeded answer => exact h.resume id k succeeded answer
  | begin input =>
    by_cases hsubmit : ∃ id params result fault, input = .submit id params result fault
    · obtain ⟨id, params, result, fault, rfl⟩ := hsubmit
      exact h.beginSubmit id params
    · by_cases hsuggest : ∃ id difficulty, input = .suggestDifficulty id difficulty
      · obtain ⟨id, difficulty, rfl⟩ := hsuggest
        exact h.beginSuggestDifficulty id difficulty
      · simp only [not_exists] at hsubmit hsuggest
        rw [awaitStep_begin hsubmit hsuggest]
        exact h.poolStep hsubmit hsuggest

/-- In every reachable state the target of a connection is that of its difficulty. -/
theorem sessionTargets_final (inputs : List AwaitInput) :
    SessionTargets ((awaitMachine host config).final .initial inputs) := by
  refine @Machine.history_invariant _ _ _ (awaitMachine host config)
    (fun world _ => SessionTargets world) (fun _ _ _ => True)
    (fun _ _ input h _ => h.step input) .initial [] announcedInv_initial.target inputs ?_
  exact (awaitMachine host config).along_of_forall_mem (fun _ _ => trivial) .initial []

end

/-! ### Which hashes are dropped -/

section
variable {host : Externals} {result : Option String} {hash : Bytes → Digest} {header : Bytes}

/-- The calls that follow the verdict on an SV2 share, when none of them fails. -/
def verdictCalls (context : Context) (result : Option String) : Sv2.ShareVerdict → List SubmitCall
  | .accepted share _ => (context.acceptedHandler share result).calls fun _ => false
  | _ => []

/-- An SV2 share is submitted when it is accepted and its block is put together. -/
theorem judgeHeader_submits_iff {context : Context} {difficulty : Option ℚ}
    {accept : Bytes → Sv2.AcceptedShare} (hbuilt : (accept header).block ≠ some none) :
    (verdictCalls context result
        (judgeHeader (host.withHash hash) difficulty (some header) accept)).any isSubmitBlock = true
      ↔ (newSharesSum difficulty).isSome ∧
        meetsTarget (hash header).bytes (difficultyToTarget difficulty) = true ∧
        (accept header).block.isSome := by
  have hsubmits := @sv2_submits_iff result context (accept header) hbuilt
  have hhash : ((host.withHash hash).hash256 header).bytes = (hash header).bytes := rfl
  unfold judgeHeader
  by_cases hmeets : meetsTarget (hash header).bytes (difficultyToTarget difficulty) = true
  · simp only [hhash, if_pos hmeets]
    cases newSharesSum difficulty with
    | none => simp [verdictCalls]
    | some sum => simp [verdictCalls, hmeets, hsubmits]
  · simp [verdictCalls, hhash, hmeets]

/-- A header whose hash passes both targets is submitted, and no other. -/
theorem LiveWork.submits_iff (work : LiveWork host) (hheader : work.header hash = some header) :
    (work.calls hash result).any isSubmitBlock = true
      ↔ work.Answerable ∧
        meetsTarget (hash header).bytes (difficultyToTarget work.difficulty) = true ∧
        meetsTarget (hash header).bytes
          (difficultyToTarget work.jobTemplate.blockData.networkDifficulty) = true := by
  cases work with
  | sv1 config inputs id client submission job jobTemplate reached liveJob liveTemplate fresh _
      built =>
    have htarget := sessionTargets_final inputs id client reached
    have hheader' : client.headerOf (host.withHash hash) job jobTemplate submission = some header :=
      hheader
    have hbuilt : (client.submittedBlock (host.withHash hash) submission job jobTemplate).isSome :=
      isSome_copyAndUpdateBlock hash built
    have hsubmits := @sv1_submits_iff _ result client submission job jobTemplate header hbuilt
    show (LiveWork.calls hash result (.sv1 ..)).any isSubmitBlock = true
      ↔ True ∧ meetsTarget (hash header).bytes (difficultyToTarget client.sessionDifficulty) = true ∧
        StratumV1Client.isBlockCandidate (host.withHash hash) jobTemplate header = true
    rw [← hsubmits, ← htarget]
    have hverdict : client.judgeSubmission (host.withHash hash)
        ((awaitMachine host config).final .initial inputs).pool.service submission
        = if meetsTarget (hash header).bytes client.sessionDifficultyTarget = true then
            .accepted job jobTemplate header
          else .lowDifficulty := by
      simp only [judgeSubmission, liveJob, liveTemplate, if_neg fresh, hheader']
      rfl
    by_cases hmeets : meetsTarget (hash header).bytes client.sessionDifficultyTarget = true
    · rw [if_pos hmeets] at hverdict
      simp only [LiveWork.calls, hverdict, hmeets, true_and]
    · rw [if_neg hmeets] at hverdict
      simp [LiveWork.calls, hverdict, hmeets]
  | sv2Standard context channelId channel submission job jobTemplate root liveJob sentRoot
      liveTemplate _ built =>
    have hheader' : shareHeader jobTemplate.block.prevHash jobTemplate.block.bits root
        submission.tuple = some header := hheader
    have hbuilt := isSome_copyAndUpdateBlock hash built
    show (LiveWork.calls hash result (.sv2Standard ..)).any isSubmitBlock = true
      ↔ (newSharesSum (channel.jobDifficulty submission.tuple.jobId)).isSome ∧
        meetsTarget (hash header).bytes
          (difficultyToTarget (channel.jobDifficulty submission.tuple.jobId)) = true ∧
        Sv2.isBlockCandidate (host.withHash hash) jobTemplate header = true
    simp only [LiveWork.calls, judgeStandard, liveJob, sentRoot, liveTemplate, hheader']
    by_cases hcandidate : Sv2.isBlockCandidate (host.withHash hash) jobTemplate header = true
    · refine (judgeHeader_submits_iff ?_).trans ?_
      · simp only [if_pos hcandidate]
        intro hnone
        rw [Option.some.inj hnone] at hbuilt
        cases hbuilt
      · simp [hcandidate]
    · refine (judgeHeader_submits_iff ?_).trans ?_
      · simp [hcandidate]
      · simp [hcandidate]
  | sv2Extended context channelId channel submission job liveJob notRetired sized pool _ built =>
    have hheader' : shareHeader job.prevHash job.nBits (merkleRootOfPath (host.withHash hash)
        ((host.withHash hash).hash256
          (job.coinbaseTxBytes channel.extranoncePrefix submission.extranonce)) job.merklePath)
        submission.tuple = some header := hheader
    have hbuilt := @isSome_reconstructExtendedBlock host hash job submission.tuple _
      (merkleRootOfPath (host.withHash hash) ((host.withHash hash).hash256
        (job.coinbaseTxBytes channel.extranoncePrefix submission.extranonce)) job.merklePath) _ built
    have hpool : job.workProtocol ≠ .sv2Jdp := by
      rw [pool]
      exact WorkProtocol.noConfusion
    show (LiveWork.calls hash result (.sv2Extended ..)).any isSubmitBlock = true
      ↔ (newSharesSum (channel.jobDifficulty submission.tuple.jobId)).isSome ∧
        meetsTarget (hash header).bytes
          (difficultyToTarget (channel.jobDifficulty submission.tuple.jobId)) = true ∧
        Sv2.isBlockCandidate (host.withHash hash) job.jobTemplate header = true
    simp only [LiveWork.calls, judgeExtended, liveJob, notRetired, Option.isSome_none,
      Bool.false_eq_true, if_false, sized, ne_eq, not_true_eq_false, hheader']
    by_cases hcandidate : Sv2.isBlockCandidate (host.withHash hash) job.jobTemplate header = true
    · refine (judgeHeader_submits_iff ?_).trans ?_
      · simp only [if_pos (And.intro hcandidate hpool)]
        intro hnone
        rw [Option.some.inj hnone] at hbuilt
        cases hbuilt
      · simp [hcandidate, hpool]
    · refine (judgeHeader_submits_iff ?_).trans ?_
      · simp [hcandidate]
      · simp [hcandidate]

/-- No winning hash is dropped, whatever the header's hash is, exactly when the reply can be written
and no difficulty is rounded up past the one of the template's `nBits`. -/
theorem winning_submitted_iff (work : LiveWork host)
    (hbits : work.jobTemplate.blockData.networkDifficulty
      = calculateNetworkDifficulty work.jobTemplate.block.bits) (result : Option String) :
    DropsNoWin work result
      ↔ work.Answerable ∧ KeepsWinning work.jobTemplate.block.bits work.difficulty := by
  have hsubmits : ∀ hash header, work.header hash = some header →
      ((work.calls hash result).any isSubmitBlock = true ↔ work.Answerable ∧
        meetsTarget (hash header).bytes (difficultyToTarget work.difficulty) = true ∧
        meetsTarget (hash header).bytes (difficultyToTarget
          (calculateNetworkDifficulty work.jobTemplate.block.bits)) = true) := by
    intro hash header hheader
    rw [work.submits_iff hheader, hbits]
  have hannounced := announcesTarget_iff work.jobTemplate.block.bits
  have hshare := containsTarget_iff work.jobTemplate.block.bits work.difficulty
  have hblock := containsTarget_iff work.jobTemplate.block.bits
    (calculateNetworkDifficulty work.jobTemplate.block.bits)
  constructor
  · intro hkeeps
    -- the header may have any hash
    have hdigest : ∀ digest : Digest, Wins work.jobTemplate.block.bits digest →
        (work.Answerable ∧
          meetsTarget digest.bytes (difficultyToTarget work.difficulty) = true ∧
          meetsTarget digest.bytes (difficultyToTarget
            (calculateNetworkDifficulty work.jobTemplate.block.bits)) = true) ∧
        ∃ target ∈ targetFromDifficulty
            (calculateNetworkDifficulty work.jobTemplate.block.bits),
          meetsTarget digest.bytes target = true := by
      intro digest hwins
      obtain ⟨header, hheader⟩ := work.exists_header fun _ => digest
      have hkept := hkeeps (fun _ => digest) header hheader hwins
      rwa [hsubmits _ header hheader, hbits] at hkept
    exact ⟨(hdigest _ (wins_zero _)).1.1,
      { share := hshare.mp fun digest hwins => (hdigest digest hwins).1.2.1
        block := hblock.mp fun digest hwins => (hdigest digest hwins).1.2.2
        announced := hannounced.mp fun digest hwins => (hdigest digest hwins).2 }⟩
  · rintro ⟨hanswers, hkeeps⟩ hash header hheader hwins
    rw [hsubmits hash header hheader, hbits]
    exact ⟨⟨hanswers, hshare.mpr hkeeps.share _ hwins, hblock.mpr hkeeps.block _ hwins⟩,
      hannounced.mpr hkeeps.announced _ hwins⟩

end

namespace Sv1Sample

/-- A template with the given bits. -/
def templateOfBits (nBits : ℤ) : JobTemplate :=
  { template "B" with
    block := { (template "B").block with bits := nBits }
    blockData := { (template "B").blockData with
      networkDifficulty := calculateNetworkDifficulty nBits } }

/-- `A` has a job and has submitted nothing yet. -/
def jobRun (nBits : ℤ) : List AwaitInput :=
  (login 0 .solo "A.rig" ++ [Sv1Input.template (templateOfBits nBits) 1700000000000,
    .sendJob 0 0 true true 1700000000001]).map .begin

/-- A submission of `A` on its job. -/
def submissionOfA : MiningSubmitMessage where
  jobId := "1"
  extraNonce2 := "0000000000000001"
  ntime := "6553f101"
  nonce := "00000005"
  versionMask := "0"

/-- The pool after the run. -/
def jobWorld (nBits : ℤ) : AwaitWorld := (awaitMachine host config).final .initial (jobRun nBits)

/-- The submission, as it is judged then. -/
def liveWork : LiveWork host :=
  .sv1 config (jobRun 0x17034219) 0 (((jobWorld 0x17034219).pool.clients 0).get (by decide +kernel))
    submissionOfA (((jobWorld 0x17034219).pool.service.getJobById "1").get (by decide +kernel))
    (((jobWorld 0x17034219).pool.service.getJobTemplateById
      (((jobWorld 0x17034219).pool.service.getJobById "1").get
        (by decide +kernel)).jobTemplateId).get (by decide +kernel))
    (Option.some_get _).symm (Option.some_get _).symm (Option.some_get _).symm (by decide +kernel)
    (by decide +kernel) (by decide +kernel)

end Sv1Sample

/-- A header whose hash is the target of `nBits` itself is no block for the pool. -/
theorem not_winning_submitted : ¬ DropsNoWin Sv1Sample.liveWork none := by
  intro h
  let hash : Bytes → Digest := fun _ => Digest.ofNat (networkTarget 0x17034219)
  obtain ⟨header, hheader⟩ := Sv1Sample.liveWork.exists_header hash
  have hwins : Wins Sv1Sample.liveWork.jobTemplate.block.bits (hash header) := by decide +kernel
  have hdropped : (Sv1Sample.liveWork.calls hash none).any isSubmitBlock = false := by
    decide +kernel
  have hsubmitted := (h hash header hheader hwins).1
  rw [hdropped] at hsubmitted
  cases hsubmitted

theorem winning_submitted_iff_sample :
    DropsNoWin Sv1Sample.liveWork none
      ↔ Sv1Sample.liveWork.Answerable ∧
        KeepsWinning Sv1Sample.liveWork.jobTemplate.block.bits Sv1Sample.liveWork.difficulty :=
  winning_submitted_iff Sv1Sample.liveWork (by decide +kernel) none

end PublicPool.Proofs
