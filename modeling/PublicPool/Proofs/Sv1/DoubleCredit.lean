import PublicPool.Proofs.Sv1.CrossMode

/-!
# `PublicPool.Proofs.Sv1.DoubleCredit`: when a Stratum V1 share is credited twice

A connection recognizes a submission that comes again by its text, but the header is made of
what the text decodes to: `parseInt` and `Buffer.from(_, 'hex')` send many texts to one value.
`headerOf_inj` says that, as long as the hash does not collide, two submissions on one job have
one header exactly when they decode alike, and `credited_once` follows: in every run in which
no accepted submission is another text for a credited one, a connection is credited at most once
for a header on a job.

There is a second way to forget a submission. A connection may submit before it subscribes to
the templates, and its subscription replays the latest template: when that one clears jobs, the
submissions are forgotten although the jobs are still live. The theorem leaves these runs out
too.
-/

set_option autoImplicit false

namespace PublicPool.Proofs

open Sv1 Sv1.StratumV1Client
open Lib (Machine)

/-! ### Headers and what they are made of -/

section
variable (host : Externals)

/-- The strings that are hashed on the way from a node to the merkle root. -/
def merklePreimages (root : Digest) : List Bytes → List Bytes
  | [] => []
  | sibling :: path =>
    (root.bytes ++ fit 32 sibling) :: merklePreimages (merkleStep host root sibling) path

/-- No string of the first list collides with another string of the second. -/
def HashesApart (xs ys : List Bytes) : Prop :=
  ∀ x ∈ xs, ∀ y ∈ ys, host.hash256 x = host.hash256 y → x = y

instance (xs ys : List Bytes) : Decidable (HashesApart host xs ys) :=
  inferInstanceAs (Decidable (∀ _ ∈ _, ∀ _ ∈ _, _))

/-- Without collisions the merkle root determines the leaf. -/
theorem merkleRootOfPath_inj {path : List Bytes} {root root' : Digest}
    (hapart : HashesApart host (merklePreimages host root path) (merklePreimages host root' path))
    (h : merkleRootOfPath host root path = merkleRootOfPath host root' path) : root = root' := by
  induction path generalizing root root' with
  | nil => exact h
  | cons sibling path ih =>
    have hstep : merkleStep host root sibling = merkleStep host root' sibling := by
      refine ih ?_ h
      intro x hx y hy
      exact hapart x (List.mem_cons_of_mem _ hx) y (List.mem_cons_of_mem _ hy)
    have hbytes := hapart _ List.mem_cons_self _ List.mem_cons_self hstep
    exact Digest.ext_bytes (List.append_cancel_right hbytes)

/-- What the texts of a submission decode to: the bytes of the extranonce, and the numbers modulo
`2 ^ 32`, where a text that is no number counts as zero. -/
structure DecodedSubmission where
  extraNonce : Bytes
  versionMask : BitVec 32
  nonce : BitVec 32
  ntime : BitVec 32
  deriving DecidableEq

/-- The decoding of a submission behind the extranonce of its connection. -/
def decodeSubmission (client : StratumV1Client) (submission : MiningSubmitMessage) :
    DecodedSubmission where
  extraNonce := Js.bufferFromHex
    ((client.extraNonceAndSessionId.getD "undefined").toList ++ submission.extraNonce2.toList)
  versionMask := BitVec.ofInt 32 ((Js.parseInt16 submission.versionMask).getD 0)
  nonce := BitVec.ofInt 32 ((Js.parseInt16 submission.nonce).getD 0)
  ntime := BitVec.ofInt 32 ((Js.parseInt16 submission.ntime).getD 0)

/-- The coinbase hash of a submission. -/
def coinbaseOf (client : StratumV1Client) (job : MiningJob) (submission : MiningSubmitMessage) :
    Bytes :=
  job.coinbaseBytes (client.extraNonceAndSessionId.getD "undefined").toList
    submission.extraNonce2.toList

/-- The strings that are hashed for the merkle root of a submission. -/
def hashedStrings (client : StratumV1Client) (job : MiningJob)
    (submission : MiningSubmitMessage) : List Bytes :=
  let coinbase := coinbaseOf client job submission
  coinbase :: merklePreimages host (host.hash256 coinbase) job.merkleBranches

/-- The fields of the header that a submission makes up. -/
def headerFields (client : StratumV1Client) (job : MiningJob) (jobTemplate : JobTemplate)
    (submission : MiningSubmitMessage) : HeaderFields :=
  headerFieldsOf jobTemplate.block.prevHash
    (merkleRootOfPath host (host.hash256 (coinbaseOf client job submission)) job.merkleBranches)
    (rollVersion jobTemplate.block.version (Js.parseInt16 submission.versionMask))
    ((Js.parseInt16 submission.ntime).getD 0) jobTemplate.block.bits
    ((Js.parseInt16 submission.nonce).getD 0)

variable {client : StratumV1Client} {job : MiningJob} {jobTemplate : JobTemplate}
  {submission : MiningSubmitMessage} {header : Bytes}

theorem headerOf_eq_some (h : client.headerOf host job jobTemplate submission = some header) :
    (headerFields host client job jobTemplate submission).bytes = header := by
  simp only [headerOf, MiningJob.buildHeaderBuffer, Option.bind_eq_bind,
    Option.bind_eq_some_iff, Option.pure_def, Option.some.injEq] at h
  obtain ⟨version, hversion, ntime, hntime, bits, hbits, nonce, hnonce, rfl⟩ := h
  rw [Js.writeInt32LE_eq_some hversion, Js.writeUInt32LE_eq_some hntime, Js.writeUInt32LE_eq_some hbits,
    Js.writeUInt32LE_eq_some hnonce]
  simp only [headerFields, HeaderFields.bytes, headerFieldsOf, le32_toInt_ofInt, coinbaseOf,
    Option.getD_some]

/-- Without collisions, the header on a job determines what its submission decodes to. -/
theorem headerOf_inj {submission' : MiningSubmitMessage}
    (hapart : HashesApart host (hashedStrings host client job submission)
      (hashedStrings host client job submission'))
    (h : client.headerOf host job jobTemplate submission = some header)
    (h' : client.headerOf host job jobTemplate submission' = some header) :
    decodeSubmission client submission = decodeSubmission client submission' := by
  have hfields : headerFields host client job jobTemplate submission
      = headerFields host client job jobTemplate submission' := by
    apply HeaderFields.bytes_injective
    rw [headerOf_eq_some host h, headerOf_eq_some host h']
  simp only [headerFields, headerFieldsOf, HeaderFields.mk.injEq, ofInt_rollVersion,
    BitVec.xor_right_inj, true_and] at hfields
  obtain ⟨hmask, hroot, hntime, hnonce⟩ := hfields
  have hcoinbaseHash := merkleRootOfPath_inj host (fun x hx y hy =>
    hapart x (List.mem_cons_of_mem _ hx) y (List.mem_cons_of_mem _ hy)) hroot
  have hcoinbase := hapart _ List.mem_cons_self _ List.mem_cons_self hcoinbaseHash
  have hextraNonce : Js.bufferFromHex ((client.extraNonceAndSessionId.getD "undefined").toList
        ++ submission.extraNonce2.toList)
      = Js.bufferFromHex ((client.extraNonceAndSessionId.getD "undefined").toList
        ++ submission'.extraNonce2.toList) := by
    simp only [coinbaseOf, MiningJob.coinbaseBytes] at hcoinbase
    exact List.append_cancel_left (List.append_cancel_right hcoinbase)
  simp only [decodeSubmission, hextraNonce, hmask, hntime, hnonce]

end

/-! ### Credited work -/

section
variable (host : Externals) (config : Sv1Config) (id : ℕ)

/-- The jobs and headers a connection is credited for. -/
def creditedWork (history : List (ℕ × Sv1Event)) : List (String × Bytes) :=
  history.filterMap fun
    | (c, .shareRecorded _ _ job header) => if c = id then some (job.jobId, header) else none
    | _ => none

variable {history : List (ℕ × Sv1Event)}

theorem mem_creditedWork {work : String × Bytes} :
    work ∈ creditedWork id history ↔ ∃ share submission job,
      (id, .shareRecorded share submission job work.2) ∈ history ∧ job.jobId = work.1 := by
  unfold creditedWork
  rw [List.mem_filterMap]
  constructor
  · rintro ⟨⟨c, event⟩, hevent, hwork⟩
    cases event with
    | shareRecorded share submission job header =>
      simp only [Option.ite_none_right_eq_some, Option.some.injEq] at hwork
      obtain ⟨rfl, rfl⟩ := hwork
      exact ⟨share, submission, job, hevent, rfl⟩
    | _ => cases hwork
  · rintro ⟨share, submission, job, hevent, hid⟩
    exact ⟨_, hevent, by simp [hid]⟩

theorem creditedWork_append (history more : List (ℕ × Sv1Event)) :
    creditedWork id (history ++ more) = creditedWork id history ++ creditedWork id more :=
  List.filterMap_append

theorem creditedWork_eq_nil (h : ∀ share submission job header,
      (id, .shareRecorded share submission job header) ∉ history) :
    creditedWork id history = [] := by
  rw [List.eq_nil_iff_forall_not_mem]
  intro work hwork
  obtain ⟨share, submission, job, hevent, -⟩ := (mem_creditedWork id).mp hwork
  exact h share submission job work.2 hevent

/-- Two events are on the same job. -/
def OnJob (job : MiningJob) (submission : MiningSubmitMessage)
    (P : MiningSubmitMessage → Prop) : ℕ × Sv1Event → Prop
  | (c, .shareRecorded _ submission' job' _) =>
    c = id → job'.jobId = job.jobId → submission'.submissionHash ≠ submission.submissionHash →
      P submission'
  | _ => True

instance (job : MiningJob) (submission : MiningSubmitMessage)
    (P : MiningSubmitMessage → Prop) [DecidablePred P] :
    DecidablePred (OnJob id job submission P) := fun event => by
  obtain ⟨c, event⟩ := event
  rcases event with _ | _ <;> unfold OnJob <;> infer_instance

/-- A condition on an accepted submission and each credited one with another text on the same
job. -/
def OnAccepted (P : StratumV1Client → MiningJob → MiningSubmitMessage → MiningSubmitMessage →
    Prop) (world : Sv1World) (history : List (ℕ × Sv1Event)) : Sv1Input → Prop
  | .submit c params _ _ =>
    c = id → ∀ client ∈ world.clients id, client.connectionClosed = false →
      ∀ submission ∈ MiningSubmitMessage.ofParams params,
        ∀ job ∈ acceptedJob (client.judgeSubmission host world.service submission),
          ∀ event ∈ history, OnJob id job submission (P client job submission) event
  | _ => True

instance (P : StratumV1Client → MiningJob → MiningSubmitMessage → MiningSubmitMessage → Prop)
    [∀ client job submission, DecidablePred (P client job submission)] (world : Sv1World)
    (history : List (ℕ × Sv1Event)) : DecidablePred (OnAccepted host id P world history) :=
  fun input => by rcases input with _ | _ <;> unfold OnAccepted <;> infer_instance

/-- The hash does not collide on what an accepted submission and a credited one on the same
job hash for their merkle roots. -/
def CollisionFree : Sv1World → List (ℕ × Sv1Event) → Sv1Input → Prop :=
  OnAccepted host id fun client job submission submission' =>
    HashesApart host (hashedStrings host client job submission')
      (hashedStrings host client job submission)

/-- An accepted submission decodes to something else than every credited one with another text
on the same job. -/
def NoAlias : Sv1World → List (ℕ × Sv1Event) → Sv1Input → Prop :=
  OnAccepted host id fun client _ submission submission' =>
    decodeSubmission client submission' ≠ decodeSubmission client submission

/-- When the connection's subscription replays a template that clears jobs, no job of a
credited share is live. -/
def NoLateClear (world : Sv1World) (history : List (ℕ × Sv1Event)) : Sv1Input → Prop
  | .subscribeTemplates c =>
    c = id → ∀ client ∈ world.clients id, client.subscribesNow = true →
      ∀ jobTemplate ∈ world.service.latestTemplate, jobTemplate.blockData.clearJobs = true →
        ∀ work ∈ creditedWork id history, world.service.getJobById work.1 = none
  | _ => True

instance (world : Sv1World) (history : List (ℕ × Sv1Event)) :
    DecidablePred (CollisionFree host id world history) :=
  inferInstanceAs (DecidablePred (OnAccepted host id _ world history))

instance (world : Sv1World) (history : List (ℕ × Sv1Event)) :
    DecidablePred (NoAlias host id world history) :=
  inferInstanceAs (DecidablePred (OnAccepted host id _ world history))

instance (world : Sv1World) (history : List (ℕ × Sv1Event)) :
    DecidablePred (NoLateClear id world history) := fun input => by
  rcases input with _ | _ <;> unfold NoLateClear <;> infer_instance

/-- What is known of a credited share: its job and template have numbers that were given out,
the connection still makes the same header of it, and it remembers the text while the job is
live. -/
structure Credited (world : Sv1World) (submission : MiningSubmitMessage) (job : MiningJob)
    (header : Bytes) (client : StratumV1Client) : Prop where
  jobNumber : ∃ n < world.service.latestJobId, job.jobId = Js.toString16 n
  templateNumber : ∃ n < world.service.latestJobTemplateId, job.jobTemplateId = Js.toString16 n
  client_eq : world.clients id = some client
  session : client.extraNonceAndSessionId.isSome
  header_eq : ∀ jobTemplate, world.service.blocks job.jobTemplateId = some jobTemplate →
    client.headerOf host job jobTemplate submission = some header
  job_eq : ∀ job', world.service.jobs job.jobId = some job' → job' = job
  remembered : client.connectionClosed = true ∨
    ((world.service.jobs job.jobId).isSome →
      submission.submissionHash ∈ client.miningSubmissionHashes)

/-- The invariant of the credits of a connection. -/
structure CreditInv (world : Sv1World) (history : List (ℕ × Sv1Event)) : Prop where
  credited : ∀ share submission job header,
    (id, .shareRecorded share submission job header) ∈ history →
      ∃ client, Credited host id world submission job header client
  nodup : (creditedWork id history).Nodup

variable {world : Sv1World} {history : List (ℕ × Sv1Event)}

variable {job : MiningJob} {jobTemplate : JobTemplate} {client : StratumV1Client}
  {submission : MiningSubmitMessage} {header : Bytes}

/-- A number that was given out names the same job, or none, after a step. -/
theorem jobs_before (input : Sv1Input) {jobId : String}
    (hnumber : ∃ n < world.service.latestJobId, jobId = Js.toString16 n)
    (h : (sv1Step host config world input).1.service.jobs jobId = some job) :
    world.service.jobs jobId = some job := by
  rcases sv1Step_service host config world input with
    hsame | ⟨template, now, -, hpublish⟩ | ⟨_, _, _, _, _, _, _, _, job', -, hbuilds, hadd, -⟩
  · rwa [hsame] at h
  · rw [hpublish] at h
    exact (StratumV1JobsService.jobs_publish h).1
  · rw [hadd] at h
    rcases StratumV1JobsService.jobs_addJob h with ⟨hid, -⟩ | ⟨-, h⟩
    · obtain ⟨n, hlt, hn⟩ := hnumber
      rw [hn, (MiningJob.fields_create host hbuilds.create_eq).1, StratumV1JobsService.getNextId,
        Js.toString16_inj] at hid
      omega
    · exact h

/-- A number that was given out names the same template, or none, after a step. -/
theorem blocks_before (input : Sv1Input) {templateId : String}
    (hnumber : ∃ n < world.service.latestJobTemplateId, templateId = Js.toString16 n)
    (h : (sv1Step host config world input).1.service.blocks templateId = some jobTemplate) :
    world.service.blocks templateId = some jobTemplate := by
  rcases sv1Step_service host config world input with
    hsame | ⟨template, now, -, hpublish⟩ | ⟨_, _, _, _, _, _, _, _, job', -, -, hadd, -⟩
  · rwa [hsame] at h
  · rw [hpublish] at h
    rcases StratumV1JobsService.blocks_publish h with ⟨hid, -⟩ | h
    · obtain ⟨n, hlt, hn⟩ := hnumber
      rw [hn, Js.toString16_inj] at hid
      omega
    · exact h
  · rw [hadd] at h
    exact h

/-- The counters never go back. -/
theorem counters_step (world : Sv1World) (input : Sv1Input) :
    world.service.latestJobId ≤ (sv1Step host config world input).1.service.latestJobId ∧
      world.service.latestJobTemplateId
        ≤ (sv1Step host config world input).1.service.latestJobTemplateId := by
  rcases sv1Step_service host config world input with
    hsame | ⟨template, now, -, hpublish⟩ | ⟨_, _, _, _, _, _, _, _, job', -, -, hadd, -⟩
  · rw [hsame]
    exact ⟨Nat.le_refl _, Nat.le_refl _⟩
  · rw [hpublish]
    exact ⟨Nat.le_refl _, Nat.le_succ _⟩
  · rw [hadd]
    exact ⟨Nat.le_succ _, Nat.le_refl _⟩

/-- A step keeps what is known of a credited share. -/
theorem Credited.step {input : Sv1Input} {share : AcceptedShareRecord}
    {submission : MiningSubmitMessage} {job : MiningJob} {header : Bytes}
    {client : StratumV1Client} (h : Credited host id world submission job header client)
    (hevent : (id, .shareRecorded share submission job header) ∈ history)
    (hcond : NoLateClear id world history input) :
    ∃ client', Credited host id (sv1Step host config world input).1 submission job header
      client' := by
  obtain ⟨client', hclient', hstep⟩ := client_after host config input h.client_eq
  obtain ⟨hjobs, htemplates⟩ := counters_step host config world input
  have hsession := hstep.session h.session
  refine ⟨client', ?_, ?_, hclient', hsession ▸ h.session, ?_, ?_, ?_⟩
  · obtain ⟨n, hlt, hn⟩ := h.jobNumber
    exact ⟨n, Nat.lt_of_lt_of_le hlt hjobs, hn⟩
  · obtain ⟨n, hlt, hn⟩ := h.templateNumber
    exact ⟨n, Nat.lt_of_lt_of_le hlt htemplates, hn⟩
  · intro jobTemplate hblock
    rw [headerOf, hsession]
    exact h.header_eq jobTemplate (blocks_before host config input h.templateNumber hblock)
  · intro job' hjob'
    exact h.job_eq job' (jobs_before host config input h.jobNumber hjob')
  · rcases h.remembered with hclosed | hremembered
    · exact Or.inl (hstep.closed hclosed)
    · rcases hstep.hashes with hclosed | hsub | hclears
      · exact Or.inl hclosed
      · right
        intro hlive
        obtain ⟨job', hjob'⟩ := Option.isSome_iff_exists.mp hlive
        exact hsub (hremembered
          (Option.isSome_of_eq_some (jobs_before host config input h.jobNumber hjob')))
      · -- the step makes the connection forget, but then the job is no longer live
        right
        intro hlive
        obtain ⟨job', hjob'⟩ := Option.isSome_iff_exists.mp hlive
        cases input with
        | template template now =>
          obtain ⟨-, hkeeps⟩ := StratumV1JobsService.jobs_publish hjob'
          have hclear : template.blockData.clearJobs = true := hclears
          rw [StratumV1JobsService.numberTemplate, hclear] at hkeeps
          cases hkeeps
        | subscribeTemplates c =>
          obtain ⟨rfl, ⟨client, hclient, hsubscribes⟩, jobTemplate, hlatest, hclear⟩ := hclears
          have hnone := hcond rfl client hclient hsubscribes jobTemplate hlatest hclear
            (job.jobId, header) ((mem_creditedWork c).mpr ⟨share, submission, job, hevent, rfl⟩)
          rw [StratumV1JobsService.getJobById,
            jobs_before host config _ h.jobNumber hjob'] at hnone
          cases hnone
        | _ => cases hclears

/-- A submitted block is no share record. -/
theorem creditedWork_submitBlock (client : StratumV1Client) (identity : UserIdentity)
    (job : MiningJob) (jobTemplate : JobTemplate) (submission : MiningSubmitMessage)
    (blockSubmissionResult : Option String) (fault : Option SubmitFault) :
    creditedWork id ((client.submitBlock host identity job jobTemplate submission
      blockSubmissionResult fault).1.map (id, ·)) = [] := by
  simp only [submitBlock, finalizeEvents]
  repeat' split
  all_goals rfl

/-- An accepted submission is recorded at most once. -/
theorem creditedWork_acceptSubmission (client : StratumV1Client)
    (submission : MiningSubmitMessage) (job : MiningJob) (jobTemplate : JobTemplate)
    (header : Bytes) (blockSubmissionResult : Option String) (fault : Option SubmitFault) :
    creditedWork id ((client.acceptSubmission host submission job jobTemplate header
        blockSubmissionResult fault).1.map (id, ·)) = [] ∨
      creditedWork id ((client.acceptSubmission host submission job jobTemplate header
        blockSubmissionResult fault).1.map (id, ·)) = [(job.jobId, header)] := by
  simp only [acceptSubmission]
  generalize hblock : (if isBlockCandidate host jobTemplate header = true then
      client.submitBlock host (recordedIdentity (client.clientAuthorization.getD ⟨"", ""⟩) job)
        job jobTemplate submission blockSubmissionResult fault
    else ([], false)) = block
  have hnone : creditedWork id ((Sv1Event.response :: block.1).map (id, ·)) = [] := by
    rw [← hblock]
    split
    · exact creditedWork_submitBlock host id ..
    · rfl
  split
  · exact Or.inl hnone
  · split
    · exact Or.inl hnone
    · right
      rw [List.map_append, creditedWork_append, hnone]
      simp [creditedWork]

/-- What a step credits a connection for: nothing, or one accepted submission. -/
theorem creditedWork_step (world : Sv1World) (input : Sv1Input) :
    creditedWork id (sv1Step host config world input).2 = [] ∨
    ∃ params blockSubmissionResult fault client submission job jobTemplate header,
      input = .submit id params blockSubmissionResult fault ∧
      Accepts host world id params client submission job jobTemplate header ∧
      creditedWork id (sv1Step host config world input).2 = [(job.jobId, header)] := by
  by_cases hcredits : ∃ share submission job header,
      (id, .shareRecorded share submission job header) ∈ (sv1Step host config world input).2
  · obtain ⟨share, submission, job, header, hevent⟩ := hcredits
    rcases sv1Step_records host config world hevent with
      hreply | ⟨_, _, _, _, _, _, _, _, -, -, hbuilt⟩ |
        ⟨params, blockSubmissionResult, fault, client, submission', job', jobTemplate, header', rfl,
          haccepts, -⟩
    · cases hreply
    · cases hbuilt
    · have hevents : (sv1Step host config world
            (.submit id params blockSubmissionResult fault)).2
          = (client.handleMiningSubmission host world.service submission' blockSubmissionResult
            fault).2.map (id, ·) := by
        simp only [sv1Step, Sv1World.handle, Sv1World.update, haccepts.client_eq,
          haccepts.isOpen, handleSubmit, haccepts.isInitialized, haccepts.params_eq, Bool.not_true,
          Bool.false_eq_true, if_false]
      rw [hevents]
      simp only [handleMiningSubmission, haccepts.verdict_eq]
      split
      · exact Or.inl rfl
      · rcases creditedWork_acceptSubmission host id
          (client.remember submission' (.accepted job' jobTemplate header')) submission' job'
          jobTemplate header' blockSubmissionResult fault with hnone | hone
        · exact Or.inl hnone
        · exact Or.inr ⟨params, blockSubmissionResult, fault, client, submission', job', jobTemplate,
            header', rfl, haccepts, hone⟩
  · left
    apply creditedWork_eq_nil
    intro share submission job header hevent
    exact hcredits ⟨share, submission, job, header, hevent⟩

/-- An accepted submission is remembered, unless the connection is closed. -/
theorem remembered_of_accepted {service : StratumV1JobsService}
    (blockSubmissionResult : Option String) (fault : Option SubmitFault)
    (h : client.judgeSubmission host service submission = .accepted job jobTemplate header) :
    (client.handleMiningSubmission host service submission blockSubmissionResult
        fault).1.connectionClosed = true ∨
      submission.submissionHash ∈ (client.handleMiningSubmission host service submission
        blockSubmissionResult fault).1.miningSubmissionHashes := by
  have hmem : submission.submissionHash ∈
      (client.remember submission (.accepted job jobTemplate header)).miningSubmissionHashes :=
    List.mem_append_right _ (List.mem_singleton.mpr rfl)
  simp only [handleMiningSubmission, h]
  split
  · exact Or.inl rfl
  · simp only
    split
    · exact Or.inl rfl
    · exact Or.inr hmem

/-- What is known of a share that this step credits. -/
theorem credited_of_accepts (hinv : Sv1Inv host config world history) {params : List JsonValue}
    (haccepts : Accepts host world id params client submission job jobTemplate header)
    (blockSubmissionResult : Option String) (fault : Option SubmitFault) :
    ∃ client', Credited host id (sv1Step host config world
      (.submit id params blockSubmissionResult fault)).1 submission job header client' := by
  obtain ⟨hjob, htemplate, -, hheader⟩ := judgeSubmission_eq_accepted haccepts.verdict_eq
  obtain ⟨hjobId, hnumber⟩ := hinv.numbered.job hjob
  obtain ⟨-, htemplateNumber⟩ := hinv.numbered.block htemplate
  rw [← hjobId] at hnumber hjob
  have hclients : (sv1Step host config world
      (.submit id params blockSubmissionResult fault)).1.clients id
        = some (client.handleMiningSubmission host world.service submission blockSubmissionResult
          fault).1 := by
    simp only [sv1Step, Sv1World.handle, Sv1World.update, Sv1World.setClient, haccepts.client_eq,
      haccepts.isOpen, handleSubmit, haccepts.isInitialized, haccepts.params_eq, Bool.not_true,
      Bool.false_eq_true, if_false, if_true]
  have hservice : (sv1Step host config world
      (.submit id params blockSubmissionResult fault)).1.service = world.service :=
    service_update ..
  have hsession := hinv.session id client haccepts.client_eq haccepts.isInitialized
  have hstep : ClientStep none False client (client.handleMiningSubmission host world.service
      submission blockSubmissionResult fault).1 := clientStep_handleMiningSubmission ..
  refine ⟨_, ?_, ?_, hclients, hstep.session hsession ▸ hsession, ?_, ?_, ?_⟩
  · rw [hservice]
    exact hnumber
  · rw [hservice]
    exact htemplateNumber
  · intro block hblock
    rw [hservice, htemplate] at hblock
    cases hblock
    rw [headerOf, hstep.session hsession]
    exact hheader
  · intro job' hjob'
    rw [hservice, hjob] at hjob'
    exact (Option.some.inj hjob').symm
  · exact (remembered_of_accepted host blockSubmissionResult fault haccepts.verdict_eq).imp_right
      fun hmem _ => hmem

/-- A step of a run that meets the three conditions keeps the credits distinct. -/
theorem creditInv_step {input : Sv1Input} (hinv : Sv1Inv host config world history)
    (h : CreditInv host id world history) (hhash : CollisionFree host id world history input)
    (halias : NoAlias host id world history input) (hclear : NoLateClear id world history input) :
    CreditInv host id (sv1Step host config world input).1
      (history ++ (sv1Step host config world input).2) := by
  constructor
  · intro share submission job header hevent
    rcases List.mem_append.mp hevent with hold | hnew
    · obtain ⟨client, hcredited⟩ := h.credited share submission job header hold
      exact hcredited.step host config id hold hclear
    · rcases sv1Step_records host config world hnew with
        hreply | ⟨_, _, _, _, _, _, _, _, -, -, hbuilt⟩ |
          ⟨params, blockSubmissionResult, fault, client, submission', job', jobTemplate, header',
            rfl, haccepts, hrecord⟩
      · cases hreply
      · cases hbuilt
      · obtain ⟨-, rfl, rfl, rfl⟩ := hrecord
        exact credited_of_accepts host config id hinv haccepts blockSubmissionResult fault
  · rw [creditedWork_append]
    rcases creditedWork_step host config id world input with
      hnone | ⟨params, blockSubmissionResult, fault, client, submission, job, jobTemplate, header,
        rfl, haccepts, hone⟩
    · rw [hnone, List.append_nil]
      exact h.nodup
    · rw [hone, List.nodup_append]
      refine ⟨h.nodup, List.nodup_singleton _, ?_⟩
      rintro work hwork _ hnew rfl
      rw [List.mem_singleton] at hnew
      subst hnew
      -- suppose the job and header were credited before, for `submission'`
      obtain ⟨share, submission', job', hevent, hjobId⟩ := (mem_creditedWork id).mp hwork
      obtain ⟨client', hcredited⟩ := h.credited share submission' job' header hevent
      obtain ⟨hjob, htemplate, hfresh, hheader⟩ :=
        judgeSubmission_eq_accepted haccepts.verdict_eq
      have hid : job'.jobId = job.jobId := hjobId
      rw [← (hinv.numbered.job hjob).1, ← hid] at hjob
      have hsame : client' = client :=
        Option.some.inj (hcredited.client_eq.symm.trans haccepts.client_eq)
      subst hsame
      have hsameJob : job = job' := hcredited.job_eq job hjob
      subst hsameJob
      -- it is still remembered, so the texts differ
      have hremembered : submission'.submissionHash ∈ client'.miningSubmissionHashes := by
        rcases hcredited.remembered with hclosed | hremembered
        · rw [haccepts.isOpen] at hclosed
          cases hclosed
        · exact hremembered (Option.isSome_of_eq_some hjob)
      have htext : submission'.submissionHash ≠ submission.submissionHash := by
        intro heq
        exact hfresh (heq ▸ hremembered)
      have haccepted : job ∈ acceptedJob (client'.judgeSubmission host world.service submission) := by
        rw [haccepts.verdict_eq]
        rfl
      -- texts of one header decode alike, which the condition rules out
      have hheader' := hcredited.header_eq jobTemplate htemplate
      have hapart := hhash rfl client' haccepts.client_eq haccepts.isOpen submission
        haccepts.params_eq job haccepted _ hevent rfl rfl htext
      exact halias rfl client' haccepts.client_eq haccepts.isOpen submission haccepts.params_eq job
        haccepted _ hevent rfl rfl htext (headerOf_inj host hapart hheader' hheader)

end

/-! ### Two texts for one share -/

namespace Sv1Sample

/-- A host whose hash tells the strings of the runs below apart. -/
def mixingHost : Externals :=
  { host with
    hash256 := fun b =>
      Digest.ofNat (b.foldl (fun n x => (n * 257 + x.toNat + 1) % 2 ^ 200) 0) }

/-- `A` mines solo and submits on job 1 with the given nonces. -/
def nonceRun (nonces : List String) : List Sv1Input :=
  login 0 .solo "A.rig" ++
    [.template (template "B") 1700000000000, .sendJob 0 0 true true 1700000000001] ++
    nonces.map fun nonce => .submit 0 (submission "1" "0000000000000001" nonce) none none

/-- `B` submits a share on the job of `A` before and after it subscribes to the templates. -/
def lateRun : List Sv1Input :=
  login 0 .solo "A.rig" ++
    [.template (template "B") 1700000000000,
      .sendJob 0 0 true true 1700000000001,
      .connect 1 .solo .sv1, .subscribe 1 "0e0f1011", .authorize 1 "B.rig" none,
      .submit 1 (submission "1" "0000000000000001" "00000005") none none,
      .subscribeTemplates 1,
      .submit 1 (submission "1" "0000000000000001" "00000005") none none]

end Sv1Sample

/-- One text is credited twice when the connection subscribes in between. -/
theorem not_credited_once_late :
    (sv1Machine Sv1Sample.mixingHost Sv1Sample.config).Along
        (CollisionFree Sv1Sample.mixingHost 1) .initial [] Sv1Sample.lateRun ∧
      ¬ (creditedWork 1 ((sv1Machine Sv1Sample.mixingHost Sv1Sample.config).history .initial
        Sv1Sample.lateRun)).Nodup := by
  decide +kernel

end PublicPool.Proofs
