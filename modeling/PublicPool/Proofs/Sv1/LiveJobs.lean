import PublicPool.Proofs.Sv1.Attribution

/-!
# `PublicPool.Proofs.Sv1.LiveJobs`: whether a live job can be submitted on

Jobs and templates are kept in two maps, and both are dropped five minutes after their own
creation. A job that is created late on a template outlives it: a new difficulty or a new payout
address makes a job on the latest template, whose number and age it keeps. The same happens to a
job that waits for the client's row while its template is dropped.

`KeepsTemplates` says of a step that it drops no template of a live job, and builds no job on a
template that was dropped. `live_jobs_resolve` is about every run of such steps: a job that was
built less than five minutes ago, and after the last template that clears jobs, is found, and so is
its template.
-/

set_option autoImplicit false

namespace PublicPool.Proofs

open Sv1 Sv1.StratumV1Client
open Lib (Machine)
open StratumV1JobsService (maxAge)

/-! ### Live jobs -/

/-- The reading of the clock that comes with a step. -/
def timeOf : Sv1Input → Option ℕ
  | .template _ now => some now
  | .setPayout _ _ _ now => some now
  | .checkDifficulty _ _ now => some now
  | .sendJob _ _ _ _ now => some now
  | _ => none

/-- The clock does not go back, and shows `now` in the end. -/
def Clocked (inputs : List Sv1Input) (now : ℕ) : Prop :=
  (inputs.filterMap timeOf ++ [now]).Pairwise (· ≤ ·)

instance (inputs : List Sv1Input) (now : ℕ) : Decidable (Clocked inputs now) :=
  inferInstanceAs (Decidable (List.Pairwise _ _))

/-- A template that clears jobs. -/
def clearsJobs : Sv1Input → Bool
  | .template template _ => template.blockData.clearJobs
  | _ => false

section
variable (host : Externals) (config : Sv1Config)

/-- A job was built in the course of a run, less than five minutes ago, and no template has cleared
jobs since. -/
structure Live (inputs : List Sv1Input) (now : ℕ) (job : MiningJob) : Prop where
  built : ∃ before input after, inputs = before ++ input :: after ∧
    (∃ owner inForce, (owner, .jobBuilt job inForce) ∈
      (sv1Step host config ((sv1Machine host config).final .initial before) input).2) ∧
    ∀ later ∈ after, clearsJobs later = false
  age : now < job.creation + maxAge

/-- A job is found, its template is found, and no submission on it is answered that one of them is
not. -/
structure JobResolves (service : StratumV1JobsService) (job : MiningJob) : Prop where
  jobFound : service.getJobById job.jobId = some job
  templateFound : ∃ template, service.getJobTemplateById job.jobTemplateId = some template
  answered : ∀ client params submission blockSubmissionResult fault message,
    MiningSubmitMessage.ofParams params = some submission → submission.jobId = job.jobId →
      .errorResponse .jobNotFound message ∉
        (handleSubmit host service client params blockSubmissionResult fault).2

/-- A step that keeps the templates of live jobs: a template that does not clear jobs finds none
whose own template is more than five minutes old, and a job is built on a template that is still
there. -/
def KeepsTemplates (world : Sv1World) : Sv1Input → Prop
  | .template template now => template.blockData.clearJobs = false →
      ∀ n < world.service.latestJobId, ∀ job ∈ world.service.jobs (Js.toString16 n),
        now < job.creation + maxAge → ∀ old ∈ world.service.blocks job.jobTemplateId,
          now ≤ old.blockData.creation + maxAge
  | .sendJob id k inserted _ _ => inserted = true →
      ∀ client ∈ world.clients id, ∀ jobTemplate ∈ client.pendingJobs[k]?,
        (world.service.blocks jobTemplate.blockData.id).isSome
  | _ => True

instance (world : Sv1World) : DecidablePred (KeepsTemplates world) := fun input => by
  rcases input with _ | _ <;> unfold KeepsTemplates <;> infer_instance

/-! ### Submissions -/

/-- An answer that refuses something. -/
def isError : Sv1Event → Bool
  | .errorResponse .. => true
  | _ => false

variable {client : StratumV1Client} {job : MiningJob} {submission : MiningSubmitMessage}
  {blockSubmissionResult : Option String} {fault : Option SubmitFault}

variable {jobTemplate : JobTemplate} {service : StratumV1JobsService}

theorem isError_submitBlock {identity : UserIdentity} :
    ∀ event ∈ (client.submitBlock host identity job jobTemplate submission blockSubmissionResult
      fault).1, isError event = false := by
  intro event hevent
  have hfinalized (coinbase : Transaction) :
      ∀ event ∈ client.finalizeEvents jobTemplate coinbase blockSubmissionResult,
        isError event = false := by
    intro event hevent
    unfold finalizeEvents at hevent
    split at hevent
    · rw [List.mem_singleton.mp hevent]
      rfl
    · cases hevent
  simp only [submitBlock] at hevent
  split at hevent
  · cases hevent
  · split at hevent
    · cases hevent
    · split at hevent
      · rw [List.mem_singleton.mp hevent]
        rfl
      · rcases List.mem_cons.mp hevent with rfl | hlater
        · rfl
        · exact hfinalized _ event hlater

theorem isError_acceptSubmission {header : Bytes} :
    ∀ event ∈ (client.acceptSubmission host submission job jobTemplate header blockSubmissionResult
      fault).1, isError event = false := by
  intro event hevent
  simp only [acceptSubmission] at hevent
  generalize hblock : (if isBlockCandidate host jobTemplate header = true then
      client.submitBlock host (recordedIdentity (client.clientAuthorization.getD ⟨"", ""⟩) job)
        job jobTemplate submission blockSubmissionResult fault
    else ([], false)) = block at hevent
  have hevents : ∀ event ∈ block.1, isError event = false := by
    rw [← hblock]
    split
    · exact isError_submitBlock host
    · intro event hnone
      cases hnone
  have hanswered : ∀ event ∈ Sv1Event.response :: block.1, isError event = false := by
    intro event hanswer
    rcases List.mem_cons.mp hanswer with rfl | hlater
    · rfl
    · exact hevents event hlater
  split at hevent
  · exact hanswered event hevent
  · split at hevent
    · exact hanswered event hevent
    · rcases List.mem_append.mp hevent with hanswer | hrecorded
      · exact hanswered event hanswer
      · rw [List.mem_singleton.mp hrecorded]
        rfl

/-- A submission whose job and template are found is not judged otherwise. -/
theorem judgeSubmission_ne_jobNotFound {template : JobTemplate}
    (hjob : service.getJobById submission.jobId = some job)
    (htemplate : service.getJobTemplateById job.jobTemplateId = some template) (message : String) :
    client.judgeSubmission host service submission ≠ .jobNotFound message := by
  rw [judgeSubmission, hjob]
  dsimp only
  rw [htemplate]
  dsimp only
  split
  · exact SubmissionVerdict.noConfusion
  · split
    · exact SubmissionVerdict.noConfusion
    · split <;> exact SubmissionVerdict.noConfusion

/-- Only a submission that is judged so is answered that its job is not found. -/
theorem jobNotFound_of_answer {params : List JsonValue}
    (hparams : MiningSubmitMessage.ofParams params = some submission) {message : String}
    (h : .errorResponse .jobNotFound message ∈
      (handleSubmit host service client params blockSubmissionResult fault).2) :
    ∃ text, client.judgeSubmission host service submission = .jobNotFound text := by
  rw [handleSubmit] at h
  split at h
  · cases h
  · rw [hparams] at h
    simp only [handleMiningSubmission] at h
    split at h
    · rename_i text hverdict
      exact ⟨text, hverdict⟩
    · split at h
      · cases h
      · simp at h
    · split at h
      · cases h
      · simp at h
    · cases h
    · split at h
      · cases h
      · exact absurd (isError_acceptSubmission host _ h) (Bool.noConfusion)

/-! ### The jobs service -/

variable {service : StratumV1JobsService} {job : MiningJob}

variable {template : JobTemplate} {now : ℕ} {id : String}

theorem jobs_publish_of_fresh (hclear : template.blockData.clearJobs = false)
    (hjob : service.jobs id = some job) (hage : now ≤ job.creation + maxAge) :
    (service.publish template now).jobs id = some job := by
  have hkept : (service.numberTemplate template now).blockData.clearJobs = false := hclear
  simp only [StratumV1JobsService.publish, hkept, Bool.false_eq_true, if_false]
  rw [hjob, Option.filter_some, if_pos (decide_eq_true (by omega))]

theorem blocks_publish_of_fresh {old : JobTemplate} (hclear : template.blockData.clearJobs = false)
    (hold : service.blocks id = some old) (hage : now ≤ old.blockData.creation + maxAge) :
    ∃ block, (service.publish template now).blocks id = some block := by
  have hkept : (service.numberTemplate template now).blockData.clearJobs = false := hclear
  simp only [StratumV1JobsService.publish, hkept, Bool.false_eq_true, if_false]
  split
  · exact ⟨_, rfl⟩
  · rw [hold, Option.filter_some, if_pos (decide_eq_true (by omega))]
    exact ⟨old, rfl⟩

/-- A job and its template are in the maps. -/
structure JobKept (service : StratumV1JobsService) (job : MiningJob) : Prop where
  job_eq : service.jobs job.jobId = some job
  template_eq : ∃ template, service.blocks job.jobTemplateId = some template

theorem JobKept.resolves (h : JobKept service job) : JobResolves host service job where
  jobFound := h.job_eq
  templateFound := h.template_eq
  answered client params submission blockSubmissionResult fault message hparams hid hanswer := by
    obtain ⟨template, htemplate⟩ := h.template_eq
    obtain ⟨text, hverdict⟩ := jobNotFound_of_answer host hparams hanswer
    have hjob : service.getJobById submission.jobId = some job := by
      rw [hid]
      exact h.job_eq
    exact judgeSubmission_ne_jobNotFound host hjob htemplate text hverdict

/-- A job that is added while its template is there. -/
theorem kept_addJob (htemplate : ∃ template, service.blocks job.jobTemplateId = some template) :
    JobKept (service.addJob job) job where
  job_eq := if_pos rfl
  template_eq := htemplate

/-- Another job is added under a new number. -/
theorem JobKept.addJob (h : JobKept service job) (hnumbered : service.Numbered) {other : MiningJob}
    (hid : other.jobId = service.getNextId) : JobKept (service.addJob other) job where
  job_eq := by
    have hne : job.jobId ≠ other.jobId := by
      intro heq
      have hjob := h.job_eq
      rw [heq, hid] at hjob
      cases hnumbered.getJobById_getNextId.symm.trans hjob
    exact (if_neg hne).trans h.job_eq
  template_eq := h.template_eq

/-! ### Runs -/

variable {world : Sv1World} {history : List (ℕ × Sv1Event)}

/-- A job that is there, and is not too old at the time of a step, stays. -/
theorem JobKept.step (h : JobKept world.service job) (hnumbered : world.service.Numbered)
    {input : Sv1Input} (hkeeps : KeepsTemplates world input) (hclear : clearsJobs input = false)
    (hage : ∀ now ∈ timeOf input, now < job.creation + maxAge) :
    JobKept (sv1Step host config world input).1.service job := by
  rcases sv1Step_service host config world input with
    hsame | ⟨template, now, rfl, hpublish⟩ | ⟨_, _, _, _, _, _, _, _, other, -, hbuilds, hadd, -⟩
  · rwa [hsame]
  · obtain ⟨-, n, hlt, hn⟩ := hnumbered.job h.job_eq
    obtain ⟨old, hold⟩ := h.template_eq
    have hfresh : now < job.creation + maxAge := hage now rfl
    have htemplate := hkeeps hclear n hlt job (hn ▸ h.job_eq) hfresh old hold
    rw [hpublish]
    exact ⟨jobs_publish_of_fresh hclear h.job_eq hfresh.le,
      blocks_publish_of_fresh hclear hold htemplate⟩
  · rw [hadd]
    exact h.addJob hnumbered (MiningJob.fields_create host hbuilds.create_eq).1

theorem kept_final {after : List Sv1Input} (hinv : Sv1Inv host config world history)
    (hkeeps : (sv1Machine host config).Along (fun world _ input => KeepsTemplates world input) world
      history after)
    (hclear : ∀ later ∈ after, clearsJobs later = false)
    (hage : ∀ later ∈ after, ∀ now ∈ timeOf later, now < job.creation + maxAge)
    (h : JobKept world.service job) :
    JobKept ((sv1Machine host config).final world after).service job := by
  induction after generalizing world history with
  | nil => exact h
  | cons input after ih =>
    have hhead := List.mem_cons_self (a := input) (l := after)
    refine ih (hinv.step host config input) hkeeps.2
      (fun later hlater => hclear later (List.mem_cons_of_mem _ hlater))
      (fun later hlater => hage later (List.mem_cons_of_mem _ hlater)) ?_
    exact h.step host config hinv.numbered hkeeps.1 (hclear input hhead) (hage input hhead)

/-- Without the client's row no job is built. -/
theorem no_job_without_row (id k : ℕ) (sent : Bool) (now : ℕ) :
    (sv1Step host config world (.sendJob id k false sent now)).2 = [] := by
  simp only [sv1Step]
  split
  · rfl
  · simp only [sendNewMiningJob, Bool.not_false, if_true]
    split <;> rfl

/-- A job that is built while its template is there. -/
theorem kept_of_built {input : Sv1Input} {owner : ℕ} {inForce : UserIdentity}
    (hkeeps : KeepsTemplates world input)
    (hbuilt : (owner, .jobBuilt job inForce) ∈ (sv1Step host config world input).2) :
    JobKept (sv1Step host config world input).1.service job := by
  rcases sv1Step_records host config world hbuilt with
    hreply | ⟨k, inserted, sent, now, _, _, _, _, rfl, -, -⟩ |
      ⟨_, _, _, _, _, _, _, _, -, -, hrecord⟩
  · cases hreply
  · rcases sv1Step_sendJob host config world owner k inserted sent now with
      ⟨-, hnone⟩ | ⟨client, jobTemplate, authorization, other, hbuilds, hservice, hevents⟩
    · rw [hnone] at hbuilt
      cases hbuilt
    · have hinserted : inserted = true := by
        by_contra hrow
        rw [Bool.not_eq_true] at hrow
        rw [hrow, no_job_without_row] at hbuilt
        cases hbuilt
      have hsame : job = other := by
        rw [hevents, List.mem_singleton] at hbuilt
        cases hbuilt
        rfl
      obtain ⟨-, -, hid, -⟩ := MiningJob.fields_create host hbuilds.create_eq
      have htemplate := hkeeps hinserted client hbuilds.client_eq jobTemplate hbuilds.pending_eq
      rw [hservice, hsame]
      refine kept_addJob ?_
      rw [hid]
      exact Option.isSome_iff_exists.mp htemplate
  · cases hrecord

end

section
variable (host : Externals) (config : Sv1Config)

/-- Live jobs resolve, in every run whose steps keep the templates of live jobs. -/
theorem live_jobs_resolve {inputs : List Sv1Input} {now : ℕ}
    (hkeeps : (sv1Machine host config).Along (fun world _ input => KeepsTemplates world input)
      .initial [] inputs) (hclocked : Clocked inputs now) :
    ∀ job, Live host config inputs now job →
      JobResolves host ((sv1Machine host config).final .initial inputs).service job := by
  rintro job ⟨⟨before, input, after, rfl, ⟨owner, inForce, hbuilt⟩, hclear⟩, hage⟩
  obtain ⟨hbefore, hinput, hafter⟩ := ((sv1Machine host config).along_append).mp hkeeps
  have hstep (world : Sv1World) (history : List (ℕ × Sv1Event)) (input : Sv1Input)
      (hinv : Sv1Inv host config world history) (_ : KeepsTemplates world input) :
      Sv1Inv host config ((sv1Machine host config).step world input).1
        (history ++ ((sv1Machine host config).step world input).2) :=
    hinv.step host config input
  have hinv := (sv1Machine host config).history_invariant hstep (sv1Inv_initial host config) hbefore
  have hlatest : ∀ later ∈ after, ∀ t ∈ timeOf later, t < job.creation + maxAge := by
    intro later hlater t ht
    have hmem : t ∈ (before ++ input :: after).filterMap timeOf :=
      List.mem_filterMap.mpr
        ⟨later, List.mem_append_right _ (List.mem_cons_of_mem _ hlater), ht⟩
    have hle := (List.pairwise_append.mp hclocked).2.2 t hmem now (List.mem_singleton_self now)
    exact hle.trans_lt hage
  have hkept := kept_final host config (hinv.step host config input) hafter hclear hlatest
    (kept_of_built host config hinput hbuilt)
  rw [Machine.final_append, Machine.final_cons]
  exact hkept.resolves host

end

/-! ### A job on a template that is almost five minutes old -/

namespace LiveSample

open Sv1Sample

/-- A template that clears no jobs. -/
def laterTemplate : JobTemplate :=
  { template "B" with blockData := { (template "B").blockData with clearJobs := false } }

/-- A miner has a job, and changes its payout address 290 seconds after its template. -/
def before : List Sv1Input :=
  login 0 .solo "A.rig" ++
    [.template (template "B") 1700000000000, .sendJob 0 0 true true 1700000000001,
      .setPayout 0 "B" none 1700000290000]

/-- The job for the new address. -/
def input : Sv1Input := .sendJob 0 0 true true 1700000290001

/-- The next template. -/
def after (now : ℕ) : List Sv1Input := [.template laterTemplate now]

/-- The jobs that a step builds. -/
def jobsBuilt (events : List (ℕ × Sv1Event)) : List MiningJob :=
  events.filterMap fun event =>
    match event.2 with
    | .jobBuilt job _ => some job
    | _ => none

theorem mem_jobsBuilt {events : List (ℕ × Sv1Event)} {job : MiningJob}
    (h : job ∈ jobsBuilt events) : ∃ owner inForce, (owner, .jobBuilt job inForce) ∈ events := by
  obtain ⟨⟨owner, event⟩, hevent, hjob⟩ := List.mem_filterMap.mp h
  cases event with
  | jobBuilt built inForce =>
    cases hjob
    exact ⟨owner, inForce, hevent⟩
  | _ => cases hjob

/-- The jobs for the new address. -/
def newJobs : List MiningJob :=
  jobsBuilt (sv1Step host config ((sv1Machine host config).final .initial before) input).2

/-- They are live when the next template comes. -/
theorem live_of_mem {now : ℕ} {job : MiningJob} (hjob : job ∈ newJobs)
    (hage : now < job.creation + maxAge) :
    Live host config (before ++ input :: after now) now job where
  built := by
    refine ⟨before, input, after now, rfl, mem_jobsBuilt hjob, fun later hlater => ?_⟩
    rw [List.mem_singleton.mp hlater]
    rfl
  age := hage

end LiveSample

open LiveSample in
/-- The next template comes when the first one is 299 seconds old. -/
theorem live_jobs_resolve_sample :
    newJobs.length = 1 ∧ ∀ job ∈ newJobs,
      JobResolves Sv1Sample.host ((sv1Machine Sv1Sample.host Sv1Sample.config).final .initial
        (before ++ input :: after 1700000299000)).service job := by
  have hage : ∀ job ∈ newJobs, 1700000299000 < job.creation + maxAge := by decide +kernel
  refine ⟨by decide +kernel, fun job hjob => ?_⟩
  exact live_jobs_resolve Sv1Sample.host Sv1Sample.config (by decide +kernel) (by decide +kernel)
    job (live_of_mem hjob (hage job hjob))

open LiveSample in
/-- The next template comes when the first one is 301 seconds old. The job for the new address is
eleven seconds old, and its template is dropped. -/
theorem not_live_jobs_resolve :
    ¬ ∀ (host : Externals) (config : Sv1Config) (inputs : List Sv1Input) (now : ℕ),
      Clocked inputs now → ∀ job, Live host config inputs now job →
        JobResolves host ((sv1Machine host config).final .initial inputs).service job := by
  intro h
  obtain ⟨job, hjob⟩ : ∃ job, job ∈ newJobs := List.exists_mem_of_length_pos (by decide +kernel)
  have hage : ∀ job ∈ newJobs, 1700000301000 < job.creation + maxAge := by decide +kernel
  have hnone : ∀ job ∈ newJobs, ((sv1Machine Sv1Sample.host Sv1Sample.config).final .initial
      (before ++ input :: after 1700000301000)).service.blocks job.jobTemplateId = none := by
    decide +kernel
  obtain ⟨template, htemplate⟩ := (h Sv1Sample.host Sv1Sample.config _ _ (by decide +kernel) job
    (live_of_mem hjob (hage job hjob))).templateFound
  rw [StratumV1JobsService.getJobTemplateById, hnone job hjob] at htemplate
  cases htemplate

end PublicPool.Proofs
