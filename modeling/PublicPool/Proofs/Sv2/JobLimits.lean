import PublicPool.Proofs.Sv2.AnnouncedTarget
import PublicPool.Proofs.Sv2.CurrentWork
import PublicPool.Proofs.Sv2.JobFrames

/-!
# `PublicPool.Proofs.Sv2.JobLimits`: the limits of a job and the shares on it

The frames of a job give the least time and the version of its headers, and the setup tells
whether the version may be rolled. No submission is compared with either: `credits_within_iff` says
that the shares of a run keep to what their channels were sent exactly if the submissions that meet
their targets do, by the time that was sent and by the version of the template that the pool keeps.

The two versions are the same one (`VersionsTold`): a job is announced with the version of the
template it is kept under, and a template keeps its number for good. A custom job is sent no
limits; it brings its own.
-/

set_option autoImplicit false

namespace PublicPool.Proofs

open Lib (OrdMap Machine)
open Sv2
open Sv2.Context
open DifficultyUtils

/-! ### What a connection was sent -/

/-- What the frames to a connection tell, oldest first. -/
def sentTo {α : Type*} (id : ℕ) (tells : Sv2Event → Option α) (history : List Sv2Output) :
    List α :=
  history.filterMap fun
    | .client id' event => if id' = id then tells event else none
    | .published _ => none

/-- The version that a frame gives a job of a channel. -/
def versionOf (channelId jobId : ℕ) (event : Sv2Event) : Option ℤ :=
  ((announcedJob event).filter fun announced =>
    announced.1 = channelId ∧ announced.2.1 = jobId).map fun announced => announced.2.2

/-- The least time that a frame gives a job of a channel. -/
def minNtimeOf (channelId jobId : ℕ) : Sv2Event → Option ℤ
  | .newMiningJob channelId' jobId' minNtime _ _
  | .newExtendedMiningJob channelId' jobId' minNtime _ _ _ _ =>
    if channelId' = channelId ∧ jobId' = jobId then minNtime else none
  | .setNewPrevHash channelId' jobId' _ minNtime _ =>
    if channelId' = channelId ∧ jobId' = jobId then some minNtime else none
  | _ => none

/-- Whether a frame sets `REQUIRES_FIXED_VERSION`. -/
def fixedVersionOf : Sv2Event → Option Bool
  | .setupConnectionSuccess flags => some (flags.testBit 0)
  | _ => none

/-- The connection was told at its setup that the version is fixed. -/
def toldFixedVersion (id : ℕ) (history : List Sv2Output) : Bool :=
  (sentTo id fixedVersionOf history).getLast?.getD false

/-- The least times and the versions that are given for a job. -/
structure JobLimits where
  minNtimes : List ℤ
  versions : List ℤ

/-- The limits that a channel was sent for a job. A custom job was sent none: those that it
brought are its template's. -/
def sentLimits (id : ℕ) (history : List Sv2Output) (channelId jobId : ℕ)
    (workProtocol : WorkProtocol) (jobTemplate : JobTemplate) : JobLimits :=
  if workProtocol = .sv2Jdp then
    { minNtimes := [jobTemplate.block.timestamp], versions := [jobTemplate.block.version] }
  else
    { minNtimes := sentTo id (minNtimeOf channelId jobId) history
      versions := sentTo id (versionOf channelId jobId) history }

/-- A submission keeps to limits: its time is late enough, and its version differs in rolling bits
only, or in none if it is fixed. -/
def JobLimits.Meets (limits : JobLimits) (fixedVersion : Bool) (tuple : ShareTuple) : Prop :=
  (∀ minNtime ∈ limits.minNtimes, minNtime ≤ tuple.ntime) ∧
    ∀ version ∈ limits.versions, isCompatibleVersion tuple.version version = true ∧
      (fixedVersion = true → BitVec.ofInt 32 tuple.version = BitVec.ofInt 32 version)

instance (limits : JobLimits) (fixedVersion : Bool) (tuple : ShareTuple) :
    Decidable (limits.Meets fixedVersion tuple) :=
  inferInstanceAs (Decidable (_ ∧ _))

/-- The template of the job that a submission names, with the job's protocol. -/
def keptJob? (jobs : StratumV1JobsService) (channel : ChannelState) (tuple : ShareTuple) :
    Option (WorkProtocol × JobTemplate) :=
  match tuple.extranonce with
  | none =>
    (jobs.getJobById (Js.toString16 tuple.jobId)).bind fun job =>
      (jobs.getJobTemplateById job.jobTemplateId).map fun jobTemplate => (.pool, jobTemplate)
  | some _ => (channel.extendedJobs tuple.jobId).map fun job => (job.workProtocol, job.jobTemplate)

section
variable (host : Externals) (id : ℕ) (world : Sv2World) (history : List Sv2Output)
  (input : Sv2Input)

/-- A share that is accepted keeps to the limits that its channel was sent for the job. -/
def CreditsWithin : Prop :=
  ∀ share ∈ acceptedBy? host world id input,
    (sentLimits id history share.channelId share.tuple.jobId share.workProtocol
      share.jobTemplate).Meets (toldFixedVersion id history) share.tuple

/-- The condition: a new submission on a live job of its channel, with a header that meets the
target of the job, keeps to the time that the channel was sent and, where it was sent a version, to
the version of the template under which the job is kept. -/
def SubmitsWithin : Prop :=
  ∀ submitted ∈ submissionTo? world id input,
    ∀ header ∈ headerOn host world.jobs submitted.2.1 submitted.2.2,
      meetsTarget (host.hash256 header).bytes
          (difficultyToTarget (submitted.2.1.jobDifficulty submitted.2.2.jobId)) = true →
        (newSharesSum (submitted.2.1.jobDifficulty submitted.2.2.jobId)).isSome = true →
          ∀ kept ∈ keptJob? world.jobs submitted.2.1 submitted.2.2,
            let sent := sentLimits id history submitted.1 submitted.2.2.jobId kept.1 kept.2
            { sent with versions := sent.versions.map fun _ => kept.2.block.version : JobLimits
              }.Meets (toldFixedVersion id history) submitted.2.2

instance : Decidable (CreditsWithin host id world history input) :=
  inferInstanceAs (Decidable (∀ _ ∈ _, _))

instance : Decidable (SubmitsWithin host id world history input) :=
  inferInstanceAs (Decidable (∀ _ ∈ _, ∀ _ ∈ _, _))

end

/-! ### Accepted submissions -/

section
variable {host : Externals} {config : Sv2Config} {id : ℕ} {world : Sv2World}
  {history : List Sv2Output}

variable {share : AcceptedShare} {jobs : StratumV1JobsService}

variable {sum channelId : ℕ} {channel : ChannelState} {tuple : ShareTuple} {templateId : String}
  {version : ℤ}

theorem judgeHeader_eq_accepted_iff {jobDifficulty : Option ℚ} {header : Option Bytes}
    {accept : Bytes → AcceptedShare} :
    judgeHeader host jobDifficulty header accept = .accepted share sum ↔
      ∃ bytes, header = some bytes ∧
        meetsTarget (host.hash256 bytes).bytes (difficultyToTarget jobDifficulty) = true ∧
        newSharesSum jobDifficulty = some sum ∧ accept bytes = share := by
  unfold judgeHeader
  cases header with
  | none => simp
  | some bytes =>
    cases hmeets : meetsTarget (host.hash256 bytes).bytes (difficultyToTarget jobDifficulty) with
    | false => simp [hmeets]
    | true =>
      cases hsum : newSharesSum jobDifficulty with
      | none => simp [hmeets]
      | some sum' => simp [hmeets, and_comm]

/-- What is accepted is a header that meets the target of its job. The share names its channel, its
tuple, and the template and protocol of its job. -/
theorem verdictOn_eq_accepted
    (h : verdictOn host jobs channelId channel tuple = .accepted share sum) :
    headerOn host jobs channel tuple = some share.header ∧
      meetsTarget (host.hash256 share.header).bytes
        (difficultyToTarget (channel.jobDifficulty tuple.jobId)) = true ∧
      newSharesSum (channel.jobDifficulty tuple.jobId) = some sum ∧
      share.channelId = channelId ∧ share.tuple = tuple ∧
      keptJob? jobs channel tuple = some (share.workProtocol, share.jobTemplate) := by
  unfold verdictOn at h
  unfold headerOn keptJob?
  cases hextranonce : tuple.extranonce with
  | none =>
    simp only [hextranonce, judgeStandard] at h ⊢
    split at h
    · rename_i job sentMerkleRoot hjob hroot
      cases htemplate : jobs.getJobTemplateById job.jobTemplateId with
      | none =>
        simp only [htemplate] at h
        cases h
      | some jobTemplate =>
        simp only [htemplate] at h
        obtain ⟨header, hheader, hmeets, hsum, rfl⟩ := judgeHeader_eq_accepted_iff.mp h
        simp only [hjob, hroot, htemplate, hheader, Option.bind_some, Option.map_some, hmeets, hsum,
          and_self]
    · cases h
  | some extranonce =>
    simp only [hextranonce, judgeExtended] at h ⊢
    split at h
    · cases h
    · rename_i job hjob
      split at h
      · cases h
      · rename_i hretired
        split at h
        · cases h
        · rename_i hlength
          obtain ⟨header, hheader, hmeets, hsum, rfl⟩ := judgeHeader_eq_accepted_iff.mp h
          have hlive : job.retiredAt.isNone = true := by simpa using hretired
          simp only [hjob, Option.filter_some, hlive, not_not.mp hlength, decide_true, Bool.and_self,
            if_true, Option.bind_some, hheader, Option.map_some, hmeets, hsum, and_self]

/-- A header that meets the target of its job is accepted. -/
theorem exists_verdictOn_eq_accepted {header : Bytes}
    (hheader : headerOn host jobs channel tuple = some header)
    (hmeets : meetsTarget (host.hash256 header).bytes
      (difficultyToTarget (channel.jobDifficulty tuple.jobId)) = true)
    (hsum : (newSharesSum (channel.jobDifficulty tuple.jobId)).isSome = true) :
    ∃ share sum, verdictOn host jobs channelId channel tuple = .accepted share sum := by
  obtain ⟨sum, hsum⟩ := Option.isSome_iff_exists.mp hsum
  unfold headerOn at hheader
  unfold verdictOn
  cases hextranonce : tuple.extranonce with
  | none =>
    simp only [hextranonce] at hheader
    split at hheader
    · rename_i job sentMerkleRoot hjob hroot
      obtain ⟨jobTemplate, htemplate, hheader⟩ := Option.bind_eq_some_iff.mp hheader
      simp only [judgeStandard, hjob, hroot, htemplate]
      exact ⟨_, sum, judgeHeader_eq_accepted_iff.mpr ⟨header, hheader, hmeets, hsum, rfl⟩⟩
    · cases hheader
  | some extranonce =>
    simp only [hextranonce] at hheader
    obtain ⟨job, hjob, hheader⟩ := Option.bind_eq_some_iff.mp hheader
    obtain ⟨hfound, hlive⟩ := Option.filter_eq_some_iff.mp hjob
    simp only [Bool.and_eq_true, Option.isNone_iff_eq_none, decide_eq_true_eq] at hlive
    obtain ⟨hretired, hlength⟩ := hlive
    simp only [judgeExtended, hfound, hretired, Option.isSome_none, Bool.false_eq_true, if_false,
      hlength, ne_eq, not_true_eq_false]
    exact ⟨_, sum, judgeHeader_eq_accepted_iff.mpr ⟨header, hheader, hmeets, hsum, rfl⟩⟩

/-! ### Templates keep their version -/

/-- What is kept under the number of a template has its version. -/
structure VersionKept (jobs : StratumV1JobsService) (templateId : String) (version : ℤ) : Prop where
  numbered : ∃ n < jobs.latestJobTemplateId, templateId = Js.toString16 n
  version_eq : ∀ jobTemplate, jobs.getJobTemplateById templateId = some jobTemplate →
    jobTemplate.block.version = version

/-- A template's number is its own. -/
def TemplateKept (jobs : StratumV1JobsService) (jobTemplate : JobTemplate) : Prop :=
  VersionKept jobs jobTemplate.blockData.id jobTemplate.block.version

theorem VersionKept.addJob (h : VersionKept jobs templateId version) (job : MiningJob) :
    VersionKept (jobs.addJob job) templateId version := ⟨h.numbered, h.version_eq⟩

theorem VersionKept.publish (h : VersionKept jobs templateId version) (template : JobTemplate)
    (now : ℕ) : VersionKept (jobs.publish template now) templateId version := by
  obtain ⟨n, hlt, hn⟩ := h.numbered
  refine ⟨⟨n, Nat.lt_succ_of_lt hlt, hn⟩, fun jobTemplate hfound => ?_⟩
  rcases StratumV1JobsService.blocks_publish hfound with ⟨hid, -⟩ | hold
  · -- the new template has a number of its own
    rw [hn, Js.toString16_inj] at hid
    omega
  · exact h.version_eq jobTemplate hold

theorem templateKept_numberTemplate (jobs : StratumV1JobsService) (template : JobTemplate)
    (now : ℕ) :
    TemplateKept (jobs.publish template now) (jobs.numberTemplate template now) := by
  refine ⟨⟨jobs.latestJobTemplateId, Nat.lt_succ_self _, rfl⟩, fun jobTemplate hfound => ?_⟩
  have hself : (jobs.publish template now).getJobTemplateById
      (jobs.numberTemplate template now).blockData.id
      = some (jobs.numberTemplate template now) := if_pos rfl
  rw [hself] at hfound
  rw [← Option.some.inj hfound]

/-! ### What handlers send -/

/-- A template that a step takes up: the latest one, as it is or with a later time. -/
def IsLatest (jobs : StratumV1JobsService) (jobTemplate : JobTemplate) : Prop :=
  ∃ latest, jobs.latestTemplate = some latest ∧
    (jobTemplate = latest ∨ ∃ now, jobTemplate = refreshedTemplate latest now)

/-- A template that some suspended handler of a connection still sends. -/
def SendsTemplate (client : StratumV2Client) (jobTemplate : JobTemplate) : Prop :=
  ∃ task ∈ client.tasks, ∃ load ∈ task.wait.loads, load.1 = jobTemplate

theorem loads_of_share? {wait : Wait} (h : wait.share? = some share) : wait.loads = [] := by
  cases wait with
  | shareReply | submitBlock | saveBlock | finalizeSnapshot | notifyBlock => rfl
  | _ => cases h

section
variable {env : TurnEnv} {context : Context} {handled : Handled} {turn : Turn}

/-- The job of a handler that sends it is of the latest template or of one that the handler
carries. -/
theorem Sends.template {channelId : ℕ} {channel : ChannelState} {address : String}
    {jobTemplate : JobTemplate} {sendPrevHash : Bool} {after : AfterJob}
    (h : Sends context handled channelId channel address jobTemplate sendPrevHash after) :
    (∃ before, handled = .wait before ∧ ∃ load ∈ before.loads, load.1 = jobTemplate) ∨
      IsLatest context.jobs jobTemplate := by
  rcases h.source with ⟨_, -, -, -, hlatest⟩ | ⟨last, rfl, -, -⟩
  · exact Or.inr ⟨jobTemplate, hlatest, Or.inl rfl⟩
  · exact Or.inl ⟨_, rfl, (jobTemplate, sendPrevHash), by simp [Wait.loads, Wait.push?, Wait.after?,
      AfterJob.loop?], rfl⟩

variable {jobTemplate : JobTemplate} {load : JobTemplate × Bool}

/-- The loop that a handler goes on with. -/
theorem Sends.loop {channelId : ℕ} {channel : ChannelState} {address : String} {sendPrevHash : Bool}
    {after : AfterJob}
    (h : Sends context handled channelId channel address jobTemplate sendPrevHash after)
    (hload : load ∈ after.loop?) : load.1 = jobTemplate := by
  rcases h.source with ⟨_, -, rfl, -⟩ | ⟨last, -, rfl, -⟩
  · cases hload
  · cases hload
    rfl

/-- The templates that a turn goes on to send. -/
theorem loads_turn (hturn : TurnCase host config env context handled turn) {wait : Wait}
    (hnext : turn.next = .waits wait) (hload : load ∈ wait.loads) :
    (∃ before, handled = .wait before ∧ ∃ load' ∈ before.loads, load'.1 = load.1) ∨
      IsLatest context.jobs load.1 := by
  cases hturn with
  | quiet _ _ _ hquiet =>
    rcases hquiet.loads wait hnext load hload with ⟨before, hbefore, hmem⟩ | ⟨latest, now, hlatest, rfl⟩
    · exact Or.inl ⟨before, hbefore, load, hmem, rfl⟩
    · exact Or.inr ⟨latest, hlatest, Or.inr ⟨now, rfl⟩⟩
  | subscribes _ hselection hsubscription =>
    rw [afterJob_subscribes hselection hsubscription] at hnext
    cases hnext
  | @sendsStandard _ _ _ jobTemplate _ after _ _ _ hsends =>
    cases hnext
    have hloop : load ∈ after.loop? := by
      simpa [Wait.loads, Wait.push?, Wait.after?] using hload
    rw [hsends.loop hloop]
    exact hsends.template
  | @beginsExtended _ _ _ jobTemplate _ after _ _ hsends =>
    cases hnext
    have hload' : load.1 = jobTemplate ∨ load ∈ after.loop? := by
      simp only [Wait.loads, Wait.push?, Wait.after?, Option.map_some, Option.toList_some,
        Option.bind_some, List.mem_append, List.mem_singleton, Option.mem_toList] at hload
      exact hload.imp (congrArg Prod.fst) id
    rcases hload' with heq | hloop
    · rw [heq]
      exact hsends.template
    · rw [hsends.loop hloop]
      exact hsends.template
  | finishes hhandled =>
    cases hnext
    refine Or.inl ⟨_, hhandled, load, ?_, rfl⟩
    simp only [Wait.loads, Wait.push?, Wait.after?, Option.bind_some, List.mem_append,
      Option.map_none, Option.toList_none, List.nil_append] at hload ⊢
    exact Or.inr hload
  | remembers _ _ hleft =>
    rcases hleft with rfl | rfl
    · cases hnext
    · cases hnext
      cases hload
  | carries _ _ hshare =>
    cases hnext
    rw [loads_of_share? hshare] at hload
    cases hload
  | opens | installs | accepts | records =>
    cases hnext
    cases hload
  | addsJob => cases hnext

theorem tasks_onTemplate (client : StratumV2Client) (jobTemplate : JobTemplate) (now : ℕ) :
    (client.onTemplate jobTemplate now).tasks = client.tasks
      ++ [StratumV2Client.sendLoop jobTemplate jobTemplate.blockData.clearJobs .subscription] := by
  simp only [StratumV2Client.onTemplate, StratumV2Client.clearChannels]
  split
  · rfl
  · rfl

/-- A template that is handed over starts a loop that sends its jobs. -/
theorem sendsTemplate_onTemplate {client : StratumV2Client} {data : JobTemplate} {now : ℕ}
    (h : SendsTemplate (client.onTemplate data now) jobTemplate) :
    SendsTemplate client jobTemplate ∨ jobTemplate = data := by
  obtain ⟨task, htask, load, hload, rfl⟩ := h
  rw [tasks_onTemplate] at htask
  rcases List.mem_append.mp htask with hold | hnew
  · exact Or.inl ⟨task, hold, load, hload, rfl⟩
  · rw [List.mem_singleton.mp hnew] at hload
    rw [List.mem_singleton.mp hload]
    exact Or.inr rfl

/-- A turn starts no other handler, unless it hands the latest template over. -/
theorem sendsTemplate_turn (hturn : TurnCase host config env context handled turn)
    (h : SendsTemplate turn.context.client jobTemplate) :
    SendsTemplate context.client jobTemplate ∨ IsLatest context.jobs jobTemplate := by
  have hsame (htasks : turn.context.client.tasks = context.client.tasks) :
      SendsTemplate context.client jobTemplate := by
    obtain ⟨task, htask, hload⟩ := h
    exact ⟨task, htasks ▸ htask, hload⟩
  cases hturn with
  | quiet hquiet => exact Or.inl (hsame hquiet.tasks)
  | opens hopens => exact Or.inl (hsame hopens.tasks)
  | subscribes _ hselection hsubscription =>
    rw [afterJob_subscribes hselection hsubscription] at h
    cases hlatest : context.jobs.latestTemplate with
    | none =>
      rw [hlatest] at h
      exact Or.inl h
    | some latest =>
      rw [hlatest] at h
      rcases sendsTemplate_onTemplate h with hold | rfl
      · exact Or.inl hold
      · exact Or.inr ⟨jobTemplate, hlatest, Or.inl rfl⟩
  | _ => exact Or.inl (hsame rfl)

end

variable {jobs : StratumV1JobsService} {jobTemplate : JobTemplate} {input : Sv2Input}
  {client : StratumV2Client} {handled : Handled} {origin : Origin} {world' : Sv2World}
  {events : List Sv2Output} {sent new : List (ℕ × ℕ × ℤ)} {version : ℤ}

variable {jobs' : StratumV1JobsService} {taken : StratumV2Client} {jobId channelId : ℕ}
  {channel : ChannelState} {env : TurnEnv} {context : Context} {turn : Turn}

theorem IsLatest.of_latestTemplate (h : IsLatest jobs jobTemplate)
    (hsame : jobs'.latestTemplate = jobs.latestTemplate) : IsLatest jobs' jobTemplate := by
  obtain ⟨latest, hlatest, hjob⟩ := h
  exact ⟨latest, hsame.trans hlatest, hjob⟩

/-- A handler that is taken up was one of its connection. -/
theorem Takes.wait_mem (h : Takes world input id client taken handled origin) {before : Wait}
    (hbefore : handled = .wait before) :
    before = .recordShare ∨ ∃ task ∈ client.tasks, task.wait = before := by
  cases h with
  | @task _ k env _ task hclient htask =>
    refine Or.inr ⟨task, List.mem_of_getElem? htask, ?_⟩
    unfold Task.handled at hbefore
    split at hbefore
    · cases hbefore
    · exact Handled.wait.inj hbefore
  | timer =>
    cases hbefore
    exact Or.inl rfl

theorem Takes.tasks_subset (h : Takes world input id client taken handled origin) :
    taken.tasks ⊆ client.tasks := by
  cases h with
  | task => exact List.eraseIdx_subset
  | timer => exact List.Subset.refl _

theorem tasks_endTurn (origin : Origin) (turn : Turn) :
    (endTurn origin turn).1.client.tasks
      = turn.context.client.tasks ++ tasksAfter origin turn.next := by
  simp only [endTurn]
  split
  · rw [tasks_closeSocket]
  · rfl

theorem sendsTemplate_tasksAfter {next : Next} {task : Sv2.Task}
    (htask : task ∈ tasksAfter origin next) {load : JobTemplate × Bool}
    (hload : load ∈ task.wait.loads) : next = .waits task.wait := by
  cases next with
  | waits wait => rw [List.mem_singleton.mp htask]
  | returns =>
    unfold tasksAfter at htask
    simp only at htask
    split at htask
    · rw [List.mem_singleton.mp htask] at hload
      cases hload
    · cases htask
  | throws => cases htask

/-- The templates that a connection sends are those it sent before the step and the latest one. -/
theorem StepCase.sendsTemplate (h : StepCase host config world input world' events)
    {client' : StratumV2Client} (hclient' : world'.clients id = some client')
    (hsends : SendsTemplate client' jobTemplate) :
    (∃ client, world.clients id = some client ∧ SendsTemplate client jobTemplate) ∨
      IsLatest world'.jobs jobTemplate := by
  cases h with
  | idle => exact Or.inl ⟨client', hclient', hsends⟩
  | @connects id' =>
    by_cases hid : id = id'
    · subst hid
      cases (clients_update_self id _).symm.trans hclient'
      obtain ⟨task, htask, -⟩ := hsends
      cases htask
    · rw [clients_update_other hid] at hclient'
      exact Or.inl ⟨client', hclient', hsends⟩
  | @closes id' client hclient =>
    by_cases hid : id = id'
    · subst hid
      cases (clients_update_self id _).symm.trans hclient'
      obtain ⟨task, htask, hload⟩ := hsends
      rw [tasks_closeSocket] at htask
      exact Or.inl ⟨client, hclient, task, htask, hload⟩
    · rw [clients_update_other hid] at hclient'
      exact Or.inl ⟨client', hclient', hsends⟩
  | publishes =>
    obtain ⟨client, hclient, rfl⟩ := Option.map_eq_some_iff.mp hclient'
    unfold StratumV2Client.receiveTemplate at hsends
    split at hsends
    · rcases sendsTemplate_onTemplate hsends with hold | rfl
      · exact Or.inl ⟨client, hclient, hold⟩
      · exact Or.inr ⟨_, rfl, Or.inl rfl⟩
    · exact Or.inl ⟨client, hclient, hsends⟩
  | @receives id' client frames hclient =>
    by_cases hid : id = id'
    · subst hid
      cases (clients_update_self id _).symm.trans hclient'
      refine Or.inl ⟨client, hclient, ?_⟩
      obtain ⟨task, htask, load, hload, heq⟩ := hsends
      simp only [Sv2World.context, StratumV2Client.receive] at htask
      split at htask
      · exact ⟨task, htask, load, hload, heq⟩
      · rcases List.mem_append.mp htask with hold | hnew
        · exact ⟨task, hold, load, hload, heq⟩
        · rw [List.mem_singleton.mp hnew] at hload
          cases hload
    · rw [clients_update_other hid] at hclient'
      exact Or.inl ⟨client', hclient', hsends⟩
  | @turns id' client taken handled origin env turn htakes hturn =>
    by_cases hid : id = id'
    · subst hid
      cases (clients_update_self id _).symm.trans hclient'
      have hlatest : (endTurn origin turn).1.jobs.latestTemplate = world.jobs.latestTemplate := by
        rw [(quiet_endTurn origin turn).1]
        rcases hturn.jobs_cases with heq | ⟨job, -, heq⟩
        · rw [heq]
          rfl
        · rw [heq]
          rfl
      have hcurrent (h : IsLatest world.jobs jobTemplate) :
          IsLatest (endTurn origin turn).1.jobs jobTemplate := h.of_latestTemplate hlatest
      obtain ⟨task, htask, load, hload, rfl⟩ := hsends
      rw [tasks_endTurn] at htask
      rcases List.mem_append.mp htask with hother | hown
      · rcases sendsTemplate_turn hturn ⟨task, hother, load, hload, rfl⟩ with hold | hnew
        · obtain ⟨task', htask', hload'⟩ := hold
          exact Or.inl ⟨client, htakes.client_eq, task', htakes.tasks_subset htask', hload'⟩
        · exact Or.inr (hcurrent hnew)
      · rcases loads_turn hturn (sendsTemplate_tasksAfter hown hload) hload with
          ⟨before, hbefore, load', hload', heq⟩ | hnew
        · rcases htakes.wait_mem hbefore with rfl | ⟨task', htask', rfl⟩
          · cases hload'
          · exact Or.inl ⟨client, htakes.client_eq, task', htask', load', hload', heq⟩
        · exact Or.inr (hcurrent hnew)
    · rw [clients_update_other hid] at hclient'
      exact Or.inl ⟨client', hclient', hsends⟩

/-! ### The version that was sent is the one that is kept -/

/-- Whatever was announced under the id of a job has one version. -/
def AnnouncedAs (sent : List (ℕ × ℕ × ℤ)) (jobId : ℕ) (version : ℤ) : Prop :=
  ∀ announced ∈ sent, announced.2.1 = jobId → announced.2.2 = version

/-- The extended jobs of a channel that are the pool's were announced with the version of their
template. -/
def KeepsVersions (jobs : StratumV1JobsService) (sent : List (ℕ × ℕ × ℤ))
    (channel : ChannelState) : Prop :=
  ∀ jobId job, channel.extendedJobs jobId = some job → jobId < jobs.latestJobId ∧
    (job.workProtocol ≠ .sv2Jdp → AnnouncedAs sent jobId job.jobTemplate.block.version)

/-- The invariant of a connection. -/
structure VersionsTold (id : ℕ) (world : Sv2World) (sent : List (ℕ × ℕ × ℤ)) : Prop where
  latest : ∀ jobTemplate, world.jobs.latestTemplate = some jobTemplate →
    TemplateKept world.jobs jobTemplate
  sends : ∀ client, world.clients id = some client → ∀ jobTemplate,
    SendsTemplate client jobTemplate → TemplateKept world.jobs jobTemplate
  announced : ∀ announced ∈ sent, announced.2.1 < world.jobs.latestJobId ∧
    ∀ job, world.jobs.getJobById (Js.toString16 announced.2.1) = some job →
      VersionKept world.jobs job.jobTemplateId announced.2.2
  channels : ∀ client, world.clients id = some client →
    EveryChannel (KeepsVersions world.jobs sent) client
  pushes : ∀ client, world.clients id = some client → ∀ push ∈ carried Wait.push? client,
    push.jobId < world.jobs.latestJobId ∧
      AnnouncedAs sent push.jobId push.jobTemplate.block.version

theorem sentTo_append {α : Type*} (tells : Sv2Event → Option α) (history more : List Sv2Output) :
    sentTo id tells (history ++ more) = sentTo id tells history ++ sentTo id tells more :=
  List.filterMap_append

theorem sentTo_map {α : Type*} (tells : Sv2Event → Option α) (events : List Sv2Event) :
    sentTo id tells (events.map (.client id)) = events.filterMap tells := by
  rw [sentTo, List.filterMap_map]
  exact List.filterMap_congr fun event _ => if_pos rfl

theorem sentTo_eq_nil {α : Type*} (tells : Sv2Event → Option α)
    (h : ∀ event, .client id event ∉ events) : sentTo id tells events = [] := by
  rw [sentTo, List.filterMap_eq_nil_iff]
  intro output houtput
  cases output with
  | published => rfl
  | client id' event =>
    refine if_neg fun hid => h event ?_
    rwa [← hid]

theorem IsLatest.kept (h : IsLatest jobs jobTemplate)
    (hlatest : ∀ latest, jobs.latestTemplate = some latest → TemplateKept jobs latest) :
    TemplateKept jobs jobTemplate := by
  obtain ⟨latest, hsome, rfl | ⟨now, rfl⟩⟩ := h
  · exact hlatest _ hsome
  · -- a later time leaves the number and the version
    exact ⟨(hlatest latest hsome).numbered, (hlatest latest hsome).version_eq⟩

/-- A job under an old id is an old job, of a template that is kept as before. -/
structure JobsKeep (jobs jobs' : StratumV1JobsService) : Prop where
  grow : JobsGrow jobs jobs'
  templates : ∀ {templateId version}, VersionKept jobs templateId version →
    VersionKept jobs' templateId version

theorem StepCase.jobsKeep (h : StepCase host config world input world' events) :
    JobsKeep world.jobs world'.jobs := by
  refine ⟨h.jobsGrow.1, fun {templateId version} hkept => ?_⟩
  cases h with
  | idle | connects | receives => exact hkept
  | @closes id' client =>
    show VersionKept (world.context client).closeSocket.jobs templateId version
    rw [(quiet_closeSocket (world.context client)).1.jobs]
    exact hkept
  | publishes => exact hkept.publish _ _
  | @turns id' client taken handled origin env turn htakes hturn =>
    show VersionKept (endTurn origin turn).1.jobs templateId version
    rw [(quiet_endTurn origin turn).1]
    rcases hturn.jobs_cases with heq | ⟨job, -, heq⟩
    · rw [heq]
      exact hkept
    · rw [heq]
      exact hkept.addJob job

/-- The latest template is kept under its number. -/
theorem StepCase.latest_kept (h : StepCase host config world input world' events)
    (hlatest : ∀ jobTemplate, world.jobs.latestTemplate = some jobTemplate →
      TemplateKept world.jobs jobTemplate) (jobTemplate : JobTemplate)
    (hnew : world'.jobs.latestTemplate = some jobTemplate) :
    TemplateKept world'.jobs jobTemplate := by
  have hkeep := h.jobsKeep
  cases h with
  | idle | connects | receives => exact hlatest jobTemplate hnew
  | @closes id' client =>
    have hjobs : (world.update id' (world.context client).closeSocket).jobs = world.jobs :=
      (quiet_closeSocket (world.context client)).1.jobs
    rw [hjobs] at hnew
    exact hkeep.templates (hlatest jobTemplate hnew)
  | publishes =>
    cases hnew
    exact templateKept_numberTemplate _ _ _
  | @turns id' client taken handled origin env turn htakes hturn =>
    have hsame : (world.update id' (endTurn origin turn).1).jobs.latestTemplate
        = world.jobs.latestTemplate := by
      show (endTurn origin turn).1.jobs.latestTemplate = _
      rw [(quiet_endTurn origin turn).1]
      rcases hturn.jobs_cases with heq | ⟨job, -, heq⟩
      · rw [heq]
        rfl
      · rw [heq]
        rfl
    rw [hsame] at hnew
    exact hkeep.templates (hlatest jobTemplate hnew)

/-- What is announced under an old id stays as it was. -/
theorem AnnouncedAs.append {n : ℕ} (h : AnnouncedAs sent jobId version) (hlt : jobId < n)
    (hnew : ∀ announced ∈ new, announced.2.1 = n) : AnnouncedAs (sent ++ new) jobId version := by
  intro announced hmem heq
  rcases List.mem_append.mp hmem with hold | hfresh
  · exact h announced hold heq
  · have hid := hnew announced hfresh
    omega

theorem KeepsVersions.forgets {channel' : ChannelState} (h : KeepsVersions jobs sent channel)
    (hforgets : Forgets channel channel') (hgrow : JobsGrow jobs jobs')
    (hnew : ∀ announced ∈ new, announced.2.1 = jobs.latestJobId) :
    KeepsVersions jobs' (sent ++ new) channel' := by
  intro jobId job' hjob'
  obtain ⟨job, retiredAt, hjob, rfl, -⟩ := hforgets.extendedJobs jobId job' hjob'
  obtain ⟨hlt, hversion⟩ := h jobId job hjob
  exact ⟨hlt.trans_le hgrow.counter, fun hpool => (hversion hpool).append hlt hnew⟩

/-- A turn keeps the versions of the extended jobs. -/
theorem keepsVersions_turn (hturn : TurnCase host config env context handled turn)
    (h : EveryChannel (KeepsVersions context.jobs sent) context.client)
    (hpush : ∀ push ∈ Handled.carried? Wait.push? handled, push.jobId < context.jobs.latestJobId ∧
      AnnouncedAs sent push.jobId push.jobTemplate.block.version)
    (hnew : ∀ announced ∈ new, announced.2.1 = context.jobs.latestJobId) :
    EveryChannel (KeepsVersions turn.context.jobs (sent ++ new)) turn.context.client := by
  have hgrow := hturn.jobsGrow.1
  refine channels_turn hturn h (fun _ _ hP hforgets => hP.forgets hforgets hgrow hnew) ?_ ?_
  · intro channel hisNew jobId job hjob
    rw [hisNew.extendedJobs] at hjob
    cases hjob
  · intro channel channel' hP _ hgives
    have hP' := hP.forgets (.refl channel) hgrow hnew
    generalize turn.context.jobs = jobs' at hgives hP' hgrow ⊢
    cases hgives with
    | standard => exact hP'
    | @extended channelId push _ _ hhandled =>
      subst hhandled
      obtain ⟨hlt, hversion⟩ := hpush push rfl
      intro jobId job hjob
      simp only [finishPush, ChannelState.setExtendedJob] at hjob
      split at hjob
      · -- the job that has been sent
        rename_i hid
        cases hjob
        rw [hid]
        exact ⟨hlt, fun _ => hversion.append hlt hnew⟩
      · exact hP' jobId job hjob
    | @custom message jobTemplate _ _ job _ =>
      intro jobId data hdata
      simp only [ChannelState.setExtendedJob] at hdata
      split at hdata
      · rename_i hid
        cases hdata
        rw [hid, nextJobId_eq]
        exact ⟨Nat.lt_succ_self _, fun hpool => absurd rfl hpool⟩
      · exact hP' jobId data hdata

/-- A job that a turn goes on to send is the one that it has announced. -/
theorem announcedAs_next (hturn : TurnCase host config env context handled turn)
    (hannounces : Announces context turn)
    (hsent : ∀ announced ∈ sent, announced.2.1 < context.jobs.latestJobId) {push : ExtendedPush}
    (hpush : push ∈ Next.carried? Wait.push? turn.next) :
    push.jobId < turn.context.jobs.latestJobId ∧
      AnnouncedAs (sent ++ turn.events.filterMap announcedJob) push.jobId
        push.jobTemplate.block.version := by
  have hid : push.jobId = context.jobs.latestJobId ∧
      turn.context.jobs.latestJobId = context.jobs.latestJobId + 1 := by
    cases hturn with
    | quiet _ _ _ hquiet =>
      rw [carried?_eq_none hquiet.push] at hpush
      cases hpush
    | subscribes _ hselection hsubscription =>
      rw [afterJob_subscribes hselection hsubscription] at hpush
      cases hpush
    | beginsExtended =>
      cases hpush
      exact ⟨nextJobId_eq context, rfl⟩
    | remembers _ _ hleft =>
      rcases hleft with rfl | rfl
      · cases hpush
      · cases hpush
    | carries _ _ hshare =>
      have hnone : Wait.push? _ = none := push?_of_share? hshare
      simp only [Next.carried?, hnone] at hpush
      cases hpush
    | _ => cases hpush
  rw [hid.1, hid.2]
  refine ⟨Nat.lt_succ_self _, fun announced hmem heq => ?_⟩
  rcases List.mem_append.mp hmem with hold | hnew
  · have hlt := hsent announced hold
    omega
  · obtain ⟨event, hevent, hannounced⟩ := List.mem_filterMap.mp hnew
    obtain ⟨wait, hnext, hwrites⟩ := hannounces.writes event hevent announced hannounced
    rw [hnext] at hpush
    cases wait with
    | extendedJobFrame =>
      cases hpush
      rw [← Option.some.inj hwrites]
    | _ => cases hpush

/-- Every step keeps the invariant of a connection. -/
theorem VersionsTold.step (h : VersionsTold id world (sentTo id announcedJob history))
    (input : Sv2Input) :
    VersionsTold id (sv2Step host config world input).1
      (sentTo id announcedJob (history ++ (sv2Step host config world input).2)) := by
  have hcase := sv2Step_cases host config world input
  have hclient := sv2Step_client host config world input id
  generalize sv2Step host config world input = step at hcase hclient ⊢
  obtain ⟨world', events⟩ := step
  have hkeep := hcase.jobsKeep
  have hlatest := hcase.latest_kept h.latest
  have hsends : ∀ client', world'.clients id = some client' → ∀ jobTemplate,
      SendsTemplate client' jobTemplate → TemplateKept world'.jobs jobTemplate := by
    intro client' hclient' jobTemplate hsent
    rcases hcase.sendsTemplate hclient' hsent with ⟨client, hbefore, hold⟩ | hnew
    · exact hkeep.templates (h.sends client hbefore jobTemplate hold)
    · exact hnew.kept hlatest
  have hannounced : ∀ announced ∈ sentTo id announcedJob history,
      announced.2.1 < world'.jobs.latestJobId ∧
        ∀ job, world'.jobs.getJobById (Js.toString16 announced.2.1) = some job →
          VersionKept world'.jobs job.jobTemplateId announced.2.2 := by
    intro announced hmem
    obtain ⟨hlt, hversion⟩ := h.announced announced hmem
    exact ⟨hlt.trans_le hkeep.grow.counter, fun job hjob =>
      hkeep.templates (hversion job (hkeep.grow.before _ hlt job hjob))⟩
  rw [sentTo_append]
  cases hclient with
  | absent hbefore hafter hevents =>
    rw [sentTo_eq_nil _ hevents, List.append_nil]
    have habsent (client : StratumV2Client) : world'.clients id ≠ some client := by
      rw [show world'.clients id = none from hafter]
      exact (Option.some_ne_none client).symm
    exact ⟨hlatest, hsends, hannounced, fun client hclient => absurd hclient (habsent client),
      fun client hclient => absurd hclient (habsent client)⟩
  | connects hbefore hafter hevents =>
    rw [sentTo_eq_nil _ hevents, List.append_nil]
    refine ⟨hlatest, hsends, hannounced, ?_, ?_⟩
    · intro client hclient channelId channel hchannel
      cases hafter.symm.trans hclient
      cases hchannel
    · intro client hclient push hpush
      cases hafter.symm.trans hclient
      cases hpush
  | @moves client client' hbefore hafter hmoved hevents =>
    have hmoves := hmoved.moves
    rw [sentTo_eq_nil _ hevents]
    have hnone : ∀ announced ∈ ([] : List (ℕ × ℕ × ℤ)), announced.2.1 = world.jobs.latestJobId :=
      List.forall_mem_nil _
    refine ⟨hlatest, hsends, by rwa [List.append_nil], ?_, ?_⟩
    · intro client'' hclient
      cases hafter.symm.trans hclient
      exact (h.channels client hbefore).via hmoves.forgets
        fun _ _ hP hforgets => hP.forgets hforgets hkeep.grow hnone
    · intro client'' hclient push hpush
      cases hafter.symm.trans hclient
      rw [hmoves.carries _ _ rfl fun _ => rfl] at hpush
      obtain ⟨hlt, hversion⟩ := h.pushes client hbefore push hpush
      rw [List.append_nil]
      exact ⟨hlt.trans_le hkeep.grow.counter, hversion⟩
  | @turns client taken handled origin env turn htakes hruns hturn hgoes hworld hevents =>
    subst hworld hevents
    have hjobs : (endTurn origin turn).1.jobs = turn.context.jobs := (quiet_endTurn origin turn).1
    have hcarried (push : ExtendedPush)
        (hpush : push ∈ Handled.carried? Wait.push? handled ∨ push ∈ carried Wait.push? taken) :=
      h.pushes client htakes.client_eq push (htakes.mem_carried rfl rfl hpush)
    have hchannels : EveryChannel
        (KeepsVersions world.jobs (sentTo id announcedJob history)) taken := by
      rw [htakes.taken_eq]
      exact h.channels client htakes.client_eq
    -- what is announced is the next job
    have hnew : ∀ announced ∈ turn.events.filterMap announcedJob,
        announced.2.1 = world.jobs.latestJobId := by
      intro announced hmem
      obtain ⟨event, hevent, hsome⟩ := List.mem_filterMap.mp hmem
      obtain ⟨hsent, hjob, rfl, hadded⟩ := hturn.announcesJob hruns.announces hevent hsome
      exact nextJobId_eq _
    rw [sentTo_map]
    refine ⟨hlatest, hsends, ?_, ?_, ?_⟩
    · intro announced hmem
      rcases List.mem_append.mp hmem with hold | hmem
      · exact hannounced announced hold
      · obtain ⟨event, hevent, hsome⟩ := List.mem_filterMap.mp hmem
        obtain ⟨hsent, hjob, rfl, hadded⟩ := hturn.announcesJob hruns.announces hevent hsome
        obtain ⟨hid, -, htemplateId, -⟩ := MiningJob.fields_create host hjob
        have hadded' : (world.update id (endTurn origin turn).1).jobs = _ := hjobs.trans hadded
        rw [nextJobId_eq]
        refine ⟨?_, fun job' hjob' => ?_⟩
        · rw [hadded']
          exact Nat.lt_succ_self _
        · rw [hadded'] at hjob'
          rcases StratumV1JobsService.jobs_addJob hjob' with ⟨-, rfl⟩ | ⟨hne, -⟩
          · -- its template is the latest one, or one that the handler has carried
            rw [htemplateId]
            refine hkeep.templates ?_
            rcases hsent.template with ⟨before, hbefore, load, hload, rfl⟩ | hcurrent
            · rcases htakes.wait_mem hbefore with rfl | ⟨task, htask, rfl⟩
              · cases hload
              · exact h.sends client htakes.client_eq _ ⟨task, htask, load, hload, rfl⟩
            · exact hcurrent.kept h.latest
          · exact absurd hid.symm hne
    · intro client' hclient'
      cases (clients_update_self id _).symm.trans hclient'
      have hturned := keepsVersions_turn hturn hchannels
        (fun push hpush => hcarried push (Or.inl hpush)) hnew
      rw [← hjobs] at hturned
      refine hturned.via (quiet_endTurn origin turn).2.2.forgets fun channel channel' hP hforgets => ?_
      have hforgotten := hP.forgets hforgets (JobsGrow.refl _) (List.forall_mem_nil _)
      rwa [List.append_nil] at hforgotten
    · intro client' hclient' push hpush
      cases (clients_update_self id _).symm.trans hclient'
      show push.jobId < (endTurn origin turn).1.jobs.latestJobId ∧ _
      rw [hjobs]
      rcases mem_carried_endTurn hturn origin rfl (fun _ => rfl) hpush with hold | hnext
      · obtain ⟨hlt, hversion⟩ := hcarried push (Or.inr hold)
        exact ⟨hlt.trans_le hturn.jobsGrow.1.counter, hversion.append hlt hnew⟩
      · exact announcedAs_next hturn hruns.announces (fun announced hmem =>
          (h.announced announced hmem).1) hnext

/-! ### Credited shares -/

theorem mem_versionOf (h : version ∈ sentTo id (versionOf channelId jobId) history) :
    (channelId, jobId, version) ∈ sentTo id announcedJob history := by
  obtain ⟨output, houtput, htells⟩ := List.mem_filterMap.mp h
  refine List.mem_filterMap.mpr ⟨output, houtput, ?_⟩
  cases output with
  | published => cases htells
  | client id' event =>
    by_cases hid : id' = id
    · simp only [hid, if_true, versionOf, Option.map_eq_some_iff, Option.filter_eq_some_iff,
        decide_eq_true_eq] at htells ⊢
      obtain ⟨announced, ⟨hannounced, rfl, rfl⟩, rfl⟩ := htells
      exact hannounced
    · simp only [hid, if_false] at htells
      cases htells

/-- The version that a channel was sent for a job is the one of the template it is kept under. -/
theorem VersionsTold.version_eq (h : VersionsTold id world (sentTo id announcedJob history))
    (hclient : world.clients id = some client)
    (hchannel : client.channels.get? channelId = some channel) {tuple : ShareTuple}
    {kept : WorkProtocol × JobTemplate} (hkept : keptJob? world.jobs channel tuple = some kept)
    (hversion : version ∈ (sentLimits id history channelId tuple.jobId kept.1 kept.2).versions) :
    version = kept.2.block.version := by
  by_cases hcustom : kept.1 = .sv2Jdp
  · rw [sentLimits, if_pos hcustom] at hversion
    exact List.mem_singleton.mp hversion
  rw [sentLimits, if_neg hcustom] at hversion
  have hannounced := mem_versionOf hversion
  unfold keptJob? at hkept
  split at hkept
  · obtain ⟨job, hjob, hkept⟩ := Option.bind_eq_some_iff.mp hkept
    obtain ⟨jobTemplate, htemplate, rfl⟩ := Option.map_eq_some_iff.mp hkept
    exact (((h.announced _ hannounced).2 job hjob).version_eq jobTemplate htemplate).symm
  · obtain ⟨job, hjob, rfl⟩ := Option.map_eq_some_iff.mp hkept
    exact (h.channels client hclient channelId channel hchannel _ job hjob).2 hcustom _
      hannounced rfl

/-- A new submission is on a channel of its connection. -/
theorem found_of_submissionTo? {submitted : ℕ × ChannelState × ShareTuple}
    (h : submitted ∈ submissionTo? world id input) :
    ∃ client, world.clients id = some client ∧
      client.channels.get? submitted.1 = some submitted.2.1 := by
  obtain ⟨taken, htaken, hfresh⟩ := Option.bind_eq_some_iff.mp h
  cases input with
  | resume id' k env =>
    simp only [handledBy?] at htaken
    split at htaken
    · obtain ⟨client, hclient, htask⟩ := Option.bind_eq_some_iff.mp htaken
      obtain ⟨task, -, rfl⟩ := Option.map_eq_some_iff.mp htask
      refine ⟨client, hclient, ?_⟩
      simp only [freshSubmission?] at hfresh
      split at hfresh
      · exact submitted?_found (Option.filter_eq_some_iff.mp hfresh).1
      · cases hfresh
    · cases htaken
  | _ => cases htaken

/-- In a state that keeps the invariant, what is accepted keeps to the limits exactly if what is
submitted does. -/
theorem VersionsTold.credits_iff (h : VersionsTold id world (sentTo id announcedJob history))
    (input : Sv2Input) :
    CreditsWithin host id world history input ↔ SubmitsWithin host id world history input := by
  -- the two conditions on the version agree on what was sent
  have hsame {submitted : ℕ × ChannelState × ShareTuple}
      (hsubmitted : submitted ∈ submissionTo? world id input) {kept : WorkProtocol × JobTemplate}
      (hkept : keptJob? world.jobs submitted.2.1 submitted.2.2 = some kept) :
      (sentLimits id history submitted.1 submitted.2.2.jobId kept.1 kept.2).versions.map
          (fun _ => kept.2.block.version)
        = (sentLimits id history submitted.1 submitted.2.2.jobId kept.1 kept.2).versions := by
    obtain ⟨client, hclient, hchannel⟩ := found_of_submissionTo? hsubmitted
    refine (List.map_congr_left fun version hversion => ?_).trans (List.map_id _)
    exact (h.version_eq hclient hchannel hkept hversion).symm
  constructor
  · intro hcredits submitted hsubmitted header hheader hmeets hsum kept hkept
    have hexists : ∃ share sum,
        verdictOn host world.jobs submitted.1 submitted.2.1 submitted.2.2 = .accepted share sum :=
      exists_verdictOn_eq_accepted hheader hmeets hsum
    obtain ⟨share, sum, hverdict⟩ := hexists
    obtain ⟨-, -, -, hchannelId, htuple, hjob⟩ := verdictOn_eq_accepted hverdict
    have haccepted : acceptedBy? host world id input = some share := by
      rw [acceptedBy?, Option.mem_def.mp hsubmitted, Option.bind_some, hverdict]
    have hmeets := hcredits share haccepted
    cases (Option.mem_def.mp hkept).symm.trans hjob
    rw [hchannelId, htuple] at hmeets
    simp only [hsame hsubmitted hjob]
    exact hmeets
  · intro hsubmits share haccepted
    obtain ⟨submitted, hsubmitted, hverdict⟩ := Option.bind_eq_some_iff.mp haccepted
    split at hverdict
    · rename_i share' sum hverdict'
      cases hverdict
      obtain ⟨hheader, hmeets, hsum, hchannelId, htuple, hkept⟩ := verdictOn_eq_accepted hverdict'
      have hwithin := hsubmits submitted hsubmitted share.header hheader hmeets
        (by rw [hsum]; rfl) _ hkept
      simp only [hsame hsubmitted hkept] at hwithin
      rw [hchannelId, htuple]
      exact hwithin
    · cases hverdict

theorem versionsTold_initial : VersionsTold id .initial (sentTo id announcedJob []) where
  latest _ hlatest := absurd hlatest.symm (Option.some_ne_none _)
  sends _ hclient := absurd hclient.symm (Option.some_ne_none _)
  announced _ hmem := absurd hmem List.not_mem_nil
  channels _ hclient := absurd hclient.symm (Option.some_ne_none _)
  pushes _ hclient := absurd hclient.symm (Option.some_ne_none _)

end

/-- In every run, the shares that are accepted on a connection keep to the limits that its channels
were sent if and only if the submissions that meet their targets do. -/
theorem credits_within_iff (host : Externals) (config : Sv2Config) (id : ℕ)
    (inputs : List Sv2Input) :
    (sv2Machine host config).Along (CreditsWithin host id) .initial [] inputs ↔
      (sv2Machine host config).Along (SubmitsWithin host id) .initial [] inputs := by
  have hstep {P Q : Sv2World → List Sv2Output → Sv2Input → Prop}
      (hPQ : ∀ world history input, VersionsTold id world (sentTo id announcedJob history) →
        P world history input → Q world history input)
      (hP : (sv2Machine host config).Along P .initial [] inputs) :
      (sv2Machine host config).Along Q .initial [] inputs :=
    Machine.along_of_invariant _
      (fun world history input hinv hinput =>
        ⟨hPQ world history input hinv hinput, hinv.step input⟩) versionsTold_initial hP
  constructor
  · exact hstep fun _ _ input hinv => (hinv.credits_iff input).mp
  · exact hstep fun _ _ input hinv => (hinv.credits_iff input).mpr

namespace Sv2Sample

/-- Connection 0 is told that the version is fixed, opens a channel and has its jobs, whose least
time is 1700000000. -/
def told (opens : Sv2Message) : List Sv2Input :=
  [.connect 0 "s" .solo, .template (template 7 true) 1700000000000,
      .data 0 [.setupConnection { protocol := 0, minVersion := 2, maxVersion := 2, flags := 0 }]]
    ++ turns 2 ++ [.data 0 [opens]] ++ turns 20

/-- A share of the year 1970, one with a bit that is not to be rolled, and one with a rolled
bit. -/
def beyond : List Sv2Message :=
  [.submitSharesStandard { submission 2 5 with ntime := 0 },
    .submitSharesStandard { submission 2 5 with version := 0x20000001 },
    .submitSharesStandard { submission 2 5 with version := 0x20002000 }]

/-- An extended share of the year 1970. -/
def beyondExtended : Sv2Message :=
  .submitSharesExtended
    { channelId := 1, sequenceNumber := 0, jobId := 2, nonce := 5, ntime := 0,
      version := 0x20000000, extranonce := List.replicate 10 0 }

end Sv2Sample

open Sv2Sample in
/-- Shares beyond each of the limits are accepted, on both kinds of channel. -/
theorem not_credits_within :
    (∀ message ∈ beyond, ¬ (sv2Machine host config).Along (CreditsWithin host 0) .initial []
        (told openStandard ++ [.data 0 [message]] ++ turns 1)) ∧
      ¬ (sv2Machine host config).Along (CreditsWithin host 0) .initial []
        (told openExtended ++ [.data 0 [beyondExtended]] ++ turns 1) := by
  decide +kernel

open Sv2Sample in
/-- A share within the limits is accepted. -/
example :
    (sv2Machine host config).Along (SubmitsWithin host 0) .initial []
        (told openStandard ++ [.data 0 [.submitSharesStandard (submission 2 5)]] ++ turns 1) ∧
      (acceptedBy? host ((sv2Machine host config).final .initial
        (told openStandard ++ [.data 0 [.submitSharesStandard (submission 2 5)]])) 0
          (.resume 0 0 env)).isSome = true := by
  decide +kernel

end PublicPool.Proofs
