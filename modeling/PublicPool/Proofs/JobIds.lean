import PublicPool.Pool
import PublicPool.Proofs.Sv1.Steps
import PublicPool.Proofs.Sv2.JobFrames

/-!
# `PublicPool.Proofs.JobIds`: no job id is given out twice

A job takes the number of `getNextId`, and `addJob` counts on. These are two calls, made at five
places of the handlers, and `job_ids_never_reused` says that no interleaving of the handlers comes
between them. In every run of the pool, whichever connections of the two protocols take part:

- every step leaves the jobs as they are, publishes a template, or adds one job under an id that
  nothing is kept under (`JobsStep`);
- the ids of all jobs ever added are pairwise distinct;
- a channel that has an entry for a job has it under the id of a job that was created for the
  channel, and the id is at most the number of jobs created. So the field of a frame carries every
  id as it is, as long as fewer than 2 ^ 32 jobs are created.

`TurnCase.jobs_for` says which turn of a Stratum V2 handler adds a job and for which channel;
`keyed_turn` follows the entries of the channels, with the extended jobs whose first frame is being
written. A handler that returns early, or whose constructor throws, leaves the id to the next job.
-/

set_option autoImplicit false

namespace PublicPool.Proofs

open Lib (OrdMap Machine)
open Sv1 (Sv1Config Sv1Event AwaitWorld AwaitInput Sv1Input awaitStep)
open Sv2
open Sv2.Context

/-! ### What a step adds -/

/-- The job that an event says was added, and its owner. -/
def PoolEvent.added? : PoolEvent → Option (JobOwner × MiningJob)
  | .jobAdded owner job => some (owner, job)
  | _ => none

/-- All jobs that were ever added, oldest first. -/
def addedJobs (history : List PoolEvent) : List (JobOwner × MiningJob) :=
  history.filterMap PoolEvent.added?

/-- What a step does to the jobs service, with the job that it adds. -/
inductive JobsStep (jobs : StratumV1JobsService) :
    List (JobOwner × MiningJob) → StratumV1JobsService → Prop
  | same : JobsStep jobs [] jobs
  | publishes (template : JobTemplate) (now : ℕ) : JobsStep jobs [] (jobs.publish template now)
  | adds (owner : JobOwner) (job : MiningJob) (hid : job.jobId = jobs.getNextId)
      (hfree : jobs.getJobById job.jobId = none) :
      JobsStep jobs [(owner, job)] (jobs.addJob job)

theorem addedJobs_append (history more : List PoolEvent) :
    addedJobs (history ++ more) = addedJobs history ++ addedJobs more :=
  List.filterMap_append

/-- The handlers of a connection do not say what was added. -/
theorem addedJobs_map {α : Type*} {f : α → PoolEvent} (hf : ∀ a, PoolEvent.added? (f a) = none)
    (events : List α) : addedJobs (events.map f) = [] := by
  rw [addedJobs, List.filterMap_map, List.filterMap_eq_nil_iff]
  exact fun a _ => hf a

section
variable {pool : Pool}

theorem jobEvents_same (owner : Option JobOwner) : pool.jobEvents owner pool.jobs = [] := by
  unfold Pool.jobEvents Pool.addedJob?
  rw [if_pos rfl]
  cases owner <;> rfl

theorem jobEvents_addJob {owner : Option JobOwner} {owner' : JobOwner}
    (howner : owner = some owner') {job : MiningJob} (hid : job.jobId = pool.jobs.getNextId) :
    pool.jobEvents owner (pool.jobs.addJob job) = [.jobAdded owner' job] := by
  have hcounts : (pool.jobs.addJob job).latestJobId ≠ pool.jobs.latestJobId :=
    Nat.succ_ne_self _
  have hfound : (pool.jobs.addJob job).getJobById pool.jobs.getNextId = some job := if_pos hid.symm
  simp only [Pool.jobEvents, Pool.addedJob?, howner, if_neg hcounts, hfound]

end

/-! ### The Stratum V1 connections -/

/-- A job that a step builds of a template that waits at a connection. -/
def AwaitBuilds (host : Externals) (config : Sv1Config) (world : AwaitWorld) (input : AwaitInput)
    (id : ℕ) (job : MiningJob) : Prop :=
  ∃ k inserted sent now client jobTemplate authorization,
    input = .begin (.sendJob id k inserted sent now) ∧
      BuildsJob host config world.pool id k client jobTemplate authorization now job

/-- The owner of a job is the connection whose template it was. -/
theorem AwaitBuilds.jobOwner?_eq {host : Externals} {config : Sv1Config} {world : AwaitWorld}
    {input : AwaitInput} {id : ℕ} {job : MiningJob}
    (h : AwaitBuilds host config world input id job) :
    input.jobOwner? = some (.sv1 id) ∧ job.jobId = world.pool.service.getNextId := by
  obtain ⟨_, _, _, _, _, _, _, rfl, hbuilds⟩ := h
  exact ⟨rfl, (MiningJob.fields_create host hbuilds.create_eq).1⟩

/-- A step that is no template leaves the jobs alone or adds the job of its connection. -/
theorem awaitStep_jobs (host : Externals) (config : Sv1Config) (world : AwaitWorld)
    {input : AwaitInput} (hinput : ∀ template now, input ≠ .begin (.template template now)) :
    (awaitStep host config world input).1.pool.service = world.pool.service ∨
      ∃ id job, AwaitBuilds host config world input id job ∧
        (awaitStep host config world input).1.pool.service = world.pool.service.addJob job := by
  cases input with
  | resume id k succeeded answer =>
    left
    simp only [awaitStep, AwaitWorld.resume]
    split <;> rfl
  | begin input =>
    rcases sv1Step_service host config world.pool input with
      hsame | ⟨template, now, rfl, -⟩ |
        ⟨id, k, inserted, sent, now, client, jobTemplate, authorization, job, rfl, hbuilds, hadd,
          -⟩
    · left
      cases input with
      | submit =>
        simp only [awaitStep, AwaitWorld.beginSubmit]
        split
        · split
          · rfl
          · split <;> rfl
        · rfl
      | suggestDifficulty =>
        simp only [awaitStep, AwaitWorld.beginSuggestDifficulty]
        split
        · split <;> rfl
        · rfl
      | _ => exact hsame
    · exact absurd rfl (hinput template now)
    · exact Or.inr ⟨id, job, ⟨k, inserted, sent, now, client, jobTemplate, authorization, rfl,
        hbuilds⟩, hadd⟩

/-! ### The Stratum V2 connections -/

section
variable {host : Externals} {config : Sv2Config} {env : TurnEnv} {context : Context}
  {handled : Handled} {turn : Turn}

/-- The channel that a job is sent to is the one that the handler is at. -/
theorem Sends.jobChannel?_eq {channelId : ℕ} {channel : ChannelState} {address : String}
    {jobTemplate : JobTemplate} {sendPrevHash : Bool} {after : AfterJob}
    (h : Sends context handled channelId channel address jobTemplate sendPrevHash after) :
    context.client.jobChannel? handled = some channelId := by
  rcases h.source with ⟨isFirstChannel, rfl, -⟩ | ⟨last, rfl, -⟩
  · rfl
  · rw [StratumV2Client.jobChannel?, h.next last rfl]
    rfl

variable (host config env context handled) in
/-- A job that a turn builds for the channel that its handler is at, of the template that it sends
there or of the latest one. -/
structure TurnBuilds (channelId : ℕ) (job : MiningJob) : Prop where
  channel : context.client.jobChannel? handled = some channelId
  create : ∃ address jobTemplate, CreatesJob host config context address jobTemplate env.now job ∧
    (context.jobs.latestTemplate = some jobTemplate ∨ ∃ channel sendPrevHash after,
      Sends context handled channelId channel address jobTemplate sendPrevHash after)

theorem TurnBuilds.id_eq {channelId : ℕ} {job : MiningJob}
    (h : TurnBuilds host config env context handled channelId job) :
    job.jobId = context.jobs.getNextId := by
  obtain ⟨_, _, hjob, -⟩ := h.create
  exact (MiningJob.fields_create host hjob).1

/-- A turn adds at most one job, for the channel that its handler is at. -/
theorem TurnCase.jobs_for (h : TurnCase host config env context handled turn) :
    turn.context.jobs = context.jobs ∨
      ∃ channelId job, TurnBuilds host config env context handled channelId job ∧
        turn.context.jobs = context.jobs.addJob job := by
  cases h with
  | quiet hquiet => exact Or.inl hquiet.jobs
  | opens hopens => exact Or.inl hopens.jobs
  | subscribes _ hselection hsubscription =>
    rw [afterJob_subscribes hselection hsubscription]
    exact Or.inl rfl
  | addsJob hsends hjob | sendsStandard hsends _ hjob | beginsExtended hsends _ hjob =>
    exact Or.inr ⟨_, _, ⟨hsends.jobChannel?_eq, _, _, hjob, Or.inr ⟨_, _, _, hsends⟩⟩, rfl⟩
  | @installs message _ _ _ _ _ _ hhandled hlatest _ _ _ hjob =>
    refine Or.inr ⟨message.channelId.toNat, _, ⟨?_, _, _, hjob, Or.inl hlatest⟩, rfl⟩
    rw [hhandled]
    rfl
  | finishes | remembers | accepts | carries | records => exact Or.inl rfl

/-! #### The maps of a channel -/

/-- A channel has an entry for a job in one of its maps. -/
def ListsJob (channel : ChannelState) (jobId : ℕ) : Prop :=
  channel.jobIdToDifficulty jobId ≠ none ∨ channel.jobIdToMerkleRoot jobId ≠ none ∨
    channel.extendedJobs jobId ≠ none

variable {channel channel' : ChannelState} {jobId id : ℕ} {wait : Wait}

theorem IsNew.not_listsJob (h : IsNew channel) (jobId : ℕ) : ¬ListsJob channel jobId := by
  rintro (hdifficulty | hroot | hjob)
  · exact hdifficulty (h.difficulties jobId)
  · exact hroot (h.merkleRoots jobId)
  · exact hjob (h.extendedJobs jobId)

theorem Keeps.listsJob (h : Keeps channel channel') (hlists : ListsJob channel' jobId) :
    ListsJob channel jobId := by
  obtain ⟨_, _, _, -, rfl⟩ := h
  exact hlists

/-- A template that clears jobs only removes entries. -/
theorem listsJob_of_clearJobs {now : ℕ} (h : ListsJob (channel.clearJobs now) jobId) :
    ListsJob channel jobId := by
  unfold ChannelState.clearJobs at h
  split at h
  · rcases h with hdifficulty | hroot | hjob
    · simp only at hdifficulty
      split at hdifficulty
      · exact absurd rfl hdifficulty
      · exact Or.inl hdifficulty
    · exact Or.inr (Or.inl hroot)
    · refine Or.inr (Or.inr fun hnone => hjob ?_)
      simp only [hnone, Option.map_none, Option.filter_none]
  · rcases h with hdifficulty | hroot | hjob
    · exact absurd rfl hdifficulty
    · exact absurd rfl hroot
    · exact Or.inr (Or.inr hjob)

theorem Cleared.listsJob (h : Cleared channel channel') (hlists : ListsJob channel' jobId) :
    ListsJob channel jobId := by
  rcases h with hkeeps | ⟨now, rfl⟩
  · exact hkeeps.listsJob hlists
  · exact listsJob_of_clearJobs hlists

theorem listsJob_of_setStandardJob {merkleRoot : Digest}
    (h : ListsJob (channel.setStandardJob jobId merkleRoot) id) :
    id = jobId ∨ ListsJob channel id := by
  by_cases hid : id = jobId
  · exact Or.inl hid
  · right
    simpa only [ListsJob, ChannelState.setStandardJob, if_neg hid] using h

theorem listsJob_of_setExtendedJob {data : ExtendedJobData}
    (h : ListsJob (channel.setExtendedJob jobId data) id) : id = jobId ∨ ListsJob channel id := by
  by_cases hid : id = jobId
  · exact Or.inl hid
  · right
    simpa only [ListsJob, ChannelState.setExtendedJob, if_neg hid] using h

/-! #### The entries of a connection -/

/-- The channel and the id of the extended job that a handler still has to enter. -/
def Wait.pushTo? : Wait → Option (ℕ × ℕ)
  | .extendedJobFrame channelId push _ => some (channelId, push.jobId)
  | _ => none

theorem Wait.pushTo?_of_push? (h : wait.push? = none) : Wait.pushTo? wait = none := by
  cases wait with
  | extendedJobFrame => cases h
  | _ => rfl

theorem Wait.pushTo?_of_share? {share : AcceptedShare} (h : wait.share? = some share) :
    Wait.pushTo? wait = none := by
  cases wait with
  | extendedJobFrame => cases h
  | _ => rfl

/-- Every entry of a channel, made or on its way, is one that was created for the channel. -/
structure Keyed (created : ℕ → ℕ → Prop) (client : StratumV2Client) : Prop where
  lists : ∀ channelId channel, client.channels.get? channelId = some channel →
    ∀ jobId, ListsJob channel jobId → created channelId jobId
  pushes : ∀ push ∈ carried Wait.pushTo? client, created push.1 push.2

variable {created created' : ℕ → ℕ → Prop}

theorem Keyed.moves {client client' : StratumV2Client} (h : Keyed created client)
    (hmoves : Moves client client') (hmono : ∀ channelId jobId, created channelId jobId →
      created' channelId jobId) : Keyed created' client' where
  lists channelId channel' hchannel' jobId hlists := by
    obtain ⟨channel, hchannel, hcleared⟩ := hmoves.channels channelId channel' hchannel'
    exact hmono _ _ (h.lists channelId channel hchannel jobId (hcleared.listsJob hlists))
  pushes push hpush := by
    rw [hmoves.carries _ Wait.pushTo? rfl fun _ => rfl] at hpush
    exact hmono _ _ (h.pushes push hpush)

theorem moves_subscribing (client : StratumV2Client) (latestTemplate : Option JobTemplate)
    (now : ℕ) : Moves client (subscribing client latestTemplate now) := by
  cases latestTemplate with
  | none => exact ⟨(Moves.refl client).channels, carriesOn_of_tasks rfl⟩
  | some jobTemplate =>
    have hmoves := moves_receiveTemplate
      { client with stratumSubscription := true, difficultyTimer := true } jobTemplate now
    exact ⟨hmoves.channels, hmoves.carries⟩

variable {client : StratumV2Client} {channelId id jobId : ℕ} {channel' : ChannelState}

/-- An update of one channel that enters jobs which were created for it. -/
theorem created_of_modify {f : ChannelState → ChannelState}
    (hchannel' : (client.modifyChannel id f).channels.get? channelId = some channel')
    (hlists : ListsJob channel' jobId)
    (hf : ∀ channel, ListsJob (f channel) jobId → created id jobId ∨ ListsJob channel jobId)
    (hkept : ∀ channel, client.channels.get? channelId = some channel → ListsJob channel jobId →
      created channelId jobId) : created channelId jobId := by
  rw [StratumV2Client.modifyChannel, OrdMap.get?_modify] at hchannel'
  obtain ⟨channel, hchannel, rfl⟩ := Option.map_eq_some_iff.mp hchannel'
  split at hlists
  · rename_i hid
    rcases hf channel hlists with hnew | hold
    · rw [hid]
      exact hnew
    · exact hkept channel hchannel hold
  · exact hkept channel hchannel hlists

/-- What a turn enters into the channels is a job that it creates, or one whose frame was being
written. -/
theorem lists_turn (hturn : TurnCase host config env context handled turn)
    (h : Keyed created context.client)
    (htaken : ∀ push ∈ Handled.carried? Wait.pushTo? handled, created push.1 push.2)
    (hmono : ∀ channelId jobId, created channelId jobId → created' channelId jobId)
    (hmade : ∀ channelId job, context.client.jobChannel? handled = some channelId →
      job.jobId = context.jobs.getNextId → turn.context.jobs = context.jobs.addJob job →
        created' channelId context.nextJobId)
    (hchannel' : turn.context.client.channels.get? channelId = some channel')
    (hlists : ListsJob channel' jobId) : created' channelId jobId := by
  have hkept : ∀ channel, context.client.channels.get? channelId = some channel →
      ListsJob channel jobId → created' channelId jobId :=
    fun channel hchannel hbefore => hmono _ _ (h.lists channelId channel hchannel jobId hbefore)
  cases hturn with
  | quiet hquiet =>
    obtain ⟨channel, hchannel, hkeeps⟩ := hquiet.channels channelId channel' hchannel'
    exact hkept channel hchannel (hkeeps.listsJob hlists)
  | opens hopens =>
    rw [hopens.channels, OrdMap.get?_set] at hchannel'
    split at hchannel'
    · cases hchannel'
      exact absurd hlists (hopens.new.not_listsJob jobId)
    · exact hkept channel' hchannel' hlists
  | subscribes _ hselection hsubscription =>
    rw [afterJob_subscribes hselection hsubscription] at hchannel'
    obtain ⟨channel, hchannel, hcleared⟩ :=
      (moves_subscribing _ _ _).channels channelId channel' hchannel'
    exact hkept channel hchannel (hcleared.listsJob hlists)
  | addsJob | beginsExtended | carries | records => exact hkept channel' hchannel' hlists
  | sendsStandard hsends _ hjob =>
    have hnext := hmade _ _ hsends.jobChannel?_eq (MiningJob.fields_create host hjob).1 rfl
    refine created_of_modify hchannel' hlists (fun _ hset => ?_) hkept
    refine (listsJob_of_setStandardJob hset).imp_left ?_
    rintro rfl
    exact hnext
  | @finishes pushed push after hhandled =>
    have hpush := hmono _ _ (htaken (pushed, push.jobId) (hhandled ▸ rfl))
    refine created_of_modify hchannel' hlists (fun _ hset => ?_) hkept
    refine (listsJob_of_setExtendedJob hset).imp_left ?_
    rintro rfl
    exact hpush
  | @installs message _ _ _ _ _ _ hhandled _ _ _ _ hjob =>
    have hchannel : context.client.jobChannel? handled = some message.channelId.toNat := by
      rw [hhandled]
      rfl
    have hnext := hmade _ _ hchannel (MiningJob.fields_create host hjob).1 rfl
    refine created_of_modify hchannel' hlists (fun _ hset => ?_) hkept
    refine (listsJob_of_setExtendedJob hset).imp_left ?_
    rintro rfl
    exact hnext
  | remembers | accepts => exact created_of_modify hchannel' hlists (fun _ => Or.inr) hkept

/-- A turn that leaves an extended job to be entered has created it. -/
theorem pushes_turn (hturn : TurnCase host config env context handled turn)
    (hmade : ∀ channelId job, context.client.jobChannel? handled = some channelId →
      job.jobId = context.jobs.getNextId → turn.context.jobs = context.jobs.addJob job →
        created' channelId context.nextJobId) :
    ∀ push ∈ Next.carried? Wait.pushTo? turn.next, created' push.1 push.2 := by
  intro push hpush
  cases hturn with
  | quiet _ _ _ hnext =>
    rw [carried?_eq_none fun wait hwait => Wait.pushTo?_of_push? (hnext.push wait hwait)] at hpush
    cases hpush
  | subscribes _ hselection hsubscription =>
    rw [afterJob_subscribes hselection hsubscription] at hpush
    cases hpush
  | beginsExtended hsends _ hjob =>
    cases hpush
    exact hmade _ _ hsends.jobChannel?_eq (MiningJob.fields_create host hjob).1 rfl
  | remembers _ _ hnext =>
    rcases hnext with rfl | rfl
    · cases hpush
    · cases hpush
  | carries _ _ hshare =>
    rw [Next.carried?, Wait.pushTo?_of_share? hshare] at hpush
    cases hpush
  | opens | addsJob | sendsStandard | finishes | installs | accepts | records => cases hpush

/-- The rule for the entries of a connection that has a turn. -/
theorem Keyed.runTurn {world : Sv2World} {input : Sv2Input} {taken : StratumV2Client}
    {origin : Origin} (h : Keyed created client)
    (htakes : Takes world input id client taken handled origin)
    (hturn : TurnCase host config env (world.context taken) handled turn)
    (hmono : ∀ channelId jobId, created channelId jobId → created' channelId jobId)
    (hmade : ∀ channelId job, taken.jobChannel? handled = some channelId →
      job.jobId = world.jobs.getNextId → turn.context.jobs = world.jobs.addJob job →
        created' channelId (world.context taken).nextJobId) :
    Keyed created' (endTurn origin turn).1.client := by
  have hcarried : ∀ push, push ∈ Handled.carried? Wait.pushTo? handled ∨
      push ∈ carried Wait.pushTo? taken → created push.1 push.2 :=
    fun push hpush => h.pushes push (htakes.mem_carried rfl rfl hpush)
  have htaken : Keyed created taken := by
    refine ⟨?_, fun push hpush => hcarried push (Or.inr hpush)⟩
    rw [htakes.taken_eq]
    exact h.lists
  constructor
  · intro channelId channel' hchannel' jobId hlists
    obtain ⟨channel, hchannel, hkeeps⟩ :=
      (quiet_endTurn origin turn).2.2 channelId channel' hchannel'
    exact lists_turn hturn htaken (fun push hpush => hcarried push (Or.inl hpush)) hmono hmade
      hchannel (hkeeps.listsJob hlists)
  · intro push hpush
    rcases mem_carried_endTurn hturn origin rfl (fun _ => rfl) hpush with hleft | hnext
    · exact hmono _ _ (htaken.pushes push hleft)
    · exact pushes_turn hturn hmade push hnext

end

section
variable {world : Sv2World} {input : Sv2Input} {id channelId : ℕ}

/-- The owner of a job is the channel of the handler that is taken up. -/
theorem Takes.jobOwner?_eq {client taken : StratumV2Client} {handled : Handled} {origin : Origin}
    (h : Takes world input id client taken handled origin)
    (hchannel : taken.jobChannel? handled = some channelId) :
    world.jobOwner? input = some (.sv2 id channelId) := by
  cases h with
  | task hclient htask =>
    have hbefore : client.jobChannel? _ = some channelId := hchannel
    simp only [Sv2World.jobOwner?, hclient, htask, hbefore, Option.bind_eq_bind, Option.bind_some,
      Option.pure_def]
  | timer => cases hchannel

/-- A job that a step builds for a channel of a connection. -/
def Sv2Builds (host : Externals) (config : Sv2Config) (world : Sv2World) (input : Sv2Input)
    (id channelId : ℕ) (job : MiningJob) : Prop :=
  ∃ client taken handled origin env, Takes world input id client taken handled origin ∧
    TurnBuilds host config env (world.context taken) handled channelId job

theorem Sv2Builds.jobOwner?_eq {host : Externals} {config : Sv2Config} {job : MiningJob}
    (h : Sv2Builds host config world input id channelId job) :
    world.jobOwner? input = some (.sv2 id channelId) ∧ job.jobId = world.jobs.getNextId := by
  obtain ⟨_, _, _, _, _, htakes, hbuilds⟩ := h
  exact ⟨htakes.jobOwner?_eq hbuilds.channel, hbuilds.id_eq⟩

/-- A step that is no template leaves the jobs alone or adds one for the channel of its handler. -/
theorem sv2Step_jobs (host : Externals) (config : Sv2Config) (world : Sv2World)
    (hinput : ∀ template now, input ≠ .template template now) :
    (sv2Step host config world input).1.jobs = world.jobs ∨
      ∃ id channelId job, Sv2Builds host config world input id channelId job ∧
        (sv2Step host config world input).1.jobs = world.jobs.addJob job := by
  have hcase := sv2Step_cases host config world input
  generalize sv2Step host config world input = step at hcase ⊢
  obtain ⟨world', events⟩ := step
  cases hcase with
  | idle | connects | receives => exact Or.inl rfl
  | @closes id client => exact Or.inl (quiet_closeSocket (world.context client)).1.jobs
  | publishes htemplate => exact absurd htemplate (hinput _ _)
  | @turns id client taken handled origin env turn htakes hturn hgoes =>
    have hjobs : (endTurn origin turn).1.jobs = turn.context.jobs := (quiet_endTurn origin turn).1
    show (endTurn origin turn).1.jobs = world.jobs ∨ ∃ id channelId job, _ ∧
      (endTurn origin turn).1.jobs = world.jobs.addJob job
    rw [hjobs]
    rcases hturn.jobs_for with hsame | ⟨channelId, job, hbuilds, hadd⟩
    · exact Or.inl hsame
    · exact Or.inr ⟨id, channelId, job, ⟨client, taken, handled, origin, env, htakes, hbuilds⟩,
        hadd⟩

end

/-! ### The pool -/

/-- A step publishes a template to both protocols, or it is a step of one of them. -/
inductive PoolCase (host : Externals) (sv1Config : Sv1Config) (sv2Config : Sv2Config)
    (pool : Pool) : Pool × List PoolEvent → Prop
  | template (template : JobTemplate) (now : ℕ) :
      PoolCase host sv1Config sv2Config pool (pool.receiveTemplate template now)
  | sv1 {input : AwaitInput} (hinput : ∀ template now, input ≠ .begin (.template template now)) :
      PoolCase host sv1Config sv2Config pool (pool.stepSv1 host sv1Config input)
  | sv2 {input : Sv2Input} (hinput : ∀ template now, input ≠ .template template now) :
      PoolCase host sv1Config sv2Config pool (pool.stepSv2 host sv2Config input)

section
variable (host : Externals) (sv1Config : Sv1Config) (sv2Config : Sv2Config)

theorem poolStep_cases (pool : Pool) (input : PoolInput) :
    PoolCase host sv1Config sv2Config pool (poolStep host sv1Config sv2Config pool input) := by
  unfold poolStep
  split
  · exact .template _ _
  · exact .template _ _
  · rename_i hinput
    exact .sv1 fun template now h => hinput template now (h ▸ rfl)
  · rename_i hinput
    exact .sv2 fun template now h => hinput template now (h ▸ rfl)

/-- What a protocol does to the jobs, with the event of the pool. -/
theorem jobsStep_of_jobs {pool : Pool} (hnumbered : pool.jobs.Numbered) {owner : Option JobOwner}
    {jobs : StratumV1JobsService}
    (h : jobs = pool.jobs ∨ ∃ owner' job, (owner = some owner' ∧
      job.jobId = pool.jobs.getNextId) ∧ jobs = pool.jobs.addJob job) :
    JobsStep pool.jobs (addedJobs (pool.jobEvents owner jobs)) jobs := by
  rcases h with rfl | ⟨owner', job, ⟨howner, hid⟩, rfl⟩
  · rw [jobEvents_same]
    exact .same
  · rw [jobEvents_addJob howner hid]
    refine .adds owner' job hid ?_
    rw [hid]
    exact hnumbered.getJobById_getNextId

theorem poolStep_jobs {pool : Pool} (hnumbered : pool.jobs.Numbered) (input : PoolInput) :
    JobsStep pool.jobs (addedJobs (poolStep host sv1Config sv2Config pool input).2)
      (poolStep host sv1Config sv2Config pool input).1.jobs := by
  have hcase := poolStep_cases host sv1Config sv2Config pool input
  generalize poolStep host sv1Config sv2Config pool input = step at hcase ⊢
  cases hcase with
  | template template now => exact .publishes template now
  | sv1 hinput =>
    have hevents := addedJobs_map
      (f := fun event : ℕ × Sv1Event => .sv1 event.1 event.2) fun _ => rfl
    simp only [Pool.stepSv1, addedJobs_append, hevents, List.nil_append]
    refine jobsStep_of_jobs hnumbered ?_
    rcases awaitStep_jobs host sv1Config pool.sv1World hinput with hsame | ⟨id, job, hbuilds, hadd⟩
    · exact Or.inl hsame
    · exact Or.inr ⟨.sv1 id, job, hbuilds.jobOwner?_eq, hadd⟩
  | sv2 hinput =>
    have hevents := addedJobs_map (f := PoolEvent.sv2) fun _ => rfl
    simp only [Pool.stepSv2, addedJobs_append, hevents, List.nil_append]
    refine jobsStep_of_jobs hnumbered ?_
    rcases sv2Step_jobs host sv2Config pool.sv2World hinput with
      hsame | ⟨id, channelId, job, hbuilds, hadd⟩
    · exact Or.inl hsame
    · exact Or.inr ⟨.sv2 id channelId, job, hbuilds.jobOwner?_eq, hadd⟩

end

/-! ### The invariant -/

/-- The jobs that were added have the numbers from one on, in their order. -/
structure InOrder (jobs : StratumV1JobsService) (added : List (JobOwner × MiningJob)) : Prop where
  numbered : jobs.Numbered
  next : jobs.latestJobId = added.length + 1
  ids : added.map (fun job => job.2.jobId) = (List.range' 1 added.length).map Js.toString16

theorem InOrder.step {jobs jobs' : StratumV1JobsService} {added more : List (JobOwner × MiningJob)}
    (h : InOrder jobs added) (hstep : JobsStep jobs more jobs') :
    InOrder jobs' (added ++ more) := by
  cases hstep with
  | same => rwa [List.append_nil]
  | publishes template now =>
    rw [List.append_nil]
    exact ⟨h.numbered.publish template now, h.next, h.ids⟩
  | adds owner job hid hfree =>
    refine ⟨h.numbered.addJob hid, ?_, ?_⟩
    · show jobs.latestJobId + 1 = _
      rw [h.next, List.length_append, List.length_singleton]
    · rw [List.map_append, h.ids, List.length_append, List.length_singleton, List.range'_concat,
        List.map_append, List.map_singleton, List.map_singleton, hid,
        StratumV1JobsService.getNextId, h.next]
      simp only [Nat.one_mul, Nat.add_comm]

section
variable {jobs : StratumV1JobsService} {added : List (JobOwner × MiningJob)} {jobId : ℕ}

theorem InOrder.nodup (h : InOrder jobs added) : (added.map fun job => job.2.jobId).Nodup := by
  rw [h.ids]
  exact List.Nodup.map (fun _ _ => Js.toString16_inj.mp) List.nodup_range'

/-- The number of a job is at most the number of jobs. -/
theorem InOrder.le_length (h : InOrder jobs added) {owned : JobOwner × MiningJob}
    (hmem : owned ∈ added) (hid : owned.2.jobId = Js.toString16 jobId) : jobId ≤ added.length := by
  have hids : owned.2.jobId ∈ added.map fun job => job.2.jobId := List.mem_map_of_mem hmem
  rw [h.ids, hid, List.mem_map] at hids
  obtain ⟨n, hn, heq⟩ := hids
  rw [Js.toString16_inj] at heq
  rw [List.mem_range'_1] at hn
  omega

/-- A job with this number was created for a channel of a connection. -/
def CreatedFor (added : List (JobOwner × MiningJob)) (id channelId jobId : ℕ) : Prop :=
  ∃ job, (.sv2 id channelId, job) ∈ added ∧ job.jobId = Js.toString16 jobId

theorem CreatedFor.append {id channelId : ℕ} (h : CreatedFor added id channelId jobId)
    (more : List (JobOwner × MiningJob)) : CreatedFor (added ++ more) id channelId jobId := by
  obtain ⟨job, hmem, hid⟩ := h
  exact ⟨job, List.mem_append_left more hmem, hid⟩

end

/-- All entries of all channels are for jobs that were created for them. -/
def AllKeyed (pool : Pool) (added : List (JobOwner × MiningJob)) : Prop :=
  ∀ id client, pool.sv2Clients id = some client → Keyed (CreatedFor added id) client

section
variable (host : Externals) (sv1Config : Sv1Config) (sv2Config : Sv2Config)

variable {added : List (JobOwner × MiningJob)}

theorem Keyed.append {id : ℕ} {client : StratumV2Client} (h : Keyed (CreatedFor added id) client)
    (more : List (JobOwner × MiningJob)) : Keyed (CreatedFor (added ++ more) id) client :=
  h.moves (.refl client) fun _ _ hcreated => hcreated.append more

/-- A step of the Stratum V2 connections keeps the entries keyed. -/
theorem AllKeyed.stepSv2 {pool : Pool} (h : AllKeyed pool added) (input : Sv2Input) :
    AllKeyed (pool.stepSv2 host sv2Config input).1
      (added ++ addedJobs (pool.stepSv2 host sv2Config input).2) := by
  intro id client' hclient'
  have hmono : ∀ channelId jobId, CreatedFor added id channelId jobId →
      CreatedFor (added ++ addedJobs (pool.stepSv2 host sv2Config input).2) id channelId jobId :=
    fun _ _ hcreated => hcreated.append _
  have hclient := sv2Step_client host sv2Config pool.sv2World input id
  replace hclient' : (sv2Step host sv2Config pool.sv2World input).1.clients id = some client' :=
    hclient'
  cases hclient with
  | absent _ hafter => cases hafter.symm.trans hclient'
  | connects _ hafter =>
    cases hafter.symm.trans hclient'
    refine ⟨fun channelId channel hchannel => ?_, fun push hpush => ?_⟩
    · cases hchannel
    · cases hpush
  | moves hbefore hafter hmoved =>
    cases hafter.symm.trans hclient'
    exact (h id _ hbefore).moves hmoved.moves hmono
  | @turns client taken handled origin env turn htakes hruns hturn hgoes hworld =>
    rw [hworld, clients_update_self] at hclient'
    cases hclient'
    refine (h id client htakes.client_eq).runTurn htakes hturn hmono ?_
    intro channelId job hchannel hid hadd
    have howner := htakes.jobOwner?_eq hchannel
    have hjobs : (sv2Step host sv2Config pool.sv2World input).1.jobs = pool.jobs.addJob job := by
      rw [hworld]
      exact (quiet_endTurn origin turn).1.trans hadd
    have hevent : .jobAdded (.sv2 id channelId) job ∈ (pool.stepSv2 host sv2Config input).2 := by
      have hjobEvents : pool.jobEvents (pool.sv2World.jobOwner? input)
          (sv2Step host sv2Config pool.sv2World input).1.jobs
            = [.jobAdded (.sv2 id channelId) job] := by
        rw [hjobs]
        exact jobEvents_addJob howner hid
      exact List.mem_append_right _ (hjobEvents ▸ List.mem_singleton_self _)
    refine ⟨job, List.mem_append_right _ (List.mem_filterMap.mpr ⟨_, hevent, rfl⟩), ?_⟩
    rw [nextJobId_eq, hid]
    rfl

theorem AllKeyed.step {pool : Pool} {added : List (JobOwner × MiningJob)}
    (h : AllKeyed pool added) (input : PoolInput) :
    AllKeyed (poolStep host sv1Config sv2Config pool input).1
      (added ++ addedJobs (poolStep host sv1Config sv2Config pool input).2) := by
  have hcase := poolStep_cases host sv1Config sv2Config pool input
  generalize poolStep host sv1Config sv2Config pool input = step at hcase ⊢
  cases hcase with
  | template template now =>
    intro id client' hclient'
    obtain ⟨client, hclient, rfl⟩ := Option.map_eq_some_iff.mp hclient'
    exact ((h id client hclient).append _).moves (moves_receiveTemplate client _ now)
      fun _ _ hcreated => hcreated
  | sv1 => exact fun id client hclient => (h id client hclient).append _
  | sv2 => exact h.stepSv2 host sv2Config _

/-- The invariant of the pool. -/
structure JobsInv (pool : Pool) (history : List PoolEvent) : Prop where
  counted : InOrder pool.jobs (addedJobs history)
  keyed : AllKeyed pool (addedJobs history)

theorem jobsInv_initial : JobsInv .initial [] where
  counted := ⟨StratumV1JobsService.numbered_initial, rfl, rfl⟩
  keyed _ _ h := by cases h

theorem JobsInv.step {pool : Pool} {history : List PoolEvent} (h : JobsInv pool history)
    (input : PoolInput) :
    JobsInv (poolStep host sv1Config sv2Config pool input).1
      (history ++ (poolStep host sv1Config sv2Config pool input).2) where
  counted := by
    rw [addedJobs_append]
    exact h.counted.step (poolStep_jobs host sv1Config sv2Config h.counted.numbered input)
  keyed := by
    rw [addedJobs_append]
    exact h.keyed.step host sv1Config sv2Config input

/-- In every interleaving of all handlers, each step that adds a job adds one under a free id, no
two jobs that were ever added have the same id, and every entry in the maps of a channel is for a
job that was created for this channel. -/
theorem job_ids_never_reused (inputs : List PoolInput) :
    let machine := poolMachine host sv1Config sv2Config
    let added := addedJobs (machine.history .initial inputs)
    machine.Along (fun pool _ input =>
        JobsStep pool.jobs (addedJobs (machine.step pool input).2) (machine.step pool input).1.jobs)
      .initial [] inputs ∧
    (added.map fun job => job.2.jobId).Nodup ∧
    ∀ id client channelId channel, (machine.final .initial inputs).sv2Clients id = some client →
      client.channels.get? channelId = some channel → ∀ jobId, ListsJob channel jobId →
        CreatedFor added id channelId jobId ∧ jobId ≤ added.length := by
  intro machine added
  have hstep : ∀ pool history input, JobsInv pool history → True →
      JobsStep pool.jobs (addedJobs (machine.step pool input).2) (machine.step pool input).1.jobs ∧
        JobsInv (machine.step pool input).1 (history ++ (machine.step pool input).2) :=
    fun pool history input h _ =>
      ⟨poolStep_jobs host sv1Config sv2Config h.counted.numbered input, h.step _ _ _ input⟩
  have htrue : machine.Along (fun _ _ _ => True) .initial [] inputs :=
    machine.along_of_forall (fun _ _ _ => trivial) _ _ _
  have hfinal := machine.history_invariant
    (fun pool history input h hcond => (hstep pool history input h hcond).2) jobsInv_initial htrue
  rw [List.nil_append] at hfinal
  refine ⟨machine.along_of_invariant hstep jobsInv_initial htrue, hfinal.counted.nodup, ?_⟩
  intro id client channelId channel hclient hchannel jobId hlists
  have hcreated := (hfinal.keyed id client hclient).lists channelId channel hchannel jobId hlists
  have hentry := hcreated
  obtain ⟨job, hmem, hid⟩ := hentry
  exact ⟨hcreated, hfinal.counted.le_length hmem hid⟩

end

end PublicPool.Proofs
