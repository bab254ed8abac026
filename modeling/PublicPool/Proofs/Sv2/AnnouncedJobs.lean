import PublicPool.Proofs.Sv2.PrefixHolders
import PublicPool.Proofs.Sv2.DoubleCredit
import PublicPool.Proofs.Sv2.Submissions

/-!
# `PublicPool.Proofs.Sv2.AnnouncedJobs`: whether a job that was sent is found

A miner that was sent a job expects the pool to know it. Take a job that was sent, suppose that no
template has cleared jobs since, and let it be less than five minutes old. Then a submission on it
is not answered `invalid-job-id`, and `stale-share` only if it was made before: `resolves_of_finds`,
under `FindsJob`. Four things can go wrong.

* An extended job is stored after its frame is written. A share that is handled before that finds
  nothing.
* A standard job needs its template in the jobs service, and the template ages by its own creation.
  It can be dropped while the job is young, or before the job is sent.
* A connection that subscribes is handed the latest template once more. If that one clears jobs,
  those that the connection has been sent are gone.
* A standard submission is looked up among the standard jobs, on whatever channel.
-/

set_option autoImplicit false

namespace PublicPool.Sv2

/-- The template of the pool job that a handler sends next. -/
def Context.sentTemplate? (context : Context) : Handled → Option JobTemplate
  | .wait (.firstTemplate _ _) => context.jobs.latestTemplate
  | .wait (.prevHashFrame (.loop jobTemplate _ _)) => some jobTemplate
  | _ => none

/-- The time that is read with an input. -/
def Sv2Input.clock? : Sv2Input → Option ℕ
  | .template _ now => some now
  | .resume _ _ env => some env.now
  | _ => none

end PublicPool.Sv2

namespace PublicPool.Proofs

open Lib (OrdMap Machine)
open Sv2
open Sv2.Context

/-! ### The property -/

section
variable (host : Externals) (config : Sv2Config) (id : ℕ) (before : List Sv2Input)
  (send : Sv2Input) (between : List Sv2Input) (submit : Sv2Input)

/-- A submission on an open channel names a job whose frame was handed to the socket, no template
has cleared jobs since, and the job is less than five minutes old. -/
structure NamesAnnounced (channelId : ℕ) (tuple : ShareTuple) : Prop where
  sent : ∃ event, .client id event
      ∈ (sv2Step host config ((sv2Machine host config).final .initial before) send).2 ∧
    event.job? = some (channelId, tuple.jobId)
  noClear : ∀ template now, .template template now ∈ between →
    template.blockData.clearJobs = false
  young : ∀ created ∈ send.clock?, ∀ input ∈ between ++ [submit], ∀ now ∈ input.clock?,
    now < created + StratumV1JobsService.maxAge
  submits : submissionBy? ((sv2Machine host config).final .initial (before ++ send :: between)) id
    submit = some (channelId, tuple)
  isOpen : ∃ client channel,
    ((sv2Machine host config).final .initial (before ++ send :: between)).clients id = some client ∧
      client.openChannel? channelId = some channel

/-- The submission is not answered `invalid-job-id`, and `stale-share` only if it was made before.
-/
structure Resolved (channelId : ℕ) (tuple : ShareTuple) : Prop where
  found : ∀ sequenceNumber,
    .client id (.submitSharesError channelId sequenceNumber "invalid-job-id")
      ∉ (sv2Step host config
          ((sv2Machine host config).final .initial (before ++ send :: between)) submit).2
  fresh : ∀ sequenceNumber,
    .client id (.submitSharesError channelId sequenceNumber "stale-share")
      ∈ (sv2Step host config
          ((sv2Machine host config).final .initial (before ++ send :: between)) submit).2 →
    (channelId, tuple) ∈ submissions host config id .initial (before ++ send :: between)

/-- Announced jobs resolve. -/
def Resolves : Prop :=
  ∀ channelId tuple, NamesAnnounced host config id before send between submit channelId tuple →
    Resolved host config id before send between submit channelId tuple

end

/-! ### The condition -/

/-- A connection that subscribes in a step is handed no template that clears jobs. -/
def NotReplayed (id : ℕ) (world : Sv2World) (_ : List Sv2Output) (input : Sv2Input) : Prop :=
  ∀ taken ∈ handledBy? world id input,
    ∀ jobTemplate ∈ (world.context taken.1).replayed? taken.2,
      jobTemplate.blockData.clearJobs = false

instance (id : ℕ) (world : Sv2World) (history : List Sv2Output) (input : Sv2Input) :
    Decidable (NotReplayed id world history input) :=
  inferInstanceAs (Decidable (∀ _ ∈ _, ∀ _ ∈ _, _))

/-- A channel is of a type. -/
def IsOfType (world : Sv2World) (id channelId : ℕ) (channelType : ChannelType) : Prop :=
  ∀ client ∈ world.clients id, ∀ channel ∈ client.channels.get? channelId,
    channel.channelType = channelType

instance (world : Sv2World) (id channelId : ℕ) (channelType : ChannelType) :
    Decidable (IsOfType world id channelId channelType) :=
  inferInstanceAs (Decidable (∀ _ ∈ _, ∀ _ ∈ _, _))

section
variable (host : Externals) (config : Sv2Config) (id : ℕ) (before : List Sv2Input)
  (send : Sv2Input) (between : List Sv2Input)

/-- What the look-up of an announced job takes. -/
inductive FindsJob (channelId : ℕ) (tuple : ShareTuple) : Prop
  /-- An extended submission on a standard channel is refused before the look-up. -/
  | refused (hstandard : IsOfType
        ((sv2Machine host config).final .initial (before ++ send :: between)) id channelId .standard)
      (hextranonce : tuple.extranonce ≠ none)
  /-- The template of a standard job is there when the job is sent, no template is published more
  than five minutes after it, and none that clears jobs is replayed. -/
  | standard {client : StratumV2Client} {handled : Handled} {jobTemplate block : JobTemplate}
      (hextranonce : tuple.extranonce = none)
      (hframe : ∃ minNtime version merkleRoot,
        .client id (.newMiningJob channelId tuple.jobId minNtime version merkleRoot)
          ∈ (sv2Step host config ((sv2Machine host config).final .initial before) send).2)
      (hhandled : handledBy? ((sv2Machine host config).final .initial before) id send
        = some (client, handled))
      (hsends : (((sv2Machine host config).final .initial before).context client).sentTemplate?
        handled = some jobTemplate)
      (hblock : ((sv2Machine host config).final .initial before).jobs.getJobTemplateById
        jobTemplate.blockData.id = some block)
      (hage : ∀ template now, .template template now ∈ between →
        now - block.blockData.creation ≤ StratumV1JobsService.maxAge)
      (hreplays : (sv2Machine host config).Along (NotReplayed id)
        ((sv2Machine host config).final .initial (before ++ [send])) [] between)
  /-- The handler of an extended job goes on after its frame, and no template that clears jobs is
  replayed from then on. -/
  | extended {early late : List Sv2Input} {finish : Sv2Input} {client : StratumV2Client}
      {push : ExtendedPush} {after : AfterJob}
      (hextranonce : tuple.extranonce ≠ none) (hbetween : between = early ++ finish :: late)
      (hfinish : handledBy? ((sv2Machine host config).final .initial (before ++ send :: early)) id
        finish = some (client, .wait (.extendedJobFrame channelId push after)))
      (hpush : push.jobId = tuple.jobId)
      (hreplays : (sv2Machine host config).Along (NotReplayed id)
        ((sv2Machine host config).final .initial (before ++ send :: early ++ [finish])) [] late)
  /-- A custom job is stored at once, and no template that clears jobs is replayed. -/
  | custom {requestId : ℕ} (hextranonce : tuple.extranonce ≠ none)
      (hcustom : .client id (.setCustomMiningJobSuccess channelId requestId tuple.jobId)
        ∈ (sv2Step host config ((sv2Machine host config).final .initial before) send).2)
      (hreplays : (sv2Machine host config).Along (NotReplayed id)
        ((sv2Machine host config).final .initial (before ++ [send])) [] between)

end

/-! ### Channels that keep their jobs -/

/-- A channel keeps the jobs that it has. -/
structure Retains (channel channel' : ChannelState) : Prop where
  merkleRoots : ∀ jobId, (channel.jobIdToMerkleRoot jobId).isSome = true →
    (channel'.jobIdToMerkleRoot jobId).isSome = true
  extendedJobs : ∀ jobId job, channel.extendedJobs jobId = some job → job.retiredAt = none →
    ∃ job', channel'.extendedJobs jobId = some job' ∧ job'.retiredAt = none

section
variable (channel : ChannelState) (jobId : ℕ)

theorem Retains.refl : Retains channel channel where
  merkleRoots _ := id
  extendedJobs _ job hjob hlive := ⟨job, hjob, hlive⟩

theorem Retains.trans {channel between channel' : ChannelState} (h : Retains channel between)
    (h' : Retains between channel') : Retains channel channel' where
  merkleRoots jobId hroot := h'.merkleRoots jobId (h.merkleRoots jobId hroot)
  extendedJobs jobId job hjob hlive := by
    obtain ⟨kept, hkept, hlive⟩ := h.extendedJobs jobId job hjob hlive
    exact h'.extendedJobs jobId kept hkept hlive

theorem Keeps.retains {channel channel' : ChannelState} (h : Keeps channel channel') :
    Retains channel channel' := by
  obtain ⟨_, _, _, -, rfl⟩ := h
  exact ⟨fun _ => id, fun _ job hjob hlive => ⟨job, hjob, hlive⟩⟩

theorem retains_remember (key : List Char) : Retains channel (channel.remember key) :=
  ⟨fun _ => id, fun _ job hjob hlive => ⟨job, hjob, hlive⟩⟩

theorem retains_setStandardJob (merkleRoot : Digest) :
    Retains channel (channel.setStandardJob jobId merkleRoot) where
  merkleRoots id hroot := by
    simp only [ChannelState.setStandardJob]
    split
    · rfl
    · exact hroot
  extendedJobs _ job hjob hlive := ⟨job, hjob, hlive⟩

/-- A job that is stored is not retired. -/
theorem retains_setExtendedJob {data : ExtendedJobData} (hdata : data.retiredAt = none) :
    Retains channel (channel.setExtendedJob jobId data) where
  merkleRoots _ := id
  extendedJobs id job hjob hlive := by
    simp only [ChannelState.setExtendedJob]
    split
    · exact ⟨data, rfl, hdata⟩
    · exact ⟨job, hjob, hlive⟩

theorem retains_finishPush (push : ExtendedPush) : Retains channel (finishPush push channel) := by
  have hset : Retains channel (channel.setExtendedJob push.jobId (pushedJob channel push)) :=
    retains_setExtendedJob channel push.jobId rfl
  exact ⟨hset.merkleRoots, hset.extendedJobs⟩

end

section
variable {host : Externals} {config : Sv2Config} {id channelId : ℕ} {world : Sv2World}

variable {env : TurnEnv} {context : Context} {handled : Handled} {channel' : ChannelState}

theorem retains_gives {jobs : StratumV1JobsService} {channel : ChannelState}
    (h : Gives host config env context handled jobs channel channel') :
    Retains channel channel' := by
  cases h with
  | standard => exact retains_setStandardJob ..
  | extended => exact retains_finishPush ..
  | custom => exact retains_setExtendedJob _ _ rfl

/-- A turn keeps the jobs of a channel, unless a template that clears them is replayed. -/
theorem retains_turn {turn : Turn}
    (h : ChannelTurn host config env context handled turn channelId channel')
    (hlt : channelId < context.stratumV2Service.channelIdCounter)
    (hreplays : turn.next ≠ .throws → ∀ jobTemplate ∈ context.replayed? handled,
      jobTemplate.blockData.clearJobs = false) :
    ∃ channel, context.client.channels.get? channelId = some channel ∧
      Retains channel channel' := by
  cases h with
  | keeps hfound hkeeps => exact ⟨_, hfound, hkeeps.retains⟩
  | opens hid => exact absurd hid (Nat.ne_of_lt hlt)
  | clears hfound hreplayed hclear hnext =>
    rw [hreplays hnext _ hreplayed] at hclear
    cases hclear
  | gives hfound hgives => exact ⟨_, hfound, retains_gives hgives⟩
  | remembers hfound hfresh heq =>
    rw [heq]
    exact ⟨_, hfound, retains_remember ..⟩

/-- Without a turn a channel keeps its jobs, unless a template clears them. -/
theorem retains_moved {input : Sv2Input} {client client' : StratumV2Client}
    (h : Moved world input client client')
    (hclear : ∀ template now, input = .template template now →
      template.blockData.clearJobs = false)
    (hchannel' : client'.channels.get? channelId = some channel') :
    ∃ channel, client.channels.get? channelId = some channel ∧ Retains channel channel' := by
  cases h with
  | stays => exact ⟨channel', hchannel', .refl channel'⟩
  | closes =>
    have hquiet := (quiet_closeSocket (world.context client)).1
    obtain ⟨channel, hchannel, hkeeps⟩ := hquiet.channels channelId channel' hchannel'
    exact ⟨channel, hchannel, hkeeps.retains⟩
  | @template template now hinput =>
    have hno : ¬(world.jobs.numberTemplate template now).blockData.clearJobs = true := by
      show ¬template.blockData.clearJobs = true
      rw [hclear template now hinput]
      exact Bool.false_ne_true
    unfold StratumV2Client.receiveTemplate at hchannel'
    split at hchannel'
    · simp only [StratumV2Client.onTemplate, StratumV2Client.clearChannels, if_neg hno] at hchannel'
      exact ⟨channel', hchannel', .refl channel'⟩
    · exact ⟨channel', hchannel', .refl channel'⟩
  | data =>
    unfold StratumV2Client.receive at hchannel'
    split at hchannel'
    · exact ⟨channel', hchannel', .refl channel'⟩
    · exact ⟨channel', hchannel', .refl channel'⟩

/-- The channel under an id is there already, and it has a property. -/
structure ChannelKeeps (P : ChannelState → Prop) (id channelId : ℕ) (world : Sv2World) : Prop where
  numbered : channelId < world.stratumV2Service.channelIdCounter
  holds : ∀ client, world.clients id = some client → ∀ channel,
    client.channels.get? channelId = some channel → P channel

/-- A step keeps what a channel has, unless jobs are cleared. -/
theorem ChannelKeeps.step {P : ChannelState → Prop} (h : ChannelKeeps P id channelId world)
    (hP : ∀ channel channel', P channel → Retains channel channel' → P channel') {input : Sv2Input}
    {history : List Sv2Output}
    (hclear : ∀ template now, input = .template template now →
      template.blockData.clearJobs = false)
    (hreplays : NotReplayed id world history input) :
    ChannelKeeps P id channelId (sv2Step host config world input).1 := by
  have hcase := sv2Step_cases host config world input
  have hclient := sv2Step_client host config world input id
  refine ⟨h.numbered.trans_le hcase.counter_le, ?_⟩
  generalize sv2Step host config world input = step at hclient ⊢
  obtain ⟨world', events⟩ := step
  intro client' hclient' channel' hchannel'
  cases hclient with
  | absent _ hafter => cases hafter.symm.trans hclient'
  | connects _ hafter =>
    cases hafter.symm.trans hclient'
    cases hchannel'
  | moves hbefore hafter hmoved =>
    cases hafter.symm.trans hclient'
    obtain ⟨channel, hchannel, hretains⟩ := retains_moved hmoved hclear hchannel'
    exact hP channel channel' (h.holds _ hbefore channel hchannel) hretains
  | @turns client taken handled origin env turn htakes hruns hturn hgoes hworld =>
    subst hworld
    cases (clients_update_self id _).symm.trans hclient'
    obtain ⟨-, -, hvia⟩ := quiet_endTurn origin turn
    obtain ⟨turned, hturned, hkeeps⟩ := hvia channelId channel' hchannel'
    have hkept : turn.next ≠ .throws → ∀ jobTemplate ∈ (world.context taken).replayed? handled,
        jobTemplate.blockData.clearJobs = false := by
      intro hnext jobTemplate hmem
      rcases hgoes with htaken | ⟨wait, rfl, rfl | hthrows⟩
      · refine hreplays _ htaken jobTemplate ?_
        rw [htakes.taken_eq] at hmem
        exact hmem
      · cases hmem
      · exact absurd hthrows hnext
    obtain ⟨channel, hchannel, hretains⟩ :=
      retains_turn (hturn.channelTurn hturned) h.numbered hkept
    refine hP channel channel' ?_ (hretains.trans hkeeps.retains)
    rw [htakes.taken_eq] at hchannel
    exact h.holds client htakes.client_eq channel hchannel

theorem ChannelKeeps.run {P : ChannelState → Prop} (h : ChannelKeeps P id channelId world)
    (hP : ∀ channel channel', P channel → Retains channel channel' → P channel')
    {inputs : List Sv2Input} {history : List Sv2Output}
    (hclear : ∀ template now, .template template now ∈ inputs →
      template.blockData.clearJobs = false)
    (hreplays : (sv2Machine host config).Along (NotReplayed id) world history inputs) :
    ChannelKeeps P id channelId ((sv2Machine host config).final world inputs) := by
  induction inputs generalizing world history with
  | nil => exact h
  | cons input inputs ih =>
    obtain ⟨hfirst, hrest⟩ := hreplays
    have hstep : ChannelKeeps P id channelId (sv2Step host config world input).1 := by
      refine h.step hP (fun template now hinput => ?_) hfirst
      exact hclear template now (hinput ▸ List.mem_cons_self)
    exact ih hstep (fun template now hmem => hclear template now (List.mem_cons_of_mem _ hmem)) hrest

theorem counter_le_run (inputs : List Sv2Input) :
    world.stratumV2Service.channelIdCounter
      ≤ ((sv2Machine host config).final world inputs).stratumV2Service.channelIdCounter := by
  induction inputs generalizing world with
  | nil => exact le_rfl
  | cons input inputs ih =>
    exact (sv2Step_cases host config world input).counter_le.trans ih

/-! ### Jobs that stay in the service -/

/-- A job of some time is in the service, with its template. -/
structure Registered (jobs : StratumV1JobsService) (jobId created : ℕ) (block : JobTemplate) :
    Prop where
  numbered : jobs.Numbered
  below : jobId < jobs.latestJobId
  job : ∃ job, jobs.getJobById (Js.toString16 jobId) = some job ∧ job.creation = created ∧
    jobs.getJobTemplateById job.jobTemplateId = some block

section
variable {jobs : StratumV1JobsService} {jobId created : ℕ} {block : JobTemplate}

theorem Registered.addJob (h : Registered jobs jobId created block) {job : MiningJob}
    (hid : job.jobId = jobs.getNextId) : Registered (jobs.addJob job) jobId created block where
  numbered := h.numbered.addJob hid
  below := h.below.trans (Nat.lt_succ_self _)
  job := by
    obtain ⟨old, hold, hcreated, hblock⟩ := h.job
    refine ⟨old, ?_, hcreated, hblock⟩
    have hne : Js.toString16 jobId ≠ job.jobId := by
      intro heq
      rw [hid, StratumV1JobsService.getNextId, Js.toString16_inj] at heq
      have hlt := h.below
      omega
    show (if Js.toString16 jobId = job.jobId then some job else _) = some old
    rw [if_neg hne]
    exact hold

/-- A young job stays with a template that is no older than five minutes itself. -/
theorem Registered.publish (h : Registered jobs jobId created block) {template : JobTemplate}
    {now : ℕ} (hclear : template.blockData.clearJobs = false)
    (hyoung : now < created + StratumV1JobsService.maxAge)
    (hage : now - block.blockData.creation ≤ StratumV1JobsService.maxAge) :
    Registered (jobs.publish template now) jobId created block where
  numbered := h.numbered.publish template now
  below := h.below
  job := by
    obtain ⟨job, hjob, hcreated, hblock⟩ := h.job
    have hkept : now - job.creation ≤ StratumV1JobsService.maxAge := by
      rw [hcreated]
      omega
    have hno : ¬(jobs.numberTemplate template now).blockData.clearJobs = true := by
      show ¬template.blockData.clearJobs = true
      rw [hclear]
      exact Bool.false_ne_true
    -- the new template has a number of its own
    have hne : job.jobTemplateId ≠ (jobs.numberTemplate template now).blockData.id := by
      obtain ⟨-, n, hlt, hid⟩ := h.numbered.block hblock
      show job.jobTemplateId ≠ Js.toString16 jobs.latestJobTemplateId
      rw [hid]
      intro heq
      have := Js.toString16_inj.mp heq
      omega
    refine ⟨job, ?_, hcreated, ?_⟩
    · simp only [StratumV1JobsService.publish, StratumV1JobsService.getJobById, if_neg hno]
      rw [StratumV1JobsService.getJobById] at hjob
      rw [hjob, Option.filter_some, if_pos (decide_eq_true hkept)]
    · simp only [StratumV1JobsService.publish, StratumV1JobsService.getJobTemplateById, if_neg hno,
        if_neg hne]
      rw [StratumV1JobsService.getJobTemplateById] at hblock
      rw [hblock, Option.filter_some, if_pos (decide_eq_true hage)]

theorem Registered.step (h : Registered world.jobs jobId created block) {input : Sv2Input}
    (hclear : ∀ template now, input = .template template now →
      template.blockData.clearJobs = false)
    (hyoung : ∀ now ∈ input.clock?, now < created + StratumV1JobsService.maxAge)
    (hage : ∀ template now, input = .template template now →
      now - block.blockData.creation ≤ StratumV1JobsService.maxAge) :
    Registered (sv2Step host config world input).1.jobs jobId created block := by
  have hcase := sv2Step_cases host config world input
  generalize sv2Step host config world input = step at hcase ⊢
  obtain ⟨world', events⟩ := step
  cases hcase with
  | idle | connects | receives => exact h
  | @closes id client =>
    have hjobs : (world.context client).closeSocket.jobs = world.jobs :=
      (quiet_closeSocket (world.context client)).1.jobs
    show Registered (world.context client).closeSocket.jobs jobId created block
    rw [hjobs]
    exact h
  | @publishes template now hinput =>
    have hnow : now ∈ input.clock? := by
      rw [hinput]
      rfl
    exact h.publish (hclear template now hinput) (hyoung now hnow) (hage template now hinput)
  | @turns id client taken handled origin env turn htakes hturn =>
    show Registered (endTurn origin turn).1.jobs jobId created block
    rw [(quiet_endTurn origin turn).1]
    rcases hturn.jobs_cases with heq | ⟨job, hid, heq⟩
    · rw [heq]
      exact h
    · rw [heq]
      exact h.addJob hid

theorem Registered.run (h : Registered world.jobs jobId created block) {inputs : List Sv2Input}
    (hclear : ∀ template now, .template template now ∈ inputs →
      template.blockData.clearJobs = false)
    (hyoung : ∀ input ∈ inputs, ∀ now ∈ input.clock?,
      now < created + StratumV1JobsService.maxAge)
    (hage : ∀ template now, .template template now ∈ inputs →
      now - block.blockData.creation ≤ StratumV1JobsService.maxAge) :
    Registered ((sv2Machine host config).final world inputs).jobs jobId created block := by
  induction inputs generalizing world with
  | nil => exact h
  | cons input inputs ih =>
    have hstep : Registered (sv2Step host config world input).1.jobs jobId created block := by
      refine h.step (fun template now hinput => ?_) (hyoung input List.mem_cons_self)
        fun template now hinput => ?_
      · exact hclear template now (hinput ▸ List.mem_cons_self)
      · exact hage template now (hinput ▸ List.mem_cons_self)
    exact ih hstep (fun template now hmem => hclear template now (List.mem_cons_of_mem _ hmem))
      (fun input hmem => hyoung input (List.mem_cons_of_mem _ hmem))
      fun template now hmem => hage template now (List.mem_cons_of_mem _ hmem)

end

theorem numbered_run (inputs : List Sv2Input) (h : world.jobs.Numbered) :
    ((sv2Machine host config).final world inputs).jobs.Numbered := by
  induction inputs generalizing world with
  | nil => exact h
  | cons input inputs ih => exact ih ((sv2Step_cases host config world input).jobsGrow.2 h)

/-! ### A job is sent -/

section
variable {env : TurnEnv} {context : Context} {handled : Handled} {turn : Turn} {jobId : ℕ}

/-- A job is handed out for a channel that there is. -/
theorem found_of_job? (hturn : TurnCase host config env context handled turn)
    (hannounces : Announces context turn) {event : Sv2Event} (hevent : event ∈ turn.events)
    (hjob : event.job? = some (channelId, jobId)) :
    ∃ channel, context.client.channels.get? channelId = some channel := by
  cases event with
  | newMiningJob | newExtendedMiningJob =>
    cases hjob
    have hsent := hturn.announcesJob hannounces hevent rfl
    obtain ⟨hsends, -, hannounced⟩ := hsent
    cases hannounced
    exact ⟨_, hsends.found⟩
  | setCustomMiningJobSuccess channelId' requestId jobId' =>
    cases hjob
    obtain ⟨channel, data, hfound, -⟩ := hannounces.installs channelId requestId jobId hevent
    exact ⟨channel, hfound⟩
  | _ => cases hjob

/-- A `NewMiningJob` comes with the job and its merkle root. -/
theorem storesStandard (hturn : TurnCase host config env context handled turn)
    (hannounces : Announces context turn) {minNtime : Option ℤ} {version : ℤ} {merkleRoot : Digest}
    (hevent : .newMiningJob channelId jobId minNtime version merkleRoot ∈ turn.events) :
    ∃ channel address jobTemplate sendPrevHash after job root,
      Sends context handled channelId channel address jobTemplate sendPrevHash after ∧
      CreatesJob host config context address jobTemplate env.now job ∧
      jobId = context.nextJobId ∧ turn.context.jobs = context.jobs.addJob job ∧
      turn.context.client
        = context.client.modifyChannel channelId (ChannelState.setStandardJob · jobId root) := by
  obtain ⟨jobTemplate, sendPrevHash, after, hnext⟩ :=
    hannounces.standards channelId jobId minNtime version merkleRoot hevent
  have hadds := hannounces.adds _ hevent (Option.some_ne_none _)
  cases hturn with
  | quiet hquiet =>
    rw [hquiet.jobs] at hadds
    exact absurd hadds (Nat.ne_of_lt (Nat.lt_succ_self _))
  | subscribes _ hselection hsubscription =>
    rw [afterJob_subscribes hselection hsubscription] at hnext
    cases hnext
  | sendsStandard hsends _ hjob =>
    cases hnext
    exact ⟨_, _, _, _, _, _, _, hsends, hjob, rfl, rfl, rfl⟩
  | remembers _ _ hleft =>
    rcases hleft with rfl | rfl
    · cases hnext
    · cases hnext
  | carries _ _ hshare =>
    cases hnext
    cases hshare
  | _ => cases hnext

/-- The template of the job that is sent. -/
theorem Sends.sentTemplate?_eq {channel : ChannelState} {address : String}
    {jobTemplate : JobTemplate} {sendPrevHash : Bool} {after : AfterJob}
    (h : Sends context handled channelId channel address jobTemplate sendPrevHash after) :
    context.sentTemplate? handled = some jobTemplate := by
  rcases h.source with ⟨isFirstChannel, rfl, -, -, hlatest⟩ | ⟨last, rfl, -, -⟩
  · exact hlatest
  · rfl

end

/-- The ids of the channels that there are have been given out. -/
theorem channelId_lt_counter (host : Externals) (config : Sv2Config) (inputs : List Sv2Input)
    {client : StratumV2Client}
    (hclient : ((sv2Machine host config).final .initial inputs).clients id = some client)
    {channel : ChannelState} (hchannel : client.channels.get? channelId = some channel) :
    channelId
      < ((sv2Machine host config).final .initial inputs).stratumV2Service.channelIdCounter := by
  have hmark : (holderOf client).channels.get? channelId = some (markOf channel) := by
    rw [holderOf, OrdMap.get?_mapValues, hchannel]
    rfl
  exact (prefixesHeld_final host config inputs).numbered id channelId _
    ⟨holderOf client, holdersOf_eq hclient, hmark⟩

/-- After the turn of a task, a property of a channel that its turn leaves. -/
theorem channelKeeps_resumes {P : ChannelState → Prop} {input : Sv2Input} {env : TurnEnv}
    {client taken : StratumV2Client} {handled : Handled} {origin : Origin}
    (hP : ∀ channel channel', P channel → Retains channel channel' → P channel')
    (h : ResumesTask host config world input id env client taken handled origin)
    (hlt : channelId < world.stratumV2Service.channelIdCounter)
    (hturned : ∀ channel, ((world.context taken).turn host config env
      handled).context.client.channels.get? channelId = some channel → P channel) :
    ChannelKeeps P id channelId (sv2Step host config world input).1 where
  numbered := hlt.trans_le (sv2Step_cases host config world input).counter_le
  holds client' hclient' channel' hchannel' := by
    rw [h.world_eq] at hclient'
    cases (clients_update_self id _).symm.trans hclient'
    obtain ⟨-, -, hvia⟩ := quiet_endTurn origin ((world.context taken).turn host config env handled)
    obtain ⟨channel, hchannel, hkeeps⟩ := hvia channelId channel' hchannel'
    exact hP channel channel' (hturned channel hchannel) hkeeps.retains

/-- An extended job of a channel is live. -/
def HasExtended (jobId : ℕ) (channel : ChannelState) : Prop :=
  ∃ job, channel.extendedJobs jobId = some job ∧ job.retiredAt = none

/-- A standard job of a channel has its merkle root. -/
def HasStandard (jobId : ℕ) (channel : ChannelState) : Prop :=
  (channel.jobIdToMerkleRoot jobId).isSome = true

theorem HasExtended.retains {jobId : ℕ} (channel channel' : ChannelState)
    (h : HasExtended jobId channel) (hretains : Retains channel channel') :
    HasExtended jobId channel' := by
  obtain ⟨job, hjob, hlive⟩ := h
  exact hretains.extendedJobs jobId job hjob hlive

theorem HasStandard.retains {jobId : ℕ} (channel channel' : ChannelState)
    (h : HasStandard jobId channel) (hretains : Retains channel channel') :
    HasStandard jobId channel' := hretains.merkleRoots jobId h

theorem hasExtended_setExtendedJob (channel : ChannelState) (jobId : ℕ) {data : ExtendedJobData}
    (hdata : data.retiredAt = none) : HasExtended jobId (channel.setExtendedJob jobId data) :=
  ⟨data, if_pos rfl, hdata⟩

section
variable {before : List Sv2Input} {send : Sv2Input} {jobId : ℕ}

/-- After a `NewMiningJob` the job is in the service and its merkle root in the channel. -/
theorem standard_sent {minNtime : Option ℤ} {version : ℤ} {merkleRoot : Digest}
    (hevent : .client id (.newMiningJob channelId jobId minNtime version merkleRoot)
      ∈ (sv2Step host config ((sv2Machine host config).final .initial before) send).2)
    {client : StratumV2Client} {handled : Handled} {jobTemplate block : JobTemplate}
    (hhandled : handledBy? ((sv2Machine host config).final .initial before) id send
      = some (client, handled))
    (hsends : (((sv2Machine host config).final .initial before).context client).sentTemplate?
      handled = some jobTemplate)
    (hblock : ((sv2Machine host config).final .initial before).jobs.getJobTemplateById
      jobTemplate.blockData.id = some block) :
    ∃ created, send.clock? = some created ∧
      Registered ((sv2Machine host config).final .initial (before ++ [send])).jobs jobId created
        block ∧
      ChannelKeeps (HasStandard jobId) id channelId
        ((sv2Machine host config).final .initial (before ++ [send])) := by
  have hnumbered : ((sv2Machine host config).final .initial before).jobs.Numbered :=
    numbered_run before StratumV1JobsService.numbered_initial
  have hcounter := @channelId_lt_counter id channelId host config before
  rw [Machine.final_append]
  show ∃ created, _ ∧
    Registered (sv2Step host config ((sv2Machine host config).final .initial before) send).1.jobs _ _
      _ ∧ ChannelKeeps _ _ _
        (sv2Step host config ((sv2Machine host config).final .initial before) send).1
  generalize (sv2Machine host config).final .initial before = world at *
  obtain ⟨env, client', taken, handled', origin, hresumes, hmem⟩ := resumes_of_event hevent
  obtain ⟨rfl, rfl⟩ := hresumes.handledBy_unique hhandled
  obtain ⟨channel, address, sent, sendPrevHash, after, job, root, hsent, hjob, rfl, hjobs, hclient⟩ :=
    storesStandard (turn_cases handled) (announces_turn env handled) hmem
  obtain ⟨hid, hcreated, htemplateId, -⟩ := MiningJob.fields_create host hjob
  have hsame : sent = jobTemplate := Option.some.inj (hsent.sentTemplate?_eq.symm.trans hsends)
  subst hsame
  have hnext := nextJobId_eq (world.context taken)
  refine ⟨env.now, ?_, ?_, ?_⟩
  · obtain ⟨k, rfl⟩ := hresumes.input_eq
    rfl
  · rw [hresumes.world_eq]
    show Registered (endTurn origin _).1.jobs _ _ _
    rw [(quiet_endTurn origin _).1, hjobs]
    refine ⟨hnumbered.addJob hid, ?_, job, ?_, hcreated, ?_⟩
    · rw [hnext]
      exact Nat.lt_succ_self _
    · show (if _ = job.jobId then some job else _) = some job
      rw [if_pos]
      rw [hid, hnext]
      rfl
    · rw [htemplateId]
      exact hblock
  · have hfound : client.channels.get? channelId = some channel := by
      have hfound := hsent.found
      rw [hresumes.takes.taken_eq] at hfound
      exact hfound
    refine channelKeeps_resumes HasStandard.retains hresumes
      (hcounter hresumes.takes.client_eq hfound) fun channel' hchannel' => ?_
    rw [hclient, StratumV2Client.modifyChannel, OrdMap.get?_modify] at hchannel'
    obtain ⟨old, -, rfl⟩ := Option.map_eq_some_iff.mp hchannel'
    rw [if_pos rfl]
    show (if _ then _ else _ : Option Digest).isSome = true
    rw [if_pos rfl]
    rfl

/-- After the success of a custom job the job is in its channel. -/
theorem custom_sent {requestId : ℕ}
    (hevent : .client id (.setCustomMiningJobSuccess channelId requestId jobId)
      ∈ (sv2Step host config ((sv2Machine host config).final .initial before) send).2) :
    ChannelKeeps (HasExtended jobId) id channelId
      ((sv2Machine host config).final .initial (before ++ [send])) := by
  have hcounter := @channelId_lt_counter id channelId host config before
  rw [Machine.final_append]
  show ChannelKeeps _ _ _
    (sv2Step host config ((sv2Machine host config).final .initial before) send).1
  generalize (sv2Machine host config).final .initial before = world at *
  obtain ⟨env, client, taken, handled, origin, hresumes, hmem⟩ := resumes_of_event hevent
  obtain ⟨channel, data, hfound, hdata, hclient⟩ :=
    (announces_turn env handled).installs channelId requestId jobId hmem
  have hfound : client.channels.get? channelId = some channel := by
    rw [hresumes.takes.taken_eq] at hfound
    exact hfound
  refine channelKeeps_resumes HasExtended.retains hresumes
    (hcounter hresumes.takes.client_eq hfound) fun channel' hchannel' => ?_
  rw [hclient, StratumV2Client.modifyChannel, OrdMap.get?_modify] at hchannel'
  obtain ⟨old, -, rfl⟩ := Option.map_eq_some_iff.mp hchannel'
  rw [if_pos rfl]
  exact hasExtended_setExtendedJob old jobId hdata

/-- When its handler goes on an extended job is in its channel. -/
theorem extended_finished {finish : Sv2Input} {client : StratumV2Client} {push : ExtendedPush}
    {after : AfterJob} (hlt : channelId < world.stratumV2Service.channelIdCounter)
    (hfinish : handledBy? world id finish
      = some (client, .wait (.extendedJobFrame channelId push after))) :
    ChannelKeeps (HasExtended push.jobId) id channelId (sv2Step host config world finish).1 := by
  obtain ⟨env, taken, origin, hresumes, hgoes⟩ := @resumes_of_handledBy? host config _ _ _ _ _ hfinish
  refine channelKeeps_resumes HasExtended.retains hresumes hlt fun channel' hchannel' => ?_
  have hnot : env.failed = false := by simpa [goesOn] using hgoes
  simp only [turn, hnot, Bool.false_eq_true, if_false, resume, finishExtendedJob,
    StratumV2Client.modifyChannel, OrdMap.get?_modify] at hchannel'
  obtain ⟨old, -, rfl⟩ := Option.map_eq_some_iff.mp hchannel'
  rw [if_pos trivial]
  exact ⟨pushedJob old push, if_pos rfl, rfl⟩

end

/-! ### Answers -/

section
variable {context : Context} {sequenceNumber : ℕ} {errorCode : String} {tuple : ShareTuple}
  {channel : ChannelState}

theorem judgeHeader_rejected {jobDifficulty : Option ℚ} {header : Option Bytes}
    {accept : Bytes → AcceptedShare}
    (h : judgeHeader host jobDifficulty header accept = .rejected errorCode) :
    errorCode = "difficulty-too-low" := by
  unfold judgeHeader at h
  split at h
  · cases h
  · split at h
    · split at h
      · cases h
      · cases h
    · cases h
      rfl

/-- A submission on a job that is found is rejected for its header or its extranonce only. -/
theorem rejected_of_found {jobs : StratumV1JobsService}
    (hfound : (tuple.extranonce = none → HasStandard tuple.jobId channel ∧
        ∃ created block, Registered jobs tuple.jobId created block) ∧
      (tuple.extranonce ≠ none → HasExtended tuple.jobId channel))
    (h : verdictOn host jobs channelId channel tuple = .rejected errorCode) :
    errorCode = "difficulty-too-low" ∨ errorCode = "invalid-extranonce-size" := by
  unfold verdictOn at h
  split at h
  · rename_i hextranonce
    obtain ⟨hroot, created, block, hregistered⟩ := hfound.1 hextranonce
    obtain ⟨root, hroot⟩ := Option.isSome_iff_exists.mp hroot
    obtain ⟨job, hjob, -, hblock⟩ := hregistered.job
    simp only [judgeStandard, hjob, hroot, hblock] at h
    exact Or.inl (judgeHeader_rejected h)
  · rename_i extranonce hextranonce
    obtain ⟨job, hjob, hlive⟩ := hfound.2 (by rw [hextranonce]; exact Option.some_ne_none _)
    simp only [judgeExtended, hjob, hlive, Option.isSome_none, Bool.false_eq_true, if_false] at h
    split at h
    · cases h
      exact Or.inr rfl
    · exact Or.inl (judgeHeader_rejected h)

/-- An error that is answered to a submission: a repetition, or its verdict. -/
theorem error_of_submitShare {channelId' sequenceNumber' : ℕ} {verdict : ShareVerdict}
    (h : .submitSharesError channelId' sequenceNumber' errorCode
      ∈ (context.submitShare channelId sequenceNumber channel tuple verdict).events) :
    (errorCode = "stale-share" ∧ tuple.submissionKey ∈ channel.miningSubmissionHashes) ∨
      verdict = .rejected errorCode := by
  unfold submitShare at h
  split at h
  · rename_i hkey
    cases mem_send h
    exact Or.inl ⟨rfl, hkey⟩
  · cases verdict with
    | rejected errorCode' =>
      cases mem_send h
      exact Or.inr rfl
    | threw => cases h
    | accepted share newSharesSum => cases mem_send h

/-- An error that is answered to a submission on an open channel. -/
theorem error_of_submission {env : TurnEnv} {message : Sv2Message}
    (hsubmission : message.submission? = some (channelId, tuple))
    (hopen : context.client.openChannel? channelId = some channel)
    (h : .submitSharesError channelId sequenceNumber errorCode
      ∈ (context.turn host config env (.frame message)).events) :
    (errorCode = "invalid-channel-id" ∧ tuple.extranonce ≠ none) ∨
      (errorCode = "stale-share" ∧ tuple.submissionKey ∈ channel.miningSubmissionHashes) ∨
      (tuple.extranonce ≠ none → channel.channelType = .extended) ∧
        verdictOn host context.jobs channelId channel tuple = .rejected errorCode := by
  cases message with
  | submitSharesStandard submission =>
    cases hsubmission
    simp only [turn, handleFrame, handleSubmitSharesStandard, hopen] at h
    rcases error_of_submitShare h with hstale | hrejected
    · exact Or.inr (Or.inl hstale)
    · exact Or.inr (Or.inr ⟨fun hne => absurd rfl hne, hrejected⟩)
  | submitSharesExtended submission =>
    cases hsubmission
    simp only [turn, handleFrame, handleSubmitSharesExtended, hopen, Option.filter_some] at h
    split at h
    · cases mem_send h
      exact Or.inl ⟨rfl, Option.some_ne_none _⟩
    · rename_i channel' hchannel'
      split at hchannel'
      · rename_i htype
        cases hchannel'
        rcases error_of_submitShare h with hstale | hrejected
        · exact Or.inr (Or.inl hstale)
        · exact Or.inr (Or.inr ⟨fun _ => of_decide_eq_true htype, hrejected⟩)
      · cases hchannel'
  | _ => cases hsubmission

end

section
variable {before between : List Sv2Input} {send submit : Sv2Input} {tuple : ShareTuple}

/-- A channel on which a job was announced is there already. -/
theorem announced_lt_counter
    (h : NamesAnnounced host config id before send between submit channelId tuple) :
    channelId
      < ((sv2Machine host config).final .initial before).stratumV2Service.channelIdCounter := by
  obtain ⟨event, hevent, hjob⟩ := h.sent
  obtain ⟨env, client, taken, handled, origin, hresumes, hmem⟩ := resumes_of_event hevent
  obtain ⟨channel, hfound⟩ := found_of_job? (turn_cases handled) (announces_turn env handled) hmem hjob
  rw [hresumes.takes.taken_eq] at hfound
  exact channelId_lt_counter host config before hresumes.takes.client_eq hfound

theorem final_between :
    (sv2Machine host config).final .initial (before ++ send :: between)
      = (sv2Machine host config).final
          ((sv2Machine host config).final .initial (before ++ [send])) between := by
  rw [← Machine.final_append, List.append_assoc]
  rfl

/-- What the condition finds when the submission comes. -/
theorem found_of_findsJob
    (h : NamesAnnounced host config id before send between submit channelId tuple)
    (hfinds : FindsJob host config id before send between channelId tuple) :
    ∀ client, ((sv2Machine host config).final .initial (before ++ send :: between)).clients id
        = some client →
      ∀ channel, client.channels.get? channelId = some channel →
        (tuple.extranonce = none → HasStandard tuple.jobId channel ∧ ∃ created block,
          Registered ((sv2Machine host config).final .initial (before ++ send :: between)).jobs
            tuple.jobId created block) ∧
        (tuple.extranonce ≠ none → channel.channelType = .extended →
          HasExtended tuple.jobId channel) := by
  intro client hclient channel hchannel
  cases hfinds with
  | refused hstandard hextranonce =>
    refine ⟨fun hnone => absurd hnone hextranonce, fun _ htype => ?_⟩
    rw [hstandard client hclient channel hchannel] at htype
    cases htype
  | standard hextranonce hframe hhandled hsends hblock hage hreplays =>
    refine ⟨fun _ => ?_, fun hne => absurd hextranonce hne⟩
    obtain ⟨minNtime, version, merkleRoot, hevent⟩ := hframe
    obtain ⟨created, hclock, hregistered, hkeeps⟩ := standard_sent hevent hhandled hsends hblock
    have hchannels := hkeeps.run HasStandard.retains h.noClear hreplays
    have hjobs := @Registered.run host config _ _ _ _ hregistered between h.noClear
      (fun input hinput => h.young created hclock input (List.mem_append_left _ hinput)) hage
    rw [← final_between] at hchannels hjobs
    exact ⟨hchannels.holds client hclient channel hchannel, created, _, hjobs⟩
  | @extended early late finish client' push after hextranonce hbetween hfinish hpush hreplays =>
    refine ⟨fun hnone => absurd hnone hextranonce, fun _ _ => ?_⟩
    have hlt := (announced_lt_counter h).trans_le
      (@counter_le_run host config _ (send :: early))
    rw [← Machine.final_append] at hlt
    have hstored : ChannelKeeps (HasExtended tuple.jobId) id channelId
        ((sv2Machine host config).final .initial (before ++ send :: early ++ [finish])) := by
      rw [Machine.final_append, ← hpush]
      exact extended_finished hlt hfinish
    have hlate := hstored.run HasExtended.retains
      (fun template now hmem => h.noClear template now (by
        rw [hbetween]
        exact List.mem_append_right _ (List.mem_cons_of_mem _ hmem)))
      hreplays
    rw [← Machine.final_append] at hlate
    have hrun : before ++ send :: early ++ [finish] ++ late = before ++ send :: between := by
      rw [hbetween]
      simp only [List.append_assoc, List.cons_append, List.nil_append]
    rw [hrun] at hlate
    exact hlate.holds client hclient channel hchannel
  | custom hextranonce hcustom hreplays =>
    refine ⟨fun hnone => absurd hnone hextranonce, fun _ _ => ?_⟩
    have hchannels := (custom_sent hcustom).run HasExtended.retains h.noClear hreplays
    rw [← final_between] at hchannels
    exact hchannels.holds client hclient channel hchannel

/-- In every run, a submission on a job that was announced, is young and was not cleared is found,
and refused as stale only if it was made before, if the look-up has what it takes. -/
theorem resolves_of_finds (host : Externals) (config : Sv2Config) (id : ℕ)
    (before : List Sv2Input) (send : Sv2Input) (between : List Sv2Input) (submit : Sv2Input)
    (hfinds : ∀ channelId tuple,
      NamesAnnounced host config id before send between submit channelId tuple →
        FindsJob host config id before send between channelId tuple) :
    Resolves host config id before send between submit := by
  intro channelId tuple hnames
  have hfound := found_of_findsJob hnames (hfinds channelId tuple hnames)
  obtain ⟨client, channel, hclient, hopen⟩ := hnames.isOpen
  have hchannel := (openChannel?_eq_some hopen).1
  -- an error is one of four
  have herror (sequenceNumber : ℕ) (errorCode : String)
      (herror : .client id (.submitSharesError channelId sequenceNumber errorCode)
        ∈ (sv2Step host config
          ((sv2Machine host config).final .initial (before ++ send :: between)) submit).2) :
      errorCode = "invalid-channel-id" ∨ errorCode = "difficulty-too-low" ∨
        errorCode = "invalid-extranonce-size" ∨
        errorCode = "stale-share" ∧ tuple.submissionKey ∈ channel.miningSubmissionHashes := by
    obtain ⟨taken', htaken, hsubmission⟩ := Option.bind_eq_some_iff.mp hnames.submits
    obtain ⟨env, client', taken, handled, origin, hresumes, hevent⟩ := resumes_of_event herror
    obtain ⟨client'', handled'⟩ := taken'
    obtain ⟨rfl, rfl⟩ := hresumes.handledBy_unique htaken
    cases hclient.symm.trans hresumes.takes.client_eq
    cases handled' with
    | wait wait => cases hsubmission
    | frame message =>
      have hopened : taken.openChannel? channelId = some channel := by
        rw [hresumes.takes.taken_eq]
        exact hopen
      rcases error_of_submission hsubmission hopened hevent with
        ⟨hcode, -⟩ | hstale | ⟨htype, hrejected⟩
      · exact Or.inl hcode
      · exact Or.inr (Or.inr (Or.inr hstale))
      · obtain ⟨hnone, hsome⟩ := hfound client hclient channel hchannel
        rcases rejected_of_found ⟨hnone, fun hne => hsome hne (htype hne)⟩ hrejected with
          hlow | hsize
        · exact Or.inr (Or.inl hlow)
        · exact Or.inr (Or.inr (Or.inl hsize))
  constructor
  · intro sequenceNumber hmem
    rcases herror sequenceNumber _ hmem with hcode | hcode | hcode | ⟨hcode, -⟩
    all_goals
      revert hcode
      decide
  · intro sequenceNumber hmem
    rcases herror sequenceNumber _ hmem with hcode | hcode | hcode | ⟨-, hkey⟩
    · exact absurd hcode (by decide)
    · exact absurd hcode (by decide)
    · exact absurd hcode (by decide)
    · obtain ⟨tuple', hmade, hsame⟩ :=
        seenInv host config id (before ++ send :: between) client hclient channelId channel hchannel
          _ hkey
      rwa [← ShareTuple.submissionKey_inj hsame]

end

end

/-! ### A template that ages before its job -/

namespace Sv2Sample

/-- Connection 0 goes on at a time, in milliseconds after the first template. -/
def resumeAt (ms : ℕ) : Sv2Input := .resume 0 0 { env with now := 1700000000000 + ms }

/-- Connection 0 opens a standard channel 50 seconds after a template, and subscribes. -/
def subscribed : List Sv2Input :=
  [.connect 0 "s" .solo, .template (template 7 true) 1700000000000, .data 0 [openStandard]]
    ++ List.replicate 6 (resumeAt 50000)

/-- The frames of job 2 are written, and a share on it comes in. -/
def minedAtOnce : List Sv2Input :=
  List.replicate 4 (resumeAt 50000) ++ [.data 0 [.submitSharesStandard (submission 2 5)]]

/-- The frames of job 2 are written. Then there is a template every 60.5 seconds, each with a job of
its own, and after the fifth one a share on job 2 comes in. -/
def minedLater : List Sv2Input :=
  List.replicate 4 (resumeAt 50000)
    ++ (List.range 5).flatMap (fun k =>
      .template (template 7 false) (1700000060500 + 60500 * k)
        :: List.replicate 5 (resumeAt (60500 + 60500 * k)))
    ++ [.data 0 [.submitSharesStandard (submission 2 5)]]

/-- Whether an output hands out job 2 on channel 1 with a `NewMiningJob`. -/
def sendsJobTwo : Sv2Output → Bool
  | .client 0 (.newMiningJob 1 2 _ _ _) => true
  | _ => false

theorem exists_of_sendsJobTwo {outputs : List Sv2Output} (h : outputs.any sendsJobTwo = true) :
    ∃ minNtime version merkleRoot,
      .client 0 (.newMiningJob 1 2 minNtime version merkleRoot) ∈ outputs := by
  obtain ⟨output, houtput, hsends⟩ := List.any_eq_true.mp h
  unfold sendsJobTwo at hsends
  split at hsends
  · exact ⟨_, _, _, houtput⟩
  · cases hsends

/-- Whether an output refuses a share on channel 1 because its job is not known. -/
def refusesJob : Sv2Output → Bool
  | .client 0 (.submitSharesError 1 0 "invalid-job-id") => true
  | _ => false

theorem refused_of_refusesJob {outputs : List Sv2Output} (h : outputs.any refusesJob = true) :
    .client 0 (.submitSharesError 1 0 "invalid-job-id") ∈ outputs := by
  obtain ⟨output, houtput, hrefuses⟩ := List.any_eq_true.mp h
  unfold refusesJob at hrefuses
  split at hrefuses
  · exact houtput
  · cases hrefuses

/-- Inputs without a template that clears jobs. -/
def clearless (inputs : List Sv2Input) : Bool :=
  inputs.all fun
    | .template template _ => !template.blockData.clearJobs
    | _ => true

theorem noClear_of_clearless {inputs : List Sv2Input} (h : clearless inputs = true) :
    ∀ template now, .template template now ∈ inputs → template.blockData.clearJobs = false := by
  intro template now hmem
  have htemplate := List.all_eq_true.mp h _ hmem
  simpa using htemplate

end Sv2Sample

open Sv2Sample in
/-- The template of job 2 is dropped with the fifth one, when the job is 252 seconds old. -/
theorem not_resolves_aged_template :
    ¬ Resolves host config 0 subscribed (resumeAt 50000) minedLater (resumeAt 303000) := by
  intro h
  have hopen : (((sv2Machine host config).final .initial
      (subscribed ++ resumeAt 50000 :: minedLater)).clients 0).any
        (fun client => (client.openChannel? 1).isSome) = true := by
    decide +kernel
  have hnames : NamesAnnounced host config 0 subscribed (resumeAt 50000) minedLater
      (resumeAt 303000) 1 (submission 2 5).tuple := by
    refine ⟨?_, noClear_of_clearless (by decide +kernel), by decide +kernel, by decide +kernel, ?_⟩
    · have hsends : (sv2Step host config ((sv2Machine host config).final .initial subscribed)
          (resumeAt 50000)).2.any sendsJobTwo = true := by
        decide +kernel
      obtain ⟨minNtime, version, merkleRoot, hmem⟩ := exists_of_sendsJobTwo hsends
      exact ⟨_, hmem, rfl⟩
    · obtain ⟨client, hclient, hchannel⟩ := (Option.any_eq_true _ _).mp hopen
      obtain ⟨channel, hchannel⟩ := Option.isSome_iff_exists.mp hchannel
      exact ⟨client, channel, hclient, hchannel⟩
  have hanswer : ((sv2Step host config ((sv2Machine host config).final .initial
      (subscribed ++ resumeAt 50000 :: minedLater)) (resumeAt 303000)).2.any refusesJob) = true := by
    decide +kernel
  exact (h 1 _ hnames).found 0 (refused_of_refusesJob hanswer)

open Sv2Sample in
theorem resolves_of_finds_sample :
    Resolves host config 0 subscribed (resumeAt 50000) minedAtOnce (resumeAt 60000) := by
  refine resolves_of_finds host config 0 _ _ _ _ fun channelId tuple hnames => ?_
  have hsubmits : submissionBy? ((sv2Machine host config).final .initial
      (subscribed ++ resumeAt 50000 :: minedAtOnce)) 0 (resumeAt 60000)
        = some (1, (submission 2 5).tuple) := by
    decide +kernel
  cases hnames.submits.symm.trans hsubmits
  have htemplate : (((handledBy? ((sv2Machine host config).final .initial subscribed) 0
      (resumeAt 50000)).bind fun taken =>
        (((sv2Machine host config).final .initial subscribed).context taken.1).sentTemplate?
          taken.2).bind fun jobTemplate =>
        ((sv2Machine host config).final .initial subscribed).jobs.getJobTemplateById
          jobTemplate.blockData.id).isSome = true := by
    decide +kernel
  obtain ⟨block, hblock⟩ := Option.isSome_iff_exists.mp htemplate
  obtain ⟨jobTemplate, hsent, hblock⟩ := Option.bind_eq_some_iff.mp hblock
  obtain ⟨⟨client, handled⟩, hhandled, hsends⟩ := Option.bind_eq_some_iff.mp hsent
  refine .standard rfl (exists_of_sendsJobTwo (by decide +kernel)) hhandled hsends hblock ?_
    (by decide +kernel)
  -- no template comes in between
  intro template now hmem
  have hnone : (minedAtOnce.any fun
      | .template _ _ => true
      | _ => false) = false := by
    decide +kernel
  exact absurd (List.any_eq_true.mpr ⟨_, hmem, rfl⟩) (by rw [hnone]; exact Bool.false_ne_true)

end PublicPool.Proofs
