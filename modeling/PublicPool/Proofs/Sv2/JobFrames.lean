import PublicPool.Proofs.Sv2.Rules

/-!
# `PublicPool.Proofs.Sv2.JobFrames`: the frames of a job and the handler that writes them

A pool job is announced with `NewMiningJob` or `NewExtendedMiningJob`, and the handler that hands
the frame to the socket waits for it to be written. `announces_turn` ties the two: a turn that
announces a job ends at the point that names the job. So what a channel was sent can be read off
the cases of `TurnCase`, which say where a turn ends.

`sv2Step_client` is `client_cases` with the turn itself: the one of a task, or the timer's.
-/

set_option autoImplicit false

namespace PublicPool.Sv2

/-- The channel and the id of the job that a frame hands to the miner. -/
def Sv2Event.job? : Sv2Event → Option (ℕ × ℕ)
  | .newMiningJob channelId jobId _ _ _ | .newExtendedMiningJob channelId jobId _ _ _ _ _
  | .setCustomMiningJobSuccess channelId _ jobId => some (channelId, jobId)
  | _ => none

/-- The job whose frame a handler writes: its channel, its id and its version. -/
def Wait.writes? : Wait → Option (ℕ × ℕ × ℤ)
  | .standardJobFrame channelId jobId jobTemplate _ _ =>
    some (channelId, jobId, jobTemplate.block.version)
  | .extendedJobFrame channelId push _ =>
    some (channelId, push.jobId, push.jobTemplate.block.version)
  | _ => none

end PublicPool.Sv2

namespace PublicPool.Proofs

open Sv2
open Sv2.Context

/-- The job that a frame announces: its channel, its id and its version. -/
def announcedJob : Sv2Event → Option (ℕ × ℕ × ℤ)
  | .newMiningJob channelId jobId _ version _
  | .newExtendedMiningJob channelId jobId _ version _ _ _ => some (channelId, jobId, version)
  | _ => none

/-- Events that hand out no job. -/
def Jobless (events : List Sv2Event) : Prop := ∀ event ∈ events, event.job? = none

theorem announcedJob_of_job? {event : Sv2Event} (h : event.job? = none) :
    announcedJob event = none := by
  cases event with
  | newMiningJob | newExtendedMiningJob => cases h
  | _ => rfl

/-- A turn that announces a job has added it and waits for its frame to be written; `NewMiningJob` is
the frame of a standard job. A custom job is in its channel when its success is sent. -/
structure Announces (context : Context) (turn : Turn) : Prop where
  writes : ∀ event ∈ turn.events, ∀ announced ∈ announcedJob event,
    ∃ wait, turn.next = .waits wait ∧ wait.writes? = some announced
  adds : ∀ event ∈ turn.events, announcedJob event ≠ none →
    turn.context.jobs.latestJobId = context.jobs.latestJobId + 1
  standards : ∀ channelId jobId minNtime version merkleRoot,
    .newMiningJob channelId jobId minNtime version merkleRoot ∈ turn.events →
      ∃ jobTemplate sendPrevHash after,
        turn.next = .waits (.standardJobFrame channelId jobId jobTemplate sendPrevHash after)
  installs : ∀ channelId requestId jobId,
    .setCustomMiningJobSuccess channelId requestId jobId ∈ turn.events →
      ∃ channel data, context.client.channels.get? channelId = some channel ∧
        data.retiredAt = none ∧
        turn.context.client
          = context.client.modifyChannel channelId (ChannelState.setExtendedJob · jobId data)

section
variable {host : Externals} {config : Sv2Config} {context context' : Context}
  {events : List Sv2Event}
  {next : Next}

theorem jobless_nil : Jobless [] := fun _ hevent => absurd hevent List.not_mem_nil

variable {event : Sv2Event}

theorem jobless_singleton (h : event.job? = none) : Jobless [event] := by
  intro event' hevent
  rwa [List.mem_singleton.mp hevent]

theorem mem_send {event' : Sv2Event} (h : event' ∈ context.send event) : event' = event := by
  unfold send at h
  split at h
  · cases h
  · exact List.mem_singleton.mp h

theorem jobless_send (h : event.job? = none) : Jobless (context.send event) := by
  intro event' hevent
  rwa [mem_send hevent]

theorem Jobless.announces (h : Jobless events) :
    Announces context { context := context', events, next } where
  writes event hevent announced hannounced := by
    rw [announcedJob_of_job? (h event hevent)] at hannounced
    cases hannounced
  adds event hevent hannounced := absurd (announcedJob_of_job? (h event hevent)) hannounced
  standards channelId jobId minNtime version merkleRoot hevent := by cases h _ hevent
  installs channelId requestId jobId hevent := by cases h _ hevent

theorem announces_replies (h : event.job? = none) (thenClose : Bool) :
    Announces context (context'.replies event thenClose) := (jobless_send h).announces

/-! ### One case for each handler -/

theorem announces_handleSetupConnection (message : Sv2SetupConnection) :
    Announces context (context.handleSetupConnection message) := by
  unfold handleSetupConnection
  split
  · exact announces_replies rfl _
  · split
    · exact announces_replies rfl _
    · simp only
      split
      · exact announces_replies rfl _
      · exact announces_replies rfl _

theorem announces_handleOpenStandardMiningChannel (message : Sv2OpenStandardMiningChannel)
    (random : UInt8 × UInt8) :
    Announces context (context.handleOpenStandardMiningChannel host config message random) := by
  unfold handleOpenStandardMiningChannel
  simp only
  split
  · exact announces_replies rfl _
  · exact jobless_nil.announces

theorem announces_handleOpenExtendedMiningChannel (message : Sv2OpenExtendedMiningChannel) :
    Announces context (context.handleOpenExtendedMiningChannel host config message) := by
  unfold handleOpenExtendedMiningChannel
  simp only
  split
  · exact announces_replies rfl _
  · split
    · exact jobless_nil.announces
    · split
      · exact announces_replies rfl _
      · exact jobless_nil.announces

theorem announces_submitShare (channelId sequenceNumber : ℕ) (channel : ChannelState)
    (tuple : ShareTuple) (verdict : ShareVerdict) :
    Announces context
      (context.submitShare channelId sequenceNumber channel tuple verdict) := by
  unfold submitShare
  split
  · exact announces_replies rfl _
  · cases verdict with
    | rejected errorCode => exact announces_replies rfl _
    | threw => exact jobless_nil.announces
    | accepted share newSharesSum => exact (jobless_send rfl).announces

theorem announces_handleSubmitSharesStandard (submission : Sv2SubmitSharesStandard) :
    Announces context (context.handleSubmitSharesStandard host submission) := by
  unfold handleSubmitSharesStandard
  simp only
  split
  · exact announces_replies rfl _
  · exact announces_submitShare ..

theorem announces_handleSubmitSharesExtended (submission : Sv2SubmitSharesExtended) :
    Announces context (context.handleSubmitSharesExtended host submission) := by
  unfold handleSubmitSharesExtended
  simp only
  split
  · exact announces_replies rfl _
  · exact announces_submitShare ..

variable (message : Sv2SetCustomMiningJob) (channelId : ℕ) (after : AfterJob) (now : ℕ)
  (env : TurnEnv)

theorem announces_handleSetCustomMiningJob (declaredJob : Option Sv2DeclaredMiningJob) :
    Announces context (context.handleSetCustomMiningJob message declaredJob) := by
  have hfails (errorCode : String) : Announces context (context.replies (.setCustomMiningJobError
      message.channelId.toNat message.requestId.toNat errorCode)) := announces_replies rfl _
  unfold handleSetCustomMiningJob
  simp only
  split
  · exact hfails _
  · split
    · exact hfails _
    · split
      · exact hfails _
      · split
        · exact hfails _
        · split
          · exact hfails _
          · split
            · exact hfails _
            · exact jobless_nil.announces

theorem announces_handleUpdateChannel (message : Sv2UpdateChannel) :
    Announces context (context.handleUpdateChannel config message) := by
  unfold handleUpdateChannel
  split
  · exact jobless_nil.announces
  · simp only
    split
    · exact jobless_nil.announces
    · exact announces_replies rfl _

/-- The frames of a job name the job that their handler waits to write. -/
theorem announces_sendJob (jobTemplate : JobTemplate) (sendPrevHash : Bool) (after : AfterJob)
    (now : ℕ) :
    Announces context
      (context.sendJob host config channelId jobTemplate sendPrevHash after now) := by
  unfold sendJob
  split
  · split
    · unfold sendNewMiningJob
      split
      · exact jobless_nil.announces
      · simp only
        split
        · exact jobless_nil.announces
        · refine ⟨fun event hevent announced hannounced => ?_, fun _ _ _ => rfl, ?_, ?_⟩
          · rw [mem_send hevent] at hannounced
            exact ⟨_, rfl, hannounced⟩
          · intro channelId jobId minNtime version merkleRoot hevent
            cases mem_send hevent
            exact ⟨_, _, _, rfl⟩
          · intro channelId requestId jobId hevent
            cases mem_send hevent
    · unfold sendNewExtendedMiningJob
      split
      · exact jobless_nil.announces
      · refine ⟨fun event hevent announced hannounced => ?_, fun _ _ _ => rfl, ?_, ?_⟩
        · rw [mem_send hevent] at hannounced
          exact ⟨_, rfl, hannounced⟩
        · intro channelId jobId minNtime version merkleRoot hevent
          cases mem_send hevent
        · intro channelId requestId jobId hevent
          cases mem_send hevent
  · exact jobless_nil.announces

theorem announces_afterJob : Announces context (context.afterJob host config after now) := by
  cases after with
  | opening isFirstChannel =>
    simp only [afterJob]
    split
    · exact jobless_nil.announces
    · exact jobless_nil.announces
  | loop jobTemplate sendPrevHash channelId =>
    simp only [afterJob]
    split
    · exact jobless_nil.announces
    · exact announces_sendJob ..

theorem announces_afterOpenEntity (channelId requestId : ℕ) (isFirstChannel : Bool) :
    Announces context (context.afterOpenEntity channelId requestId isFirstChannel) := by
  refine Jobless.announces ?_
  split
  · exact jobless_nil
  · simp only
    split
    · exact jobless_send rfl
    · exact jobless_send rfl

theorem announces_nextTarget (targetDiff : ℚ) (channelId : ℕ) :
    Announces context (context.nextTarget config targetDiff channelId) := by
  unfold nextTarget
  split
  · exact jobless_nil.announces
  · exact (jobless_send rfl).announces

theorem announces_installCustomJob (latestTemplate : JobTemplate) (now : ℕ) :
    Announces context (context.installCustomJob host config message latestTemplate now) := by
  unfold installCustomJob
  split
  · rename_i channel address hchannel haddress
    simp only
    split
    · exact jobless_nil.announces
    · exact announces_replies rfl _
    · split
      · exact jobless_nil.announces
      · refine ⟨fun event hevent announced hannounced => ?_, fun event hevent hannounced => ?_,
          ?_, ?_⟩
        · rw [mem_send hevent] at hannounced
          cases hannounced
        · rw [mem_send hevent] at hannounced
          exact absurd rfl hannounced
        · intro channelId jobId minNtime version merkleRoot hevent
          cases mem_send hevent
        · intro channelId requestId jobId hevent
          cases mem_send hevent
          exact ⟨channel, _, hchannel, rfl, rfl⟩
  · exact jobless_nil.announces

theorem announces_withTemplate {wait : Wait} {handler : JobTemplate → Turn}
    (h : ∀ jobTemplate, Announces context (handler jobTemplate)) :
    Announces context (context.withTemplate wait handler) := by
  unfold withTemplate
  split
  · exact h _
  · exact jobless_nil.announces

theorem announces_resume (wait : Wait) :
    Announces context (context.resume host config env wait) := by
  cases wait with
  | nextFrame | recordShare | reply | finalizeSnapshot => exact jobless_nil.announces
  | openEntity channelId requestId isFirstChannel => exact announces_afterOpenEntity ..
  | openReply channelId isFirstChannel =>
    simp only [resume, afterOpenReply]
    split
    · exact jobless_nil.announces
    · exact jobless_nil.announces
  | firstTemplate channelId isFirstChannel =>
    exact announces_withTemplate fun _ => announces_sendJob ..
  | standardJobFrame channelId jobId jobTemplate sendPrevHash after =>
    refine Jobless.announces ?_
    split
    · exact jobless_send rfl
    · exact jobless_nil
  | extendedJobFrame channelId push after =>
    refine Jobless.announces ?_
    split
    · exact jobless_send rfl
    · exact jobless_nil
  | prevHashFrame after => exact announces_afterJob after _
  | targetFrame targetDiff channelId => exact announces_nextTarget targetDiff channelId
  | refreshTemplate => exact announces_withTemplate fun _ => jobless_nil.announces
  | customTemplate message => exact announces_withTemplate fun _ => announces_installCustomJob ..
  | shareReply share =>
    simp only [resume, afterShareReply]
    split
    · exact (jobless_singleton rfl).announces
    · exact jobless_nil.announces
    · exact jobless_nil.announces
  | submitBlock share coinbase blockHex => exact (jobless_singleton rfl).announces
  | saveBlock share coinbase blockSubmissionResult =>
    refine Jobless.announces ?_
    split
    · exact jobless_singleton rfl
    · exact jobless_nil
  | notifyBlock share blockSubmissionResult => exact (jobless_singleton rfl).announces

/-- Every turn waits for the frames of the job that it announces. -/
theorem announces_turn (handled : Handled) :
    Announces context (context.turn host config env handled) := by
  cases handled with
  | frame message =>
    cases message with
    | setupConnection message => exact announces_handleSetupConnection message
    | openStandardMiningChannel message =>
      exact announces_handleOpenStandardMiningChannel message _
    | openExtendedMiningChannel message => exact announces_handleOpenExtendedMiningChannel message
    | submitSharesStandard submission => exact announces_handleSubmitSharesStandard submission
    | submitSharesExtended submission => exact announces_handleSubmitSharesExtended submission
    | setCustomMiningJob message => exact announces_handleSetCustomMiningJob message _
    | updateChannel message => exact announces_handleUpdateChannel message
    | closeChannel | malformed | unsupported => exact jobless_nil.announces
  | wait wait =>
    simp only [turn]
    split
    · exact jobless_nil.announces
    · exact announces_resume env wait

theorem announces_checkDifficulty (suggested : Option ℚ) :
    Announces context (context.checkDifficulty config suggested) := by
  unfold checkDifficulty
  split
  · exact jobless_nil.announces
  · split
    · exact jobless_nil.announces
    · exact jobless_nil.announces

end

/-! ### The turn of a step -/

/-- The turn that a step runs: of a task, or of the difficulty timer. -/
inductive RunsTurn (host : Externals) (config : Sv2Config) (context : Context) :
    Sv2Input → Handled → Turn → Prop
  | resumes (id k : ℕ) (env : TurnEnv) (handled : Handled) :
      RunsTurn host config context (.resume id k env) handled
        (context.turn host config env handled)
  | checks (id : ℕ) (suggested : Option ℚ) :
      RunsTurn host config context (.checkDifficulty id suggested) (.wait .recordShare)
        (context.checkDifficulty config suggested)

section
variable {host : Externals} {config : Sv2Config} {context : Context} {input : Sv2Input}
  {handled : Handled} {turn : Turn}

theorem RunsTurn.announces (h : RunsTurn host config context input handled turn) :
    Announces context turn := by
  cases h with
  | resumes id k env handled => exact announces_turn env handled
  | checks id suggested => exact announces_checkDifficulty suggested

/-- A turn that announces a job: the next one, of the template that its handler sends. -/
inductive AnnouncesJob (host : Externals) (config : Sv2Config) (env : TurnEnv) (context : Context)
    (handled : Handled) (announced : ℕ × ℕ × ℤ) (turn : Turn) : Prop
  | intro {channelId : ℕ} {channel : ChannelState} {address : String} {jobTemplate : JobTemplate}
      {sendPrevHash : Bool} {after : AfterJob} {job : MiningJob}
      (hsends : Sends context handled channelId channel address jobTemplate sendPrevHash after)
      (hjob : CreatesJob host config context address jobTemplate env.now job)
      (hannounced : announced = (channelId, context.nextJobId, jobTemplate.block.version))
      (hjobs : turn.context.jobs = context.jobs.addJob job)

theorem writes?_of_share? {wait : Wait} {share : AcceptedShare} (h : wait.share? = some share) :
    wait.writes? = none := by
  cases wait with
  | shareReply | submitBlock | saveBlock | finalizeSnapshot | notifyBlock => rfl
  | _ => cases h

/-- What is announced in a turn is the job that it sends. -/
theorem TurnCase.announcesJob {env : TurnEnv}
    (hturn : TurnCase host config env context handled turn) (h : Announces context turn)
    {event : Sv2Event} (hevent : event ∈ turn.events) {announced : ℕ × ℕ × ℤ}
    (hannounced : announcedJob event = some announced) :
    AnnouncesJob host config env context handled announced turn := by
  obtain ⟨wait, hnext, hwrites⟩ := h.writes event hevent announced hannounced
  have hadds := h.adds event hevent (by simp [hannounced])
  cases hturn with
  | quiet hquiet =>
    -- a quiet turn adds no job
    rw [hquiet.jobs] at hadds
    exact absurd hadds (Nat.ne_of_lt (Nat.lt_succ_self _))
  | subscribes _ hselection hsubscription =>
    rw [afterJob_subscribes hselection hsubscription] at hnext
    cases hnext
  | sendsStandard hsends _ hjob =>
    cases hnext
    exact .intro hsends hjob (Option.some.inj hwrites).symm rfl
  | beginsExtended hsends _ hjob =>
    cases hnext
    exact .intro hsends hjob (Option.some.inj hwrites).symm rfl
  | remembers _ _ hleft =>
    rcases hleft with rfl | rfl
    · cases hnext
    · cases hnext
      cases hwrites
  | carries _ _ hshare =>
    cases hnext
    rw [writes?_of_share? hshare] at hwrites
    cases hwrites
  | addsJob => cases hnext
  | opens | finishes | installs | accepts | records =>
    cases hnext
    cases hwrites

/-- What becomes of a connection that has no turn. -/
inductive Moved (world : Sv2World) (input : Sv2Input) (client : StratumV2Client) :
    StratumV2Client → Prop
  | stays : Moved world input client client
  | closes : Moved world input client (world.context client).closeSocket.client
  | template {template : JobTemplate} {now : ℕ} (hinput : input = .template template now) :
      Moved world input client
        (client.receiveTemplate (world.jobs.numberTemplate template now) now)
  | data {id : ℕ} {frames : List Sv2Message} (hinput : input = .data id frames) :
      Moved world input client (client.receive frames)

theorem Moved.moves {world : Sv2World} {input : Sv2Input} {client client' : StratumV2Client}
    (h : Moved world input client client') : Moves client client' := by
  cases h with
  | stays => exact .refl client
  | closes =>
    have hquiet := (quiet_closeSocket (world.context client)).1
    refine ⟨fun channelId channel' hchannel' => ?_, carriesOn_of_tasks hquiet.tasks⟩
    obtain ⟨channel, hchannel, hkeeps⟩ := hquiet.channels channelId channel' hchannel'
    exact ⟨channel, hchannel, Or.inl hkeeps⟩
  | template => exact moves_receiveTemplate client _ _
  | data => exact moves_receive client _

/-- What a step is for one connection, with the turn that it runs. -/
inductive ConnectionStep (host : Externals) (config : Sv2Config) (world : Sv2World) (input : Sv2Input)
    (id : ℕ) (world' : Sv2World) (events : List Sv2Output) : Prop
  | absent (hbefore : world.clients id = none) (hafter : world'.clients id = none)
      (hevents : ∀ event, .client id event ∉ events)
  | connects {sessionId : String} {payoutMode : PayoutMode} (hbefore : world.clients id = none)
      (hafter : world'.clients id = some (.initial config sessionId payoutMode))
      (hevents : ∀ event, .client id event ∉ events)
  | moves {client client' : StratumV2Client} (hbefore : world.clients id = some client)
      (hafter : world'.clients id = some client') (hmoved : Moved world input client client')
      (hevents : ∀ event, .client id event ∉ events) (hidle : handledBy? world id input = none)
  | turns {client taken : StratumV2Client} {handled : Handled} {origin : Origin} {env : TurnEnv}
      {turn : Turn} (htakes : Takes world input id client taken handled origin)
      (hruns : RunsTurn host config (world.context taken) input handled turn)
      (hturn : TurnCase host config env (world.context taken) handled turn)
      (hgoes : GoesOn world input id client handled turn)
      (hworld : world' = world.update id (endTurn origin turn).1)
      (hevents : events = turn.events.map (.client id))

/-- A step that leaves one connection alone. -/
theorem connectionStep_same {world world' : Sv2World} {id : ℕ} {events : List Sv2Output}
    (hsame : world'.clients id = world.clients id) (hevents : ∀ event, .client id event ∉ events)
    (hidle : handledBy? world id input = none) :
    ConnectionStep host config world input id world' events := by
  cases hclient : world.clients id with
  | none => exact .absent hclient (hsame.trans hclient) hevents
  | some client => exact .moves hclient (hsame.trans hclient) .stays hevents hidle

end

/-- A connection is absent, is left alone, or has the turn of the input. -/
theorem sv2Step_client (host : Externals) (config : Sv2Config) (world : Sv2World)
    (input : Sv2Input) (id : ℕ) :
    ConnectionStep host config world input id (sv2Step host config world input).1
      (sv2Step host config world input).2 := by
  have hsilent : ∀ event, Sv2Output.client id event ∉ ([] : List Sv2Output) :=
    fun _ => List.not_mem_nil
  cases input with
  | connect id' sessionId payoutMode =>
    simp only [sv2Step]
    split
    · rename_i hnone
      by_cases hid : id = id'
      · subst hid
        exact .connects hnone (clients_update_self id _) hsilent
      · exact connectionStep_same (clients_update_other hid _) hsilent rfl
    · exact connectionStep_same rfl hsilent rfl
  | disconnect id' =>
    simp only [sv2Step]
    split
    · exact connectionStep_same rfl hsilent rfl
    · rename_i client hclient
      by_cases hid : id = id'
      · subst hid
        exact .moves hclient (clients_update_self id _) .closes hsilent rfl
      · exact connectionStep_same (clients_update_other hid _) hsilent rfl
  | template template now =>
    have hother (event : Sv2Event) : Sv2Output.client id event
        ∉ [Sv2Output.published (world.jobs.numberTemplate template now)] := by simp
    cases hclient : world.clients id with
    | none => exact .absent hclient (congrArg (Option.map _) hclient) hother
    | some client =>
      exact .moves hclient (congrArg (Option.map _) hclient) (.template rfl) hother rfl
  | data id' frames =>
    simp only [sv2Step]
    split
    · exact connectionStep_same rfl hsilent rfl
    · rename_i client hclient
      by_cases hid : id = id'
      · subst hid
        exact .moves hclient (clients_update_self id _) (.data rfl) hsilent rfl
      · exact connectionStep_same (clients_update_other hid _) hsilent rfl
  | resume id' k env =>
    have hnone (h : ∀ client, world.clients id = some client → id = id' →
        client.tasks[k]? = none) : handledBy? world id (.resume id' k env) = none := by
      simp only [handledBy?]
      split
      · rename_i hid
        cases hclient : world.clients id with
        | none => rfl
        | some client =>
          rw [Option.bind_some, h client hclient hid.symm]
          rfl
      · rfl
    simp only [sv2Step]
    split
    · rename_i habsent
      refine connectionStep_same rfl hsilent (hnone fun client hclient hid => ?_)
      cases habsent.symm.trans (hid ▸ hclient)
    · rename_i client hclient
      split
      · rename_i htask
        refine connectionStep_same rfl hsilent (hnone fun client' hclient' hid => ?_)
        cases hclient.symm.trans (hid ▸ hclient')
        exact htask
      · rename_i task htask
        by_cases hid : id = id'
        · subst hid
          exact .turns (.task hclient htask) (.resumes id k env task.handled.1)
            (turn_cases task.handled.1) (goesOn_resume hclient htask env) rfl rfl
        · refine connectionStep_same (clients_update_other hid _) (fun event hevent => ?_)
            (hnone fun _ _ heq => absurd heq hid)
          obtain ⟨_, -, heq⟩ := List.mem_map.mp hevent
          cases heq
          exact hid rfl
  | checkDifficulty id' suggested =>
    simp only [sv2Step]
    split
    · exact connectionStep_same rfl hsilent rfl
    · rename_i client hclient
      split
      · rename_i htimer
        by_cases hid : id = id'
        · subst hid
          have hturn : TurnCase host config ⟨false, none, 0, (0, 0), none⟩ (world.context client)
              (.wait .recordShare) ((world.context client).checkDifficulty config suggested) :=
            turnCase_checkDifficulty suggested
          exact .turns (.timer hclient htimer) (.checks id suggested) hturn
            (Or.inr ⟨_, rfl, Or.inl rfl⟩) rfl rfl
        · refine connectionStep_same (clients_update_other hid _) (fun event hevent => ?_) rfl
          obtain ⟨_, -, heq⟩ := List.mem_map.mp hevent
          cases heq
          exact hid rfl
      · exact connectionStep_same rfl hsilent rfl

/-! ### The turn of a task -/

/-- A step in which a connection takes up one of its tasks. -/
structure ResumesTask (host : Externals) (config : Sv2Config) (world : Sv2World) (input : Sv2Input)
    (id : ℕ) (env : TurnEnv) (client taken : StratumV2Client) (handled : Handled)
    (origin : Origin) : Prop where
  input_eq : ∃ k, input = .resume id k env
  takes : Takes world input id client taken handled origin
  world_eq : (sv2Step host config world input).1
    = world.update id (endTurn origin ((world.context taken).turn host config env handled)).1
  events_eq : (sv2Step host config world input).2
    = ((world.context taken).turn host config env handled).events.map (.client id)
  handledBy : goesOn env handled = true → handledBy? world id input = some (client, handled)

section
variable {host : Externals} {config : Sv2Config} {world : Sv2World} {input : Sv2Input} {id : ℕ}

variable {client : StratumV2Client} {handled : Handled}

/-- The handler that goes on is the one that is taken up. -/
theorem ResumesTask.handledBy_unique {env : TurnEnv} {taken : StratumV2Client} {origin : Origin}
    (h : ResumesTask host config world input id env client taken handled origin)
    {client' : StratumV2Client} {handled' : Handled}
    (h' : handledBy? world id input = some (client', handled')) :
    client' = client ∧ handled' = handled := by
  obtain ⟨k, rfl⟩ := h.input_eq
  cases h.takes with
  | task hclient htask =>
    simp only [handledBy?, if_true, hclient, htask, Option.bind_some] at h'
    obtain ⟨task', htask', heq⟩ := Option.map_eq_some_iff.mp h'
    cases (Option.filter_eq_some_iff.mp htask').1
    cases heq
    exact ⟨rfl, rfl⟩

theorem resumes_task (hclient : world.clients id = some client) {k : ℕ} {task : Sv2.Task}
    (htask : client.tasks[k]? = some task) (env : TurnEnv) :
    ResumesTask host config world (.resume id k env) id env client (client.dropTask k) task.handled.1
      task.handled.2 where
  input_eq := ⟨k, rfl⟩
  takes := .task hclient htask
  world_eq := by
    simp only [sv2Step, hclient, htask]
    rfl
  events_eq := by
    simp only [sv2Step, hclient, htask]
    rfl
  handledBy hgoes := by
    simp only [handledBy?, if_true, hclient, htask, Option.bind_some, Option.filter_some, hgoes,
      Option.map_some]

/-- What a connection sends or stores in a step, it does in the turn of a task. -/
theorem resumes_of_event {event : Sv2Event}
    (h : .client id event ∈ (sv2Step host config world input).2) :
    ∃ env client taken handled origin,
      ResumesTask host config world input id env client taken handled origin ∧
        event ∈ ((world.context taken).turn host config env handled).events := by
  have hclient := sv2Step_client host config world input id
  cases hclient with
  | absent _ _ hevents | connects _ _ hevents | moves _ _ _ hevents =>
    exact absurd h (hevents event)
  | turns htakes hruns hturn hgoes hworld hevents =>
    rw [hevents] at h
    obtain ⟨event', hevent, heq⟩ := List.mem_map.mp h
    cases heq
    cases hruns with
    | resumes _ k env handled =>
      cases htakes with
      | task hbefore htask => exact ⟨env, _, _, _, _, resumes_task hbefore htask env, hevent⟩
    | checks id suggested =>
      -- the timer sends nothing in its first turn
      unfold checkDifficulty at hevent
      split at hevent
      · cases hevent
      · split at hevent
        · cases hevent
        · cases hevent

theorem resumes_of_handledBy? (h : handledBy? world id input = some (client, handled)) :
    ∃ env taken origin, ResumesTask host config world input id env client taken handled origin ∧
      goesOn env handled = true := by
  cases input with
  | resume id' k env =>
    simp only [handledBy?] at h
    split at h
    · rename_i hid
      subst hid
      obtain ⟨client', hclient, hsome⟩ := Option.bind_eq_some_iff.mp h
      obtain ⟨task, htask, heq⟩ := Option.map_eq_some_iff.mp hsome
      obtain ⟨htask, hgoes⟩ := Option.filter_eq_some_iff.mp htask
      cases heq
      exact ⟨env, _, _, resumes_task hclient htask env, hgoes⟩
    · cases h
  | _ => cases h

end

end PublicPool.Proofs
