import PublicPool.Sv2.Service

/-!
# `PublicPool.Proofs.Sv2.Steps`: what one turn of a Stratum V2 handler can do

`TurnCase` lists what a turn can do to the jobs and submissions of its connection: open a
channel, subscribe, send, finish or install a job, judge a submission, carry an accepted share
on, record it. A turn that does none of these is `Quiet`: it only closes channels and moves
difficulties. `turn_cases` is the inversion lemma, with one case for each handler; the invariants
of the later modules go through the cases of `TurnCase` and unfold no handler.
-/

set_option autoImplicit false

namespace PublicPool.Sv2

/-! ### What a suspended handler carries -/

/-- The accepted share that a handler still has to record. -/
def Wait.share? : Wait → Option AcceptedShare
  | .shareReply share | .submitBlock share _ _ | .saveBlock share _ _
  | .finalizeSnapshot share _ | .notifyBlock share _ => some share
  | _ => none

/-- The extended job that a handler still has to enter into its channel. -/
def Wait.push? : Wait → Option ExtendedPush
  | .extendedJobFrame _ push _ => some push
  | _ => none

def AfterJob.loop? : AfterJob → Option (JobTemplate × Bool)
  | .loop jobTemplate sendPrevHash _ => some (jobTemplate, sendPrevHash)
  | .opening _ => none

def AfterJob.opening? : AfterJob → Option Bool
  | .opening isFirstChannel => some isFirstChannel
  | .loop .. => none

/-- What follows the job that a handler is sending. -/
def Wait.after? : Wait → Option AfterJob
  | .firstTemplate _ isFirstChannel => some (.opening isFirstChannel)
  | .standardJobFrame _ _ _ _ after | .extendedJobFrame _ _ after | .prevHashFrame after =>
    some after
  | _ => none

/-- A handler that is opening a channel, and whether it is the first one. -/
def Wait.opening? : Wait → Option Bool
  | .openEntity _ _ isFirstChannel | .openReply _ isFirstChannel => some isFirstChannel
  | wait => wait.after?.bind AfterJob.opening?

/-- The channel that a handler is opening, as long as the channel has no job. -/
def Wait.priming? : Wait → Option ℕ
  | .openEntity channelId _ _ | .openReply channelId _ | .firstTemplate channelId _
  | .extendedJobFrame channelId _ (.opening _) => some channelId
  | _ => none

theorem Wait.priming?_of_opening? {wait : Wait} (h : wait.opening? = none) :
    wait.priming? = none := by
  cases wait with
  | openEntity => cases h
  | openReply => cases h
  | firstTemplate => cases h
  | extendedJobFrame _ _ after =>
    cases after with
    | opening => cases h
    | loop => rfl
  | _ => rfl

/-- A wait that carries no share and no job, sends no template and opens no channel. -/
def Wait.Plain (wait : Wait) : Prop :=
  wait.share? = none ∧ wait.push? = none ∧ wait.after? = none ∧ wait.opening? = none

/-- The templates whose jobs a handler still sends, with their `sendPrevHash`. -/
def Wait.loads (wait : Wait) : List (JobTemplate × Bool) :=
  (wait.push?.map fun push => (push.jobTemplate, push.sendPrevHash)).toList
    ++ (wait.after?.bind AfterJob.loop?).toList

end PublicPool.Sv2

namespace PublicPool.Proofs

open Lib (OrdMap)
open Sv2
open Sv2.Context

/-- A reply to the miner. -/
def IsFrame : Sv2Event → Prop
  | .blockSaved _ | .finalizeCalled _ _ | .shareRecorded _ _ => False
  | _ => True

theorem isFrame_send {context : Context} {event event' : Sv2Event}
    (h : event' ∈ context.send event) (hframe : IsFrame event) : IsFrame event' := by
  unfold send at h
  split at h
  · cases h
  · rw [List.mem_singleton] at h
    rwa [h]

/-! ### Quiet turns -/

/-- A channel keeps its jobs and submissions; it may be closed and its difficulty may move. -/
def Keeps (channel channel' : ChannelState) : Prop :=
  ∃ sessionDifficulty declaredMaxTarget isOpen,
    (isOpen = true → channel.isOpen = true) ∧
      channel' = { channel with sessionDifficulty, declaredMaxTarget, isOpen }

theorem Keeps.refl (channel : ChannelState) : Keeps channel channel :=
  ⟨_, _, _, id, rfl⟩

theorem Keeps.trans {a b c : ChannelState} (hab : Keeps a b) (hbc : Keeps b c) : Keeps a c := by
  obtain ⟨_, _, _, hopen, rfl⟩ := hab
  obtain ⟨d, m, o, hopen', rfl⟩ := hbc
  exact ⟨d, m, o, fun h => hopen (hopen' h), rfl⟩

/-- Every channel afterwards comes from one before. -/
def ChannelsVia (R : ChannelState → ChannelState → Prop)
    (channels channels' : OrdMap ℕ ChannelState) : Prop :=
  ∀ id channel', channels'.get? id = some channel' →
    ∃ channel, channels.get? id = some channel ∧ R channel channel'

section
variable {channels : OrdMap ℕ ChannelState} {channelId : ℕ}

theorem ChannelsVia.refl : ChannelsVia Keeps channels channels :=
  fun _ _ h => ⟨_, h, Keeps.refl _⟩

theorem ChannelsVia.trans {a b c : OrdMap ℕ ChannelState} (hab : ChannelsVia Keeps a b)
    (hbc : ChannelsVia Keeps b c) : ChannelsVia Keeps a c := by
  intro id channel h
  obtain ⟨between, hbetween, hkeeps⟩ := hbc id channel h
  obtain ⟨channel, hchannel, hkeeps'⟩ := hab id between hbetween
  exact ⟨channel, hchannel, hkeeps'.trans hkeeps⟩

theorem channelsVia_modify {f : ChannelState → ChannelState}
    (hf : ∀ channel, Keeps channel (f channel)) :
    ChannelsVia Keeps channels (channels.modify channelId f) := by
  intro id channel' h
  rw [OrdMap.get?_modify] at h
  obtain ⟨channel, hchannel, rfl⟩ := Option.map_eq_some_iff.mp h
  refine ⟨channel, hchannel, ?_⟩
  split
  · exact hf channel
  · exact Keeps.refl channel

/-- What a quiet turn leaves of the services and the connection. -/
structure Quiet (context context' : Context) : Prop where
  jobs : context'.jobs = context.jobs
  counter :
    context.stratumV2Service.channelIdCounter ≤ context'.stratumV2Service.channelIdCounter
  tasks : context'.client.tasks = context.client.tasks
  payoutMode : context'.client.payoutMode = context.client.payoutMode
  address : context.client.address.isSome = true → context'.client.address.isSome = true
  channels : ChannelsVia Keeps context.client.channels context'.client.channels
  destroyed : context'.client.destroyed = false → context.client.destroyed = false
  subscription : context'.client.destroyed = false →
    context'.client.stratumSubscription = context.client.stratumSubscription
  /-- Whoever closes the last channel closes the connection. -/
  hasNoChannel : context'.client.destroyed = false → context'.client.hasNoChannel = true →
    context.client.hasNoChannel = true

variable (context : Context)

theorem Quiet.refl : Quiet context context :=
  ⟨rfl, le_rfl, rfl, rfl, id, ChannelsVia.refl, id, fun _ => rfl, fun _ => id⟩

theorem Quiet.trans {a b c : Context} (hab : Quiet a b) (hbc : Quiet b c) : Quiet a c where
  jobs := hbc.jobs.trans hab.jobs
  counter := hab.counter.trans hbc.counter
  tasks := hbc.tasks.trans hab.tasks
  payoutMode := hbc.payoutMode.trans hab.payoutMode
  address h := hbc.address (hab.address h)
  channels := hab.channels.trans hbc.channels
  destroyed h := hab.destroyed (hbc.destroyed h)
  subscription h := (hbc.subscription h).trans (hab.subscription (hbc.destroyed h))
  hasNoChannel h hno := hab.hasNoChannel (hbc.destroyed h) (hbc.hasNoChannel h hno)

theorem channelIdCounter_releasePrefixes :
    context.releasePrefixes.channelIdCounter = context.stratumV2Service.channelIdCounter := by
  have hfold (entries : List (ℕ × ChannelState)) (service : StratumV2Service) :
      (entries.foldl (fun service entry => service.releaseExtendedExtranoncePrefix entry.1)
        service).channelIdCounter = service.channelIdCounter := by
    induction entries generalizing service with
    | nil => rfl
    | cons entry entries ih =>
      rw [List.foldl_cons, ih]
      rfl
  exact hfold _ _

/-- Closing the connection is quiet, and it stays closed. -/
theorem quiet_closeSocket :
    Quiet context context.closeSocket ∧ context.closeSocket.client.destroyed = true := by
  unfold closeSocket
  split
  · rename_i hdestroyed
    exact ⟨Quiet.refl context, hdestroyed⟩
  · have hchannels : ChannelsVia Keeps context.client.channels
        (context.client.channels.mapValues fun _ channel => { channel with isOpen := false }) := by
      intro id channel' h
      rw [OrdMap.get?_mapValues] at h
      obtain ⟨channel, hchannel, rfl⟩ := Option.map_eq_some_iff.mp h
      exact ⟨channel, hchannel, _, _, _, by simp, rfl⟩
    refine ⟨⟨rfl, ?_, rfl, rfl, id, hchannels, ?_, ?_, ?_⟩, rfl⟩
    · exact (channelIdCounter_releasePrefixes context).ge
    all_goals
      intro h
      cases h

/-! ### The cases of a turn -/

/-- How a quiet turn goes on. It carries no share and no job; the templates it still sends and
the channel it is opening are those of the handler it took up, save for a template that the
timer refreshes. -/
structure QuietNext (context : Context) (handled : Handled) (next : Next) : Prop where
  share : ∀ wait, next = .waits wait → wait.share? = none
  push : ∀ wait, next = .waits wait → wait.push? = none
  loads : ∀ wait, next = .waits wait → ∀ load ∈ wait.loads,
    (∃ before, handled = .wait before ∧ load ∈ before.loads) ∨
      ∃ jobTemplate now, context.jobs.latestTemplate = some jobTemplate ∧
        load = (refreshedTemplate jobTemplate now, true)
  opening : ∀ wait, next = .waits wait → ∀ isFirstChannel,
    wait.opening? = some isFirstChannel →
      ∃ before, handled = .wait before ∧ before.opening? = some isFirstChannel
  opened : ∀ before, handled = .wait before → before.opening? = some true →
    (∃ wait, next = .waits wait ∧ wait.opening? = some true) ∨ next = .throws ∨
      context.client.workSelectionEnabled = true ∨ context.client.stratumSubscription = true
  primed : ∀ before channelId, handled = .wait before → before.priming? = some channelId →
    (∃ wait, next = .waits wait ∧ wait.priming? = some channelId) ∨ next = .throws ∨
      context.client.workSelectionEnabled = true ∨ context.client.address = none ∨
      context.client.channels.get? channelId = none

/-- Work selection changes with a new `SetupConnection` only. -/
def SelectionVia (handled : Handled) (client client' : StratumV2Client) : Prop :=
  client'.workSelectionEnabled = client.workSelectionEnabled ∨
    ∃ message, handled = .frame (.setupConnection message) ∧
      client'.workSelectionEnabled = decide (message.flags &&& requiresWorkSelection ≠ 0)

/-- A channel without jobs and submissions. -/
structure IsNew (channel : ChannelState) : Prop where
  isOpen : channel.isOpen = true
  difficulties : ∀ jobId, channel.jobIdToDifficulty jobId = none
  merkleRoots : ∀ jobId, channel.jobIdToMerkleRoot jobId = none
  extendedJobs : ∀ jobId, channel.extendedJobs jobId = none
  hashes : channel.miningSubmissionHashes = []

/-- A channel is added under the next channel id. -/
structure Opens (context context' : Context) (channel : ChannelState) : Prop where
  new : IsNew channel
  jobs : context'.jobs = context.jobs
  counter : context'.stratumV2Service.channelIdCounter
    = context.stratumV2Service.channelIdCounter + 1
  tasks : context'.client.tasks = context.client.tasks
  payoutMode : context'.client.payoutMode = context.client.payoutMode
  address : context.client.hasNoChannel = true ∨ context.client.address.isSome = true →
    context'.client.address.isSome = true
  channels : context'.client.channels
    = context.client.channels.set context.stratumV2Service.channelIdCounter channel
  destroyed : context'.client.destroyed = context.client.destroyed
  subscription : context'.client.stratumSubscription = context.client.stratumSubscription
  selection : context'.client.workSelectionEnabled = context.client.workSelectionEnabled

/-- A job of a template is sent to a channel: its first one, or one of a loop. -/
structure Sends (context : Context) (handled : Handled) (channelId : ℕ) (channel : ChannelState)
    (address : String) (jobTemplate : JobTemplate) (sendPrevHash : Bool) (after : AfterJob) :
    Prop where
  found : context.client.channels.get? channelId = some channel
  hasAddress : context.client.address = some address
  source :
    (∃ isFirstChannel, handled = .wait (.firstTemplate channelId isFirstChannel) ∧
        after = .opening isFirstChannel ∧ sendPrevHash = true ∧
        context.jobs.latestTemplate = some jobTemplate) ∨
      ∃ last, handled = .wait (.prevHashFrame (.loop jobTemplate sendPrevHash last)) ∧
        after = .loop jobTemplate sendPrevHash channelId ∧ channel.isOpen = true
  next : ∀ last, handled = .wait (.prevHashFrame (.loop jobTemplate sendPrevHash last)) →
    context.client.channelAfter? last = some (channelId, channel)

/-- The channel, its id and the tuple of a submission that names an open channel of its kind. -/
def submitted? (client : StratumV2Client) : Sv2Message → Option (ℕ × ChannelState × ShareTuple)
  | .submitSharesStandard submission =>
    (client.openChannel? submission.channelId.toNat).map fun channel =>
      (submission.channelId.toNat, channel, submission.tuple)
  | .submitSharesExtended submission =>
    ((client.openChannel? submission.channelId.toNat).filter fun channel =>
      channel.channelType = .extended).map fun channel =>
        (submission.channelId.toNat, channel, submission.tuple)
  | _ => none

/-- A submission that its channel has not seen. -/
structure Fresh (context : Context) (handled : Handled) (channelId : ℕ) (channel : ChannelState)
    (tuple : ShareTuple) : Prop where
  submitted : ∃ message, handled = .frame message ∧
    submitted? context.client message = some (channelId, channel, tuple)
  found : context.client.channels.get? channelId = some channel
  isOpen : channel.isOpen = true
  fresh : tuple.submissionKey ∉ channel.miningSubmissionHashes

/-- The verdict on the submission of a tuple; a standard one has no extranonce. -/
def verdictOn (host : Externals) (jobs : StratumV1JobsService) (channelId : ℕ)
    (channel : ChannelState) (tuple : ShareTuple) : ShareVerdict :=
  match tuple.extranonce with
  | none => judgeStandard host jobs channelId channel tuple
  | some extranonce => judgeExtended host channelId channel tuple extranonce

/-- The submission of a tuple on a channel of its kind is accepted. -/
def AcceptsTuple (host : Externals) (jobs : StratumV1JobsService) (channelId : ℕ)
    (channel : ChannelState) (tuple : ShareTuple) (share : AcceptedShare) : Prop :=
  ∃ sum, verdictOn host jobs channelId channel tuple = .accepted share sum ∧
    (tuple.extranonce.isSome = true → channel.channelType = .extended)

theorem AcceptsTuple.cases {host : Externals} {jobs : StratumV1JobsService} {channel : ChannelState}
    {tuple : ShareTuple} {share : AcceptedShare}
    (h : AcceptsTuple host jobs channelId channel tuple share) :
    ∃ sum, judgeStandard host jobs channelId channel tuple = .accepted share sum ∨
      ∃ extranonce, channel.channelType = .extended ∧
        judgeExtended host channelId channel tuple extranonce = .accepted share sum := by
  obtain ⟨sum, hverdict, htype⟩ := h
  unfold verdictOn at hverdict
  split at hverdict
  · exact ⟨sum, Or.inl hverdict⟩
  · rename_i extranonce hextranonce
    exact ⟨sum, Or.inr ⟨extranonce, htype (by rw [hextranonce]; rfl), hverdict⟩⟩

end

/-- The context after a channel has remembered a submission. -/
def remembering (context : Context) (channelId : ℕ) (tuple : ShareTuple) : Context :=
  { context with
    client := context.client.modifyChannel channelId
      (ChannelState.remember · tuple.submissionKey) }

variable (host : Externals) (config : Sv2Config)

/-- The pool's job under the next id for a template. -/
def CreatesJob (context : Context) (address : String) (jobTemplate : JobTemplate) (now : ℕ)
    (job : MiningJob) : Prop :=
  MiningJob.create host config.network context.jobs.getNextId
    (getPayoutInformation context.client.payoutMode jobTemplate address) jobTemplate none now
    = some job

/-- A custom job passes the validation of its coinbase against a template. -/
def ValidatesCustomJob (context : Context) (message : Sv2SetCustomMiningJob)
    (jobTemplate : JobTemplate) (channel : ChannelState) (address : String) : Prop :=
  let totalExtranonceSize := channel.extranoncePrefix.length + channel.extranonceSize
  let split := buildSv2CoinbaseSplit message totalExtranonceSize
  validateCoinbasePayoutOutputs host config.network
      (split.1 ++ List.replicate totalExtranonceSize 0 ++ split.2)
      (getPayoutInformation context.client.payoutMode jobTemplate address)
      jobTemplate.blockData.coinbasevalue = some none

/-- What a turn can do. -/
inductive TurnCase (env : TurnEnv) (context : Context) (handled : Handled) : Turn → Prop
  | quiet {context' : Context} {events : List Sv2Event} {next : Next}
      (hquiet : Quiet context context')
      (hselection : SelectionVia handled context.client context'.client)
      (hevents : ∀ event ∈ events, IsFrame event) (hnext : QuietNext context handled next) :
      TurnCase env context handled { context := context', events, next }
  | opens {context' : Context} {channel : ChannelState} {requestId : ℕ}
      (hopens : Opens context context' channel) :
      TurnCase env context handled
        { context := context'
          next := .waits (.openEntity context.stratumV2Service.channelIdCounter requestId
            context.client.hasNoChannel) }
  | subscribes (hhandled : handled = .wait (.prevHashFrame (.opening true)))
      (hselection : context.client.workSelectionEnabled = false)
      (hsubscription : context.client.stratumSubscription = false) :
      TurnCase env context handled (context.afterJob host config (.opening true) env.now)
  | addsJob {channelId : ℕ} {channel : ChannelState} {address : String}
      {jobTemplate : JobTemplate} {sendPrevHash : Bool} {after : AfterJob} {job : MiningJob}
      (hsends : Sends context handled channelId channel address jobTemplate sendPrevHash after)
      (hjob : CreatesJob host config context address jobTemplate env.now job) :
      TurnCase env context handled
        { context := { context with jobs := context.jobs.addJob job }, next := .throws }
  | sendsStandard {channelId : ℕ} {channel : ChannelState} {address : String}
      {jobTemplate : JobTemplate} {sendPrevHash : Bool} {after : AfterJob} {job : MiningJob}
      {coinbase : Transaction} {events : List Sv2Event}
      (hsends : Sends context handled channelId channel address jobTemplate sendPrevHash after)
      (htype : channel.channelType = .standard)
      (hjob : CreatesJob host config context address jobTemplate env.now job)
      (hcoinbase : job.blockCoinbase host (Js.toHex channel.extranoncePrefix)
        fixedStandardExtranonce2 = some coinbase)
      (hevents : ∀ event ∈ events, IsFrame event) :
      TurnCase env context handled
        { context :=
            { context with
              jobs := context.jobs.addJob job
              client := context.client.modifyChannel channelId
                (ChannelState.setStandardJob · context.nextJobId
                  (job.blockMerkleRoot host coinbase)) }
          events
          next := .waits (.standardJobFrame channelId context.nextJobId jobTemplate sendPrevHash
            after) }
  | beginsExtended {channelId : ℕ} {channel : ChannelState} {address : String}
      {jobTemplate : JobTemplate} {sendPrevHash : Bool} {after : AfterJob} {job : MiningJob}
      {events : List Sv2Event}
      (hsends : Sends context handled channelId channel address jobTemplate sendPrevHash after)
      (htype : channel.channelType = .extended)
      (hjob : CreatesJob host config context address jobTemplate env.now job)
      (hevents : ∀ event ∈ events, IsFrame event) :
      TurnCase env context handled
        { context := { context with jobs := context.jobs.addJob job }
          events
          next := .waits (.extendedJobFrame channelId
            { jobId := context.nextJobId
              miningJob := job
              jobTemplate
              coinbasePrefix := patchCoinbasePrefixVarint (Js.bufferFromHex job.coinbasePart1)
                (channel.extranoncePrefix.length + channel.extranonceSize)
              coinbaseSuffix := Js.bufferFromHex job.coinbasePart2
              sendPrevHash }
            after) }
  | finishes {channelId : ℕ} {push : ExtendedPush} {after : AfterJob}
      (hhandled : handled = .wait (.extendedJobFrame channelId push after)) :
      TurnCase env context handled (context.finishExtendedJob channelId push after)
  | installs {message : Sv2SetCustomMiningJob} {jobTemplate : JobTemplate}
      {channel : ChannelState} {address : String} {job : MiningJob} {split : Bytes × Bytes}
      {events : List Sv2Event}
      (hhandled : handled = .wait (.customTemplate message))
      (hlatest : context.jobs.latestTemplate = some jobTemplate)
      (hchannel : context.client.channels.get? message.channelId.toNat = some channel)
      (haddress : context.client.address = some address)
      (hvalid : ValidatesCustomJob host config context message jobTemplate channel address)
      (hjob : CreatesJob host config context address jobTemplate env.now job)
      (hevents : ∀ event ∈ events, IsFrame event) :
      TurnCase env context handled
        { context :=
            { context with
              jobs := context.jobs.addJob job
              client := context.client.modifyChannel message.channelId.toNat
                (ChannelState.setExtendedJob · context.nextJobId
                  (customJob message split jobTemplate job)) }
          events
          next := .waits (.reply false) }
  | remembers {channelId : ℕ} {channel : ChannelState} {tuple : ShareTuple}
      {events : List Sv2Event} {next : Next}
      (hfresh : Fresh context handled channelId channel tuple)
      (hevents : ∀ event ∈ events, IsFrame event)
      (hnext : next = .throws ∨ next = .waits (.reply false)) :
      TurnCase env context handled { context := remembering context channelId tuple, events, next }
  | accepts {channelId : ℕ} {channel : ChannelState} {tuple : ShareTuple}
      {share : AcceptedShare} {events : List Sv2Event}
      (hfresh : Fresh context handled channelId channel tuple)
      (haccepts : AcceptsTuple host context.jobs channelId channel tuple share)
      (hevents : ∀ event ∈ events, IsFrame event) :
      TurnCase env context handled
        { context := remembering context channelId tuple
          events
          next := .waits (.shareReply share) }
  | carries {share : AcceptedShare} {wait wait' : Wait} {events : List Sv2Event}
      (hhandled : handled = .wait wait) (hshare : wait.share? = some share)
      (hshare' : wait'.share? = some share)
      (hsubmit : ∀ coinbase blockHex, wait' = .submitBlock share coinbase blockHex →
        share.block = some (some (coinbase, blockHex)))
      (hevents : ∀ event ∈ events, ∀ record share, event ≠ .shareRecorded record share) :
      TurnCase env context handled { context, events, next := .waits wait' }
  | records {share : AcceptedShare} {wait : Wait} {blockSubmissionResult : Option String}
      (hhandled : handled = .wait wait) (hshare : wait.share? = some share) :
      TurnCase env context handled (context.recordShare share blockSubmissionResult)

/-! ### One case for each handler -/

section
variable {host config} {env : TurnEnv} {context : Context} {handled : Handled}

theorem quietNext_throws : QuietNext context handled .throws where
  share _ h := by cases h
  push _ h := by cases h
  loads _ h := by cases h
  opening _ h := by cases h
  opened _ _ _ := Or.inr (Or.inl rfl)
  primed _ _ _ _ := Or.inr (Or.inl rfl)

variable {next : Next} {message : Sv2Message} {context' : Context} {channelId : ℕ}
  {channel : ChannelState}

/-- What takes up no channel in the making may go on plainly. -/
theorem quietNext_plain (hnext : ∀ wait, next = .waits wait → wait.Plain)
    (hhandled : ∀ before, handled = .wait before → before.opening? = none) :
    QuietNext context handled next where
  share wait h := (hnext wait h).1
  push wait h := (hnext wait h).2.1
  loads wait h load hload := by
    obtain ⟨-, hpush, hafter, -⟩ := hnext wait h
    simp [Wait.loads, hpush, hafter] at hload
  opening wait h isFirstChannel hopening := by
    rw [(hnext wait h).2.2.2] at hopening
    cases hopening
  opened before h hopening := by
    rw [hhandled before h] at hopening
    cases hopening
  primed before channelId h hpriming := by
    rw [Wait.priming?_of_opening? (hhandled before h)] at hpriming
    cases hpriming

theorem quietNext_frame (hnext : ∀ wait, next = .waits wait → wait.Plain) :
    QuietNext context (.frame message) next :=
  quietNext_plain hnext fun _ h => by cases h

/-- A turn that leaves the context alone and goes on quietly. -/
theorem turnCase_idle {events : List Sv2Event} (hevents : ∀ event ∈ events, IsFrame event)
    (hnext : QuietNext context handled next) :
    TurnCase host config env context handled { context, events, next } :=
  .quiet (Quiet.refl context) (Or.inl rfl) hevents hnext

variable {thenClose : Bool} {client : StratumV2Client} {jobTemplate : JobTemplate}
  {after : AfterJob} {wait : Wait}

theorem plain_reply : ∀ wait, Next.waits (.reply thenClose) = .waits wait →
    wait.Plain := by
  intro wait h
  cases h
  exact ⟨rfl, rfl, rfl, rfl⟩

/-- A handler of a frame that ends with a reply. -/
theorem turnCase_replies {event : Sv2Event} (hquiet : Quiet context context')
    (hselection : SelectionVia (.frame message) context.client context'.client)
    (hframe : IsFrame event) :
    TurnCase host config env context (.frame message) (context'.replies event thenClose) :=
  .quiet hquiet hselection (fun _ h => isFrame_send h hframe) (quietNext_frame plain_reply)

theorem quiet_selection (workSelectionEnabled : Bool) :
    Quiet context
      { context with client := { context.client with workSelectionEnabled } } :=
  ⟨rfl, le_rfl, rfl, rfl, id, ChannelsVia.refl, id, fun _ => rfl, fun _ => id⟩

theorem turnCase_handleSetupConnection (message : Sv2SetupConnection) :
    TurnCase host config env context (.frame (.setupConnection message))
      (context.handleSetupConnection message) := by
  unfold handleSetupConnection
  have refuses (event : Sv2Event) (hframe : IsFrame event) :
      TurnCase host config env context (.frame (.setupConnection message))
        (context.replies event true) :=
    turnCase_replies (Quiet.refl context) (Or.inl rfl) hframe
  split
  · exact refuses _ trivial
  · split
    · exact refuses _ trivial
    · simp only
      split
      · exact refuses _ trivial
      · exact turnCase_replies (quiet_selection _) (Or.inr ⟨message, rfl, rfl⟩) trivial

/-- An update of an open channel's difficulties is quiet. -/
theorem quiet_modifyChannel {f : ChannelState → ChannelState}
    (hf : ∀ channel, Keeps channel (f channel))
    (hopen : ∀ channel, (f channel).isOpen = channel.isOpen) :
    Quiet context { context with client := context.client.modifyChannel channelId f } where
  jobs := rfl
  counter := le_rfl
  tasks := rfl
  payoutMode := rfl
  address := id
  channels := channelsVia_modify hf
  destroyed := id
  subscription _ := rfl
  hasNoChannel _ h := by
    simp only [StratumV2Client.hasNoChannel, StratumV2Client.modifyChannel, OrdMap.modify,
      OrdMap.entries_mapValues, List.all_map, List.all_eq_true, Function.comp_apply] at h ⊢
    intro entry hentry
    have hclosed := h entry hentry
    split at hclosed
    · rwa [hopen] at hclosed
    · exact hclosed

theorem keeps_difficulty (channel : ChannelState) (sessionDifficulty : Option ℚ)
    (declaredMaxTarget : Bytes) :
    Keeps channel { channel with sessionDifficulty, declaredMaxTarget } :=
  ⟨sessionDifficulty, declaredMaxTarget, channel.isOpen, id, rfl⟩

theorem turnCase_handleUpdateChannel (message : Sv2UpdateChannel) :
    TurnCase host config env context (.frame (.updateChannel message))
      (context.handleUpdateChannel config message) := by
  unfold handleUpdateChannel
  split
  · exact turnCase_idle (by simp) (quietNext_frame (by simp))
  · simp only
    split
    · exact .quiet (quiet_modifyChannel (fun channel => keeps_difficulty channel _ _)
        fun _ => rfl) (Or.inl rfl) (by simp) (quietNext_frame (by simp))
    · exact turnCase_replies (quiet_modifyChannel (fun channel => keeps_difficulty channel _ _)
        fun _ => rfl) (Or.inl rfl) trivial

theorem channelIdCounter_releasePrefix (channelId : ℕ) :
    (context.releasePrefix channelId).channelIdCounter
      = context.stratumV2Service.channelIdCounter := by
  unfold releasePrefix
  split
  · split <;> rfl
  · rfl

theorem workSelectionEnabled_closeSocket (context : Context) :
    context.closeSocket.client.workSelectionEnabled = context.client.workSelectionEnabled := by
  unfold closeSocket
  split <;> rfl

/-- Closing a channel is quiet once the connection is closed with its last one. -/
theorem turnCase_handleCloseChannel (channelId : UInt32) :
    TurnCase host config env context (.frame (.closeChannel channelId))
      (context.handleCloseChannel channelId.toNat) := by
  have hchannels : ChannelsVia Keeps context.client.channels
      (context.deletingChannel channelId.toNat).client.channels :=
    channelsVia_modify fun channel => ⟨_, _, _, by simp, rfl⟩
  have hcounter : context.stratumV2Service.channelIdCounter
      ≤ (context.deletingChannel channelId.toNat).stratumV2Service.channelIdCounter :=
    (channelIdCounter_releasePrefix channelId.toNat).ge
  simp only [handleCloseChannel]
  split
  · obtain ⟨hquiet, hdestroyed⟩ :=
      quiet_closeSocket (context.deletingChannel channelId.toNat)
    have halive {P : Prop}
        (h : (context.deletingChannel channelId.toNat).closeSocket.client.destroyed = false) :
        P := by
      rw [hdestroyed] at h
      cases h
    refine .quiet ⟨hquiet.jobs, hcounter.trans hquiet.counter, hquiet.tasks, hquiet.payoutMode,
      hquiet.address, hchannels.trans hquiet.channels, fun h => halive h, fun h => halive h,
      fun h => halive h⟩ (Or.inl ?_) (by simp) (quietNext_frame (by simp))
    exact workSelectionEnabled_closeSocket _
  · rename_i hopen
    exact .quiet ⟨rfl, hcounter, rfl, rfl, id, hchannels, id, fun _ => rfl,
      fun _ hno => absurd hno hopen⟩ (Or.inl rfl) (by simp) (quietNext_frame (by simp))

theorem quiet_service (hjobs : context'.jobs = context.jobs)
    (hcounter : context.stratumV2Service.channelIdCounter
      ≤ context'.stratumV2Service.channelIdCounter)
    (hclient : ∃ address workerName, (context.client.address.isSome = true →
        (address : Option String).isSome = true) ∧
      context'.client = { context.client with address, workerName }) : Quiet context context' := by
  obtain ⟨address, workerName, haddress, hclient⟩ := hclient
  obtain ⟨jobs, stratumV2Service, client⟩ := context'
  simp only at hjobs hcounter hclient
  subst hclient
  exact ⟨hjobs, hcounter, rfl, rfl, haddress, ChannelsVia.refl, id, fun _ => rfl, fun _ => id⟩

/-- The part before a channel is added changes the identity and the counter only. -/
theorem quiet_beginOpen (identity : UserIdentity) : Quiet context (context.beginOpen identity) := by
  unfold beginOpen
  refine quiet_service rfl (Nat.le_succ _) ?_
  simp only
  split
  · exact ⟨_, _, fun _ => rfl, rfl⟩
  · exact ⟨context.client.address, context.client.workerName, id, rfl⟩

theorem workSelectionEnabled_beginOpen (identity : UserIdentity) :
    (context.beginOpen identity).client.workSelectionEnabled
      = context.client.workSelectionEnabled := by
  unfold beginOpen
  simp only
  split <;> rfl

/-- Opening a channel after the checks. -/
theorem turnCase_addChannel {identity : UserIdentity} {requestId : ℕ} (hnew : IsNew channel)
    (hjobs : context'.jobs = (context.beginOpen identity).jobs)
    (hclient : context'.client = (context.beginOpen identity).client)
    (hcounter : context'.stratumV2Service.channelIdCounter
      = (context.beginOpen identity).stratumV2Service.channelIdCounter) :
    TurnCase host config env context handled
      (context'.addChannel context.stratumV2Service.channelIdCounter channel requestId
        context.client.hasNoChannel) := by
  have hclient' : ∃ address workerName,
      (context.client.hasNoChannel = true ∨ context.client.address.isSome = true →
        (address : Option String).isSome = true) ∧
      context'.client = { context.client with address, workerName } := by
    rw [hclient, beginOpen]
    simp only
    split
    · exact ⟨_, _, fun _ => rfl, rfl⟩
    · rename_i hno
      exact ⟨context.client.address, context.client.workerName,
        fun h => h.resolve_left hno, rfl⟩
  obtain ⟨address, workerName, haddress, hclient'⟩ := hclient'
  obtain ⟨jobs, stratumV2Service, client⟩ := context'
  simp only at hclient'
  subst hclient'
  exact .opens ⟨hnew, hjobs, hcounter, rfl, rfl, haddress, rfl, rfl, rfl, rfl⟩

theorem isNew_opened (channelType : ChannelType) (extranoncePrefix : Bytes)
    (extranonceSize : ℕ) (sessionDifficulty : Option ℚ) (declaredMaxTarget : Bytes) :
    IsNew (.opened channelType extranoncePrefix extranonceSize sessionDifficulty
      declaredMaxTarget) :=
  ⟨rfl, fun _ => rfl, fun _ => rfl, fun _ => rfl, rfl⟩

theorem turnCase_handleOpenStandardMiningChannel (message : Sv2OpenStandardMiningChannel)
    (random : UInt8 × UInt8) :
    TurnCase host config env context (.frame (.openStandardMiningChannel message))
      (context.handleOpenStandardMiningChannel host config message random) := by
  unfold handleOpenStandardMiningChannel
  simp only
  split
  · exact turnCase_replies (Quiet.refl context) (Or.inl rfl) trivial
  · exact turnCase_addChannel (isNew_opened ..) rfl rfl rfl

theorem turnCase_handleOpenExtendedMiningChannel (message : Sv2OpenExtendedMiningChannel) :
    TurnCase host config env context (.frame (.openExtendedMiningChannel message))
      (context.handleOpenExtendedMiningChannel host config message) := by
  unfold handleOpenExtendedMiningChannel
  simp only
  split
  · exact turnCase_replies (Quiet.refl context) (Or.inl rfl) trivial
  · split
    · exact .quiet (quiet_beginOpen _) (Or.inl (workSelectionEnabled_beginOpen _)) (by simp)
        quietNext_throws
    · split
      · -- The prefix is given back, so only the counters and the identity have moved.
        refine turnCase_replies ((quiet_beginOpen _).trans ⟨rfl, le_rfl, rfl, rfl, id,
          ChannelsVia.refl, id, fun _ => rfl, fun _ => id⟩)
          (Or.inl (workSelectionEnabled_beginOpen _)) trivial
      · exact turnCase_addChannel (isNew_opened ..) rfl rfl rfl

/-! #### Submissions -/

theorem openChannel?_eq_some (h : client.openChannel? channelId = some channel) :
    client.channels.get? channelId = some channel ∧ channel.isOpen = true :=
  Option.filter_eq_some_iff.mp h

/-- The common part of both kinds of submission. -/
theorem turnCase_submitShare {sequenceNumber : ℕ} {tuple : ShareTuple} {verdict : ShareVerdict}
    (hsubmitted : submitted? context.client message = some (channelId, channel, tuple))
    (hchannel : context.client.openChannel? channelId = some channel)
    (hverdict : ∀ share sum, verdict = .accepted share sum →
      AcceptsTuple host context.jobs channelId channel tuple share) :
    TurnCase host config env context (.frame message)
      (context.submitShare channelId sequenceNumber channel tuple verdict) := by
  unfold submitShare
  split
  · exact turnCase_replies (Quiet.refl context) (Or.inl rfl) trivial
  · rename_i hfresh
    obtain ⟨hfound, hopen⟩ := openChannel?_eq_some hchannel
    have hsubmission : Fresh context (.frame message) channelId channel tuple :=
      ⟨⟨message, rfl, hsubmitted⟩, hfound, hopen, hfresh⟩
    unfold answerShare
    split
    · exact .remembers hsubmission (fun _ h => isFrame_send h trivial) (Or.inr rfl)
    · exact .remembers hsubmission (by simp) (Or.inl rfl)
    · rename_i share sum
      exact .accepts hsubmission (hverdict share sum rfl) fun _ h => isFrame_send h trivial

theorem turnCase_handleSubmitSharesStandard (submission : Sv2SubmitSharesStandard) :
    TurnCase host config env context (.frame (.submitSharesStandard submission))
      (context.handleSubmitSharesStandard host submission) := by
  unfold handleSubmitSharesStandard
  simp only
  split
  · exact turnCase_replies (Quiet.refl context) (Or.inl rfl) trivial
  · rename_i channel hchannel
    refine turnCase_submitShare ?_ hchannel fun share sum h => ⟨sum, h, nofun⟩
    simp only [submitted?, hchannel, Option.map_some]

theorem turnCase_handleSubmitSharesExtended (submission : Sv2SubmitSharesExtended) :
    TurnCase host config env context (.frame (.submitSharesExtended submission))
      (context.handleSubmitSharesExtended host submission) := by
  unfold handleSubmitSharesExtended
  simp only
  split
  · exact turnCase_replies (Quiet.refl context) (Or.inl rfl) trivial
  · rename_i channel hchannel
    obtain ⟨hfound, htype⟩ := Option.filter_eq_some_iff.mp hchannel
    refine turnCase_submitShare ?_ hfound fun share sum h =>
      ⟨sum, h, fun _ => by simpa using htype⟩
    simp only [submitted?, hchannel, Option.map_some]

/-! #### Custom jobs -/

theorem turnCase_handleSetCustomMiningJob (message : Sv2SetCustomMiningJob)
    (declaredJob : Option Sv2DeclaredMiningJob) :
    TurnCase host config env context (.frame (.setCustomMiningJob message))
      (context.handleSetCustomMiningJob message declaredJob) := by
  have fails (errorCode : String) :
      TurnCase host config env context (.frame (.setCustomMiningJob message))
        (context.replies (.setCustomMiningJobError message.channelId.toNat
          message.requestId.toNat errorCode)) :=
    turnCase_replies (Quiet.refl context) (Or.inl rfl) trivial
  unfold handleSetCustomMiningJob
  simp only
  split
  · exact fails _
  · split
    · exact fails _
    · split
      · exact fails _
      · split
        · exact fails _
        · split
          · exact fails _
          · split
            · exact fails _
            · refine turnCase_idle (by simp) (quietNext_frame ?_)
              intro wait h
              cases h
              exact ⟨rfl, rfl, rfl, rfl⟩

theorem turnCase_installCustomJob {message : Sv2SetCustomMiningJob}
    (hlatest : context.jobs.latestTemplate = some jobTemplate) :
    TurnCase host config env context (.wait (.customTemplate message))
      (context.installCustomJob host config message jobTemplate env.now) := by
  have hplain : ∀ before, Handled.wait (.customTemplate message) = .wait before →
      before.opening? = none := by
    intro before h
    cases h
    rfl
  unfold installCustomJob
  split
  · rename_i channel address hchannel haddress
    simp only
    split
    · exact turnCase_idle (by simp) quietNext_throws
    · exact .quiet (Quiet.refl context) (Or.inl rfl) (fun _ h => isFrame_send h trivial)
        (quietNext_plain plain_reply hplain)
    · rename_i hvalid
      split
      · exact turnCase_idle (by simp) quietNext_throws
      · rename_i job hjob
        exact .installs rfl hlatest hchannel haddress hvalid hjob fun _ h => isFrame_send h trivial
  · exact turnCase_idle (by simp) (quietNext_plain (by simp) hplain)

/-! #### Handlers that go on -/

/-- Sending a job, when the next handler has an address and the channel. -/
theorem turnCase_sendJob {sendPrevHash : Bool}
    (hsource : ∀ channel, context.client.channels.get? channelId = some channel →
      (∃ isFirstChannel, handled = .wait (.firstTemplate channelId isFirstChannel) ∧
        after = .opening isFirstChannel ∧ sendPrevHash = true ∧
        context.jobs.latestTemplate = some jobTemplate) ∨
      ∃ last, handled = .wait (.prevHashFrame (.loop jobTemplate sendPrevHash last)) ∧
        after = .loop jobTemplate sendPrevHash channelId ∧ channel.isOpen = true)
    (hnext : ∀ last, handled = .wait (.prevHashFrame (.loop jobTemplate sendPrevHash last)) →
      ∀ channel, context.client.channels.get? channelId = some channel →
        context.client.channelAfter? last = some (channelId, channel))
    (hnone : context.client.address = none ∨ context.client.channels.get? channelId = none →
      QuietNext context handled (.waits (.prevHashFrame after))) :
    TurnCase host config env context handled
      (context.sendJob host config channelId jobTemplate sendPrevHash after env.now) := by
  unfold sendJob
  split
  · rename_i address channel haddress hchannel
    have hsends : Sends context handled channelId channel address jobTemplate sendPrevHash
        after :=
      ⟨hchannel, haddress, hsource channel hchannel, fun last h => hnext last h channel hchannel⟩
    split
    · rename_i htype
      unfold sendNewMiningJob
      split
      · exact turnCase_idle (by simp) quietNext_throws
      · rename_i job hjob
        simp only
        split
        · exact .addsJob hsends hjob
        · rename_i coinbase hcoinbase
          exact .sendsStandard hsends htype hjob hcoinbase fun _ h => isFrame_send h trivial
    · rename_i htype
      unfold sendNewExtendedMiningJob
      split
      · exact turnCase_idle (by simp) quietNext_throws
      · rename_i job hjob
        exact .beginsExtended hsends htype hjob fun _ h => isFrame_send h trivial
  · rename_i hmissing
    refine turnCase_idle (by simp) (hnone ?_)
    cases haddress : context.client.address with
    | none => exact Or.inl rfl
    | some address =>
      cases hchannel : context.client.channels.get? channelId with
      | none => exact Or.inr rfl
      | some channel => exact absurd hchannel (hmissing address channel haddress)

/-- A handler that goes on as itself. -/
theorem quietNext_self (hshare : wait.share? = none) (hpush : wait.push? = none) :
    QuietNext context (.wait wait) (.waits wait) where
  share _ h := by
    cases h
    exact hshare
  push _ h := by
    cases h
    exact hpush
  loads _ h load hload := by
    cases h
    exact Or.inl ⟨wait, rfl, hload⟩
  opening _ h isFirstChannel hopening := by
    cases h
    exact ⟨wait, rfl, hopening⟩
  opened _ h hopening := by
    cases h
    exact Or.inl ⟨wait, rfl, hopening⟩
  primed _ channelId h hpriming := by
    cases h
    exact Or.inl ⟨wait, rfl, hpriming⟩

/-- After a job of a loop, or of a channel that has its first job, only what follows counts. -/
theorem quietNext_after {after' : AfterJob} (hafter : wait.after? = some after)
    (hloop : after'.loop? = after.loop?) (hopening : after'.opening? = after.opening?)
    (hpriming : ∀ channelId, wait.priming? = some channelId →
      context.client.address = none ∨ context.client.channels.get? channelId = none) :
    QuietNext context (.wait wait) (.waits (.prevHashFrame after')) where
  share _ h := by
    cases h
    rfl
  push _ h := by
    cases h
    rfl
  loads _ h load hload := by
    cases h
    refine Or.inl ⟨wait, rfl, ?_⟩
    simp only [Wait.loads, Wait.push?, Wait.after?, Option.bind_some, hloop] at hload
    simp only [Wait.loads, hafter, Option.bind_some, List.mem_append]
    exact Or.inr (by simpa using hload)
  opening _ h isFirstChannel hisFirst := by
    cases h
    refine ⟨wait, rfl, ?_⟩
    simp only [Wait.opening?, Wait.after?, Option.bind_some, hopening] at hisFirst
    cases wait <;> cases hafter <;> exact hisFirst
  opened _ h hopened := by
    cases h
    refine Or.inl ⟨_, rfl, ?_⟩
    simp only [Wait.opening?, Wait.after?, Option.bind_some, hopening]
    cases wait <;> cases hafter <;> exact hopened
  primed _ channelId h hchannel := by
    cases h
    exact Or.inr (Or.inr (Or.inr (hpriming channelId hchannel)))

theorem quietNext_returns (hopened : ∀ before, handled = .wait before →
      before.opening? = some true →
        context.client.workSelectionEnabled = true ∨ context.client.stratumSubscription = true)
    (hprimed : ∀ before channelId, handled = .wait before → before.priming? = some channelId →
      context.client.workSelectionEnabled = true) :
    QuietNext context handled .returns where
  share _ h := by cases h
  push _ h := by cases h
  loads _ h := by cases h
  opening _ h := by cases h
  opened before h hopening := Or.inr (Or.inr (hopened before h hopening))
  primed before channelId h hpriming :=
    Or.inr (Or.inr (Or.inl (hprimed before channelId h hpriming)))

theorem turnCase_openEntity (channelId requestId : ℕ) (isFirstChannel : Bool) :
    TurnCase host config env context (.wait (.openEntity channelId requestId isFirstChannel))
      (context.afterOpenEntity channelId requestId isFirstChannel) := by
  unfold afterOpenEntity
  refine turnCase_idle ?_ ⟨?_, ?_, ?_, ?_, ?_, ?_⟩
  · intro event hevent
    split at hevent
    · cases hevent
    · simp only at hevent
      split at hevent <;> exact isFrame_send hevent trivial
  · intro wait h
    cases h
    rfl
  · intro wait h
    cases h
    rfl
  · intro wait h load hload
    cases h
    cases hload
  · intro wait h isFirst hopening
    cases h
    exact ⟨_, rfl, hopening⟩
  · intro before h hopening
    cases h
    exact Or.inl ⟨_, rfl, hopening⟩
  · intro before id h hpriming
    cases h
    exact Or.inl ⟨_, rfl, hpriming⟩

theorem turnCase_openReply (channelId : ℕ) (isFirstChannel : Bool) :
    TurnCase host config env context (.wait (.openReply channelId isFirstChannel))
      (context.afterOpenReply channelId isFirstChannel) := by
  unfold afterOpenReply
  split
  · rename_i hselection
    exact turnCase_idle (by simp)
      (quietNext_returns (fun _ _ _ => Or.inl hselection) fun _ _ _ _ => hselection)
  · refine turnCase_idle (by simp) ⟨?_, ?_, ?_, ?_, ?_, ?_⟩
    · intro wait h
      cases h
      rfl
    · intro wait h
      cases h
      rfl
    · intro wait h load hload
      cases h
      cases hload
    · intro wait h isFirst hopening
      cases h
      exact ⟨_, rfl, hopening⟩
    · intro before h hopening
      cases h
      exact Or.inl ⟨_, rfl, hopening⟩
    · intro before id h hpriming
      cases h
      exact Or.inl ⟨_, rfl, hpriming⟩

theorem turnCase_firstTemplate (channelId : ℕ) (isFirstChannel : Bool) :
    TurnCase host config env context (.wait (.firstTemplate channelId isFirstChannel))
      (context.withTemplate (.firstTemplate channelId isFirstChannel) fun jobTemplate =>
        context.sendJob host config channelId jobTemplate true (.opening isFirstChannel)
          env.now) := by
  unfold withTemplate
  split
  · rename_i jobTemplate hlatest
    refine turnCase_sendJob (fun channel _ => Or.inl ⟨_, rfl, rfl, rfl, hlatest⟩)
      (fun last h => by cases h) fun hnone => ?_
    refine quietNext_after rfl rfl rfl fun id hid => ?_
    cases hid
    exact hnone
  · exact turnCase_idle (by simp) (quietNext_self rfl rfl)

theorem channelAfter?_eq_some {id : ℕ} (h : client.channelAfter? channelId = some (id, channel)) :
    client.channels.get? id = some channel ∧ channel.isOpen = true := by
  refine ⟨OrdMap.get?_eq_some_iff.mpr (List.mem_of_find?_eq_some h), ?_⟩
  have hfound := List.find?_some h
  simp only [Bool.and_eq_true] at hfound
  exact hfound.2

theorem turnCase_afterJob (after : AfterJob) :
    TurnCase host config env context (.wait (.prevHashFrame after))
      (context.afterJob host config after env.now) := by
  cases after with
  | opening isFirstChannel =>
    have hprimed : ∀ before channelId,
        Handled.wait (.prevHashFrame (.opening isFirstChannel)) = .wait before →
        before.priming? = some channelId → context.client.workSelectionEnabled = true := by
      intro before channelId h hpriming
      cases h
      cases hpriming
    by_cases hfirst : isFirstChannel = true ∧ context.client.workSelectionEnabled = false
    · obtain ⟨rfl, hselection⟩ := hfirst
      cases hsubscription : context.client.stratumSubscription with
      | false => exact .subscribes rfl hselection hsubscription
      | true =>
        -- already subscribed: only the difficulty timer is started
        have hturn : context.afterJob host config (.opening true) env.now =
            { context := { context with client := { context.client with difficultyTimer := true } }
              next := .returns } := by
          simp [afterJob, hselection, subscribeToJobs, hsubscription]
        rw [hturn]
        exact .quiet ⟨rfl, le_rfl, rfl, rfl, id, ChannelsVia.refl, id, fun _ => rfl, fun _ => id⟩
          (Or.inl rfl) (by simp)
          (quietNext_returns (fun _ _ _ => Or.inr hsubscription) hprimed)
    · have hskip : (isFirstChannel && !context.client.workSelectionEnabled) = false := by
        cases isFirstChannel <;> cases hselection : context.client.workSelectionEnabled <;>
          simp_all
      simp only [afterJob, hskip, Bool.false_eq_true, if_false]
      refine turnCase_idle (by simp) (quietNext_returns ?_ hprimed)
      intro before h hopening
      cases h
      cases hopening
      exact Or.inl (by simpa using hfirst)
  | loop jobTemplate sendPrevHash channelId =>
    simp only [afterJob]
    split
    · refine turnCase_idle (by simp) (quietNext_plain (by simp) ?_)
      intro before h
      cases h
      rfl
    · rename_i id channel hnext
      obtain ⟨hfound, hopen⟩ := channelAfter?_eq_some hnext
      refine turnCase_sendJob (fun channel' hchannel' => Or.inr ⟨channelId, rfl, rfl, ?_⟩)
        (fun last h channel' hchannel' => ?_)
        fun _ => quietNext_after rfl rfl rfl fun _ h => by cases h
      · rw [hfound] at hchannel'
        cases hchannel'
        exact hopen
      · cases h
        cases hfound.symm.trans hchannel'
        exact hnext

theorem turnCase_nextTarget (targetDiff : ℚ) (channelId : ℕ) :
    TurnCase host config env context (.wait (.targetFrame targetDiff channelId))
      (context.nextTarget config targetDiff channelId) := by
  have hplain : ∀ before, Handled.wait (.targetFrame targetDiff channelId) = .wait before →
      before.opening? = none := by
    intro before h
    cases h
    rfl
  unfold nextTarget
  split
  · refine turnCase_idle (by simp) (quietNext_plain ?_ hplain)
    intro wait h
    cases h
    exact ⟨rfl, rfl, rfl, rfl⟩
  · simp only
    refine .quiet (quiet_modifyChannel (fun channel => keeps_difficulty channel _ _)
      fun _ => rfl) (Or.inl rfl) (fun _ h => isFrame_send h trivial) (quietNext_plain ?_ hplain)
    intro wait h
    cases h
    exact ⟨rfl, rfl, rfl, rfl⟩

theorem turnCase_refreshTemplate :
    TurnCase host config env context (.wait .refreshTemplate)
      (context.withTemplate .refreshTemplate fun jobTemplate =>
        { context
          next := .waits
            (.prevHashFrame (.loop (refreshedTemplate jobTemplate env.now) true 0)) }) := by
  unfold withTemplate
  split
  · rename_i jobTemplate hlatest
    refine turnCase_idle (by simp) ⟨?_, ?_, ?_, ?_, ?_, ?_⟩
    · intro wait h
      cases h
      rfl
    · intro wait h
      cases h
      rfl
    · intro wait h load hload
      cases h
      refine Or.inr ⟨jobTemplate, env.now, hlatest, ?_⟩
      simpa [Wait.loads, Wait.push?, Wait.after?, AfterJob.loop?] using hload
    · intro wait h isFirst hopening
      cases h
      cases hopening
    · intro before h hopening
      cases h
      cases hopening
    · intro before id h hpriming
      cases h
      cases hpriming
  · exact turnCase_idle (by simp) (quietNext_self rfl rfl)

theorem turnCase_shareReply (share : AcceptedShare) :
    TurnCase host config env context (.wait (.shareReply share))
      (context.afterShareReply share) := by
  unfold afterShareReply
  split
  · exact .records rfl rfl
  · exact turnCase_idle (by simp) quietNext_throws
  · rename_i coinbase blockHex hblock
    refine .carries rfl rfl rfl ?_ (by simp)
    intro coinbase' blockHex' h
    cases h
    exact hblock

/-- A suspended handler that goes on. -/
theorem turnCase_resume (wait : Wait) :
    TurnCase host config env context (.wait wait) (context.resume host config env wait) := by
  have hplain (hopening : wait.opening? = none) : ∀ before, Handled.wait wait = .wait before →
      before.opening? = none := by
    intro before h
    cases h
    exact hopening
  cases wait with
  | nextFrame | recordShare =>
    exact turnCase_idle (by simp) (quietNext_plain (by simp) (hplain rfl))
  | reply thenClose =>
    refine .quiet ?_ (Or.inl ?_) (by simp) (quietNext_plain (by simp) (hplain rfl))
    · split
      · exact (quiet_closeSocket context).1
      · exact Quiet.refl context
    · split
      · exact workSelectionEnabled_closeSocket context
      · rfl
  | openEntity channelId requestId isFirstChannel =>
    exact turnCase_openEntity channelId requestId isFirstChannel
  | openReply channelId isFirstChannel => exact turnCase_openReply channelId isFirstChannel
  | firstTemplate channelId isFirstChannel =>
    exact turnCase_firstTemplate channelId isFirstChannel
  | standardJobFrame channelId jobId jobTemplate sendPrevHash after =>
    refine turnCase_idle ?_ (quietNext_after rfl rfl rfl fun _ h => by cases h)
    intro event hevent
    split at hevent
    · exact isFrame_send hevent trivial
    · cases hevent
  | extendedJobFrame channelId push after => exact .finishes rfl
  | prevHashFrame after => exact turnCase_afterJob after
  | targetFrame targetDiff channelId => exact turnCase_nextTarget targetDiff channelId
  | refreshTemplate => exact turnCase_refreshTemplate
  | customTemplate message =>
    simp only [resume, withTemplate]
    split
    · rename_i jobTemplate hlatest
      exact turnCase_installCustomJob hlatest
    · exact turnCase_idle (by simp) (quietNext_self rfl rfl)
  | shareReply share => exact turnCase_shareReply share
  | submitBlock share coinbase blockHex =>
    exact .carries rfl rfl rfl (fun _ _ h => by cases h) (by simp)
  | saveBlock share coinbase blockSubmissionResult =>
    refine .carries rfl rfl rfl (fun _ _ h => by cases h) ?_
    intro event hevent record share' h
    subst h
    split at hevent <;> simp at hevent
  | finalizeSnapshot share blockSubmissionResult =>
    exact .carries rfl rfl rfl (fun _ _ h => by cases h) (by simp)
  | notifyBlock share blockSubmissionResult => exact .records rfl rfl

/-- A connection subscribes: the latest template reaches it at once. -/
def subscribing (client : StratumV2Client) (latestTemplate : Option JobTemplate) (now : ℕ) :
    StratumV2Client :=
  let subscribed := { client with stratumSubscription := true, difficultyTimer := true }
  match latestTemplate with
  | some jobTemplate => subscribed.onTemplate jobTemplate now
  | none => subscribed

theorem afterJob_subscribes {now : ℕ} (hselection : context.client.workSelectionEnabled = false)
    (hsubscription : context.client.stratumSubscription = false) :
    context.afterJob host config (.opening true) now =
      { context :=
          { context with
            client := subscribing context.client context.jobs.latestTemplate now }
        next := .returns } := by
  simp only [afterJob, hselection, subscribeToJobs, hsubscription, Bool.not_false, Bool.and_true,
    if_true, Bool.false_eq_true, if_false, subscribing]
  cases context.jobs.latestTemplate with
  | none => rfl
  | some jobTemplate =>
    simp only [StratumV2Client.onTemplate, StratumV2Client.clearChannels]
    split <;> rfl

/-- The inversion lemma: every turn is one of the cases. -/
theorem turn_cases (handled : Handled) :
    TurnCase host config env context handled (context.turn host config env handled) := by
  cases handled with
  | frame message =>
    cases message with
    | setupConnection message => exact turnCase_handleSetupConnection message
    | openStandardMiningChannel message =>
      exact turnCase_handleOpenStandardMiningChannel message env.random
    | openExtendedMiningChannel message => exact turnCase_handleOpenExtendedMiningChannel message
    | submitSharesStandard submission => exact turnCase_handleSubmitSharesStandard submission
    | submitSharesExtended submission => exact turnCase_handleSubmitSharesExtended submission
    | setCustomMiningJob message =>
      exact turnCase_handleSetCustomMiningJob message env.declaredJob
    | updateChannel message => exact turnCase_handleUpdateChannel message
    | closeChannel channelId => exact turnCase_handleCloseChannel channelId
    | malformed => exact turnCase_idle (by simp) quietNext_throws
    | unsupported => exact turnCase_idle (by simp) (quietNext_frame (by simp))
  | wait wait =>
    simp only [turn]
    split
    · exact turnCase_idle (by simp) quietNext_throws
    · exact turnCase_resume wait

/-- Job ids and channel ids are only given out. -/
theorem TurnCase.grows {turn : Turn} (h : TurnCase host config env context handled turn) :
    context.jobs.latestJobId ≤ turn.context.jobs.latestJobId ∧
      context.stratumV2Service.channelIdCounter
        ≤ turn.context.stratumV2Service.channelIdCounter := by
  cases h with
  | quiet hquiet => exact ⟨by rw [hquiet.jobs], hquiet.counter⟩
  | opens hopens => exact ⟨by rw [hopens.jobs], by rw [hopens.counter]; exact Nat.le_succ _⟩
  | subscribes _ hselection hsubscription =>
    rw [afterJob_subscribes hselection hsubscription]
    exact ⟨le_rfl, le_rfl⟩
  | addsJob | sendsStandard | beginsExtended | installs => exact ⟨Nat.le_succ _, le_rfl⟩
  | finishes | remembers | accepts | carries | records => exact ⟨le_rfl, le_rfl⟩

end

end PublicPool.Proofs
