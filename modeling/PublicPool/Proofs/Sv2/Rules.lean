import PublicPool.Proofs.Sv2.ServiceSteps

/-!
# `PublicPool.Proofs.Sv2.Rules`: rules for channels and for shares

Two rules for invariants. `channels_turn` is for a property of every channel of a connection:
most turns only make a channel forget jobs (`Forgets`), so what is left to show is that the
property survives forgetting and that it holds of a new channel and of a channel that has just
been given a job. Where it matters which channel it is, `TurnCase.channelTurn` says what a turn does
to the one under an id. `shares_turn` is for a property of every share that is accepted: it is enough
to show it where the share is accepted.
-/

set_option autoImplicit false

namespace PublicPool.Sv2

/-- The template that a connection is handed when it subscribes to the jobs. -/
def Context.replayed? (context : Context) : Handled → Option JobTemplate
  | .wait (.prevHashFrame (.opening true)) =>
    if !context.client.workSelectionEnabled && !context.client.stratumSubscription then
      context.jobs.latestTemplate
    else none
  | _ => none

end PublicPool.Sv2

namespace PublicPool.Proofs

open Lib (OrdMap)
open Sv2
open Sv2.Context

/-! ### Channels that forget -/

/-- A channel keeps its kind and its extranonce prefix; jobs may be forgotten or retired. -/
structure Forgets (channel channel' : ChannelState) : Prop where
  channelType : channel'.channelType = channel.channelType
  extranoncePrefix : channel'.extranoncePrefix = channel.extranoncePrefix
  isOpen : channel'.isOpen = true → channel.isOpen = true
  latestPrevHash : channel'.latestExtendedPrevHash = channel.latestExtendedPrevHash
  latestNBits : channel'.latestExtendedNBits = channel.latestExtendedNBits
  merkleRoots : ∀ jobId merkleRoot, channel'.jobIdToMerkleRoot jobId = some merkleRoot →
    channel.jobIdToMerkleRoot jobId = some merkleRoot
  extendedJobs : ∀ jobId job', channel'.extendedJobs jobId = some job' →
    ∃ job retiredAt, channel.extendedJobs jobId = some job ∧ job' = { job with retiredAt } ∧
      (job.retiredAt.isSome = true → retiredAt.isSome = true)

section
variable (channel : ChannelState) (now : ℕ) (client : StratumV2Client)

theorem Forgets.refl : Forgets channel channel where
  channelType := rfl
  extranoncePrefix := rfl
  isOpen := id
  latestPrevHash := rfl
  latestNBits := rfl
  merkleRoots _ _ := id
  extendedJobs _ job h := ⟨job, job.retiredAt, h, rfl, id⟩

theorem Keeps.forgets {channel channel' : ChannelState} (h : Keeps channel channel') :
    Forgets channel channel' := by
  obtain ⟨_, _, _, hopen, rfl⟩ := h
  exact ⟨rfl, rfl, hopen, rfl, rfl, fun _ _ => id, fun _ job h => ⟨job, job.retiredAt, h, rfl, id⟩⟩

theorem forgets_remember (key : List Char) : Forgets channel (channel.remember key) :=
  ⟨rfl, rfl, id, rfl, rfl, fun _ _ => id, fun _ job h => ⟨job, job.retiredAt, h, rfl, id⟩⟩

/-- A template that clears jobs retires the extended jobs, and the standard ones are gone. -/
theorem forgets_clearJobs : Forgets channel (channel.clearJobs now) := by
  unfold ChannelState.clearJobs
  split
  · refine ⟨rfl, rfl, id, rfl, rfl, fun _ _ => id, ?_⟩
    intro jobId job' h
    obtain ⟨hretired, -⟩ := Option.filter_eq_some_iff.mp h
    obtain ⟨job, hjob, rfl⟩ := Option.map_eq_some_iff.mp hretired
    exact ⟨job, _, hjob, rfl, fun _ => rfl⟩
  · refine ⟨rfl, rfl, id, rfl, rfl, ?_, ?_⟩
    · intro jobId merkleRoot h
      cases h
    · intro jobId job h
      exact ⟨job, job.retiredAt, h, rfl, id⟩

theorem ChannelsVia.forgets {channels channels' : OrdMap ℕ ChannelState}
    (h : ChannelsVia Keeps channels channels') : ChannelsVia Forgets channels channels' := by
  intro id channel' hchannel'
  obtain ⟨channel, hchannel, hkeeps⟩ := h id channel' hchannel'
  exact ⟨channel, hchannel, hkeeps.forgets⟩

theorem channelsVia_forgets_refl (channels : OrdMap ℕ ChannelState) :
    ChannelsVia Forgets channels channels :=
  fun _ channel h => ⟨channel, h, .refl channel⟩

theorem forgets_onTemplate (jobTemplate : JobTemplate) (now : ℕ) :
    ChannelsVia Forgets client.channels (client.onTemplate jobTemplate now).channels := by
  show ChannelsVia Forgets client.channels (client.clearChannels jobTemplate now).channels
  unfold StratumV2Client.clearChannels
  split
  · intro id channel' hchannel'
    rw [OrdMap.get?_mapValues] at hchannel'
    obtain ⟨channel, hchannel, rfl⟩ := Option.map_eq_some_iff.mp hchannel'
    refine ⟨channel, hchannel, ?_⟩
    split
    · exact forgets_clearJobs channel now
    · exact Forgets.refl channel
  · exact channelsVia_forgets_refl client.channels

theorem forgets_subscribing (latestTemplate : Option JobTemplate) (now : ℕ) :
    ChannelsVia Forgets client.channels (subscribing client latestTemplate now).channels := by
  cases latestTemplate with
  | none => exact channelsVia_forgets_refl client.channels
  | some jobTemplate =>
    exact forgets_onTemplate { client with stratumSubscription := true, difficultyTimer := true }
      jobTemplate now

end

/-! ### The rule for channels -/

/-- Every channel of a connection has a property. -/
def EveryChannel (P : ChannelState → Prop) (client : StratumV2Client) : Prop :=
  ∀ id channel, client.channels.get? id = some channel → P channel

section
variable {host : Externals} {config : Sv2Config} {env : TurnEnv} {context : Context}
  {handled : Handled} {P Q : ChannelState → Prop}

variable {client client' : StratumV2Client} {channelId id sum : ℕ} {turn : Turn}
  {channel' channel : ChannelState} {world world' : Sv2World} {input : Sv2Input}
  {share : AcceptedShare} {events : List Sv2Output}

theorem EveryChannel.via (h : EveryChannel P client)
    (hvia : ChannelsVia Forgets client.channels client'.channels)
    (hforgets : ∀ channel channel', P channel → Forgets channel channel' → Q channel') :
    EveryChannel Q client' := by
  intro id channel' hchannel'
  obtain ⟨channel, hchannel, hforget⟩ := hvia id channel' hchannel'
  exact hforgets channel channel' (h id channel hchannel) hforget

theorem EveryChannel.modify (h : EveryChannel P client) {f : ChannelState → ChannelState}
    (hPQ : ∀ channel, P channel → Q channel)
    (hf : ∀ channel, client.channels.get? channelId = some channel → Q (f channel)) :
    EveryChannel Q (client.modifyChannel channelId f) := by
  intro id channel' hchannel'
  rw [StratumV2Client.modifyChannel, OrdMap.get?_modify] at hchannel'
  obtain ⟨channel, hchannel, rfl⟩ := Option.map_eq_some_iff.mp hchannel'
  split
  · rename_i hid
    exact hf channel (hid ▸ hchannel)
  · exact hPQ channel (h id channel hchannel)

/-- What a turn can give to a channel: a standard job, an extended job at the end of its sending,
or a custom job. -/
inductive Gives (host : Externals) (config : Sv2Config) (env : TurnEnv) (context : Context)
    (handled : Handled) : StratumV1JobsService → ChannelState → ChannelState → Prop
  | standard {channelId : ℕ} {channel : ChannelState} {address : String}
      {jobTemplate : JobTemplate} {sendPrevHash : Bool} {after : AfterJob} {job : MiningJob}
      {coinbase : Transaction}
      (hsends : Sends context handled channelId channel address jobTemplate sendPrevHash after)
      (htype : channel.channelType = .standard)
      (hjob : CreatesJob host config context address jobTemplate env.now job)
      (hcoinbase : job.blockCoinbase host (Js.toHex channel.extranoncePrefix)
        fixedStandardExtranonce2 = some coinbase) :
      Gives host config env context handled (context.jobs.addJob job) channel
        (channel.setStandardJob context.nextJobId (job.blockMerkleRoot host coinbase))
  | extended {channelId : ℕ} {push : ExtendedPush} {after : AfterJob} {channel : ChannelState}
      (hhandled : handled = .wait (.extendedJobFrame channelId push after))
      (hfound : context.client.channels.get? channelId = some channel) :
      Gives host config env context handled context.jobs channel (finishPush push channel)
  | custom {message : Sv2SetCustomMiningJob} {jobTemplate : JobTemplate}
      {channel : ChannelState} {address : String} {job : MiningJob} {split : Bytes × Bytes}
      (hhandled : handled = .wait (.customTemplate message))
      (hlatest : context.jobs.latestTemplate = some jobTemplate)
      (hfound : context.client.channels.get? message.channelId.toNat = some channel)
      (haddress : context.client.address = some address)
      (hvalid : ValidatesCustomJob host config context message jobTemplate channel address) :
      Gives host config env context handled (context.jobs.addJob job) channel
        (channel.setExtendedJob context.nextJobId (customJob message split jobTemplate job))

/-- The rule for channels. `P` holds before the turn and `Q` afterwards. -/
theorem channels_turn (hturn : TurnCase host config env context handled turn)
    (h : EveryChannel P context.client)
    (hforgets : ∀ channel channel', P channel → Forgets channel channel' → Q channel')
    (hnew : ∀ channel, IsNew channel → Q channel)
    (hgives : ∀ channel channel', P channel → turn.next ≠ .throws →
      Gives host config env context handled turn.context.jobs channel channel' → Q channel') :
    EveryChannel Q turn.context.client := by
  have hPQ : ∀ channel, P channel → Q channel :=
    fun channel hP => hforgets channel channel hP (.refl channel)
  have hsame : ∀ client : StratumV2Client, client.channels = context.client.channels →
      EveryChannel Q client :=
    fun client hclient => h.via (hclient ▸ channelsVia_forgets_refl _) hforgets
  cases hturn with
  | quiet hquiet => exact h.via hquiet.channels.forgets hforgets
  | opens hopens =>
    intro id channel' hchannel'
    rw [hopens.channels, OrdMap.get?_set] at hchannel'
    split at hchannel'
    · cases hchannel'
      exact hnew _ hopens.new
    · exact hPQ channel' (h id channel' hchannel')
  | subscribes hhandled hselection hsubscription =>
    rw [afterJob_subscribes hselection hsubscription]
    exact h.via (forgets_subscribing _ _ _) hforgets
  | addsJob | beginsExtended | carries | records => exact hsame _ rfl
  | @sendsStandard channelId channel _ _ _ _ _ _ _ hsends htype hjob hcoinbase =>
    refine h.modify hPQ fun channel' hchannel' => ?_
    cases hsends.found.symm.trans hchannel'
    exact hgives channel _ (h channelId channel hchannel') (by rintro ⟨⟩)
      (.standard hsends htype hjob hcoinbase)
  | @finishes channelId push after hhandled =>
    exact h.modify hPQ fun channel hchannel =>
      hgives channel _ (h channelId channel hchannel) (by rintro ⟨⟩) (.extended hhandled hchannel)
  | @installs message _ channel _ _ _ _ hhandled hlatest hfound haddress hvalid =>
    refine h.modify hPQ fun channel' hchannel' => ?_
    cases hfound.symm.trans hchannel'
    exact hgives channel _ (h _ channel hchannel') (by rintro ⟨⟩)
      (.custom hhandled hlatest hchannel' haddress hvalid)
  | remembers | accepts =>
    exact h.modify hPQ fun channel hchannel =>
      hforgets channel _ (h _ channel hchannel) (forgets_remember channel _)

/-! ### One channel -/

/-- What a turn does to the channel under an id: a subscription that is handed a template which
clears jobs clears it, it is given a job, it remembers a submission, or it keeps what it has. -/
inductive ChannelTurn (host : Externals) (config : Sv2Config) (env : TurnEnv) (context : Context)
    (handled : Handled) (turn : Turn) (id : ℕ) (channel' : ChannelState) : Prop
  | keeps {channel : ChannelState} (hfound : context.client.channels.get? id = some channel)
      (hkeeps : Keeps channel channel')
  | opens (hid : id = context.stratumV2Service.channelIdCounter) (hnew : IsNew channel')
  | clears {channel : ChannelState} {jobTemplate : JobTemplate}
      (hfound : context.client.channels.get? id = some channel)
      (hreplayed : context.replayed? handled = some jobTemplate)
      (hclear : jobTemplate.blockData.clearJobs = true) (hnext : turn.next ≠ .throws)
      (heq : channel' = channel.clearJobs env.now)
  | gives {channel : ChannelState} (hfound : context.client.channels.get? id = some channel)
      (hgives : Gives host config env context handled turn.context.jobs channel channel')
  | remembers {channel : ChannelState} {tuple : ShareTuple}
      (hfound : context.client.channels.get? id = some channel)
      (hfresh : Fresh context handled id channel tuple)
      (heq : channel' = channel.remember tuple.submissionKey)

theorem channelTurn_modify {f : ChannelState → ChannelState}
    (h : (context.client.modifyChannel channelId f).channels.get? id = some channel')
    (hf : ∀ channel, context.client.channels.get? channelId = some channel →
      ChannelTurn host config env context handled turn channelId (f channel)) :
    ChannelTurn host config env context handled turn id channel' := by
  rw [StratumV2Client.modifyChannel, OrdMap.get?_modify] at h
  obtain ⟨channel, hchannel, rfl⟩ := Option.map_eq_some_iff.mp h
  split
  · rename_i hid
    subst hid
    exact hf channel hchannel
  · exact .keeps hchannel (.refl channel)

theorem TurnCase.channelTurn (h : TurnCase host config env context handled turn)
    (hchannel' : turn.context.client.channels.get? id = some channel') :
    ChannelTurn host config env context handled turn id channel' := by
  cases h with
  | quiet hquiet =>
    obtain ⟨channel, hfound, hkeeps⟩ := hquiet.channels id channel' hchannel'
    exact .keeps hfound hkeeps
  | opens hopens =>
    rw [hopens.channels, OrdMap.get?_set] at hchannel'
    split at hchannel'
    · rename_i hid
      cases hchannel'
      exact .opens hid hopens.new
    · exact .keeps hchannel' (.refl channel')
  | subscribes hhandled hselection hsubscription =>
    have hreplayed : context.replayed? handled = context.jobs.latestTemplate := by
      rw [hhandled]
      simp only [replayed?, hselection, hsubscription, Bool.not_false, Bool.and_self, if_true]
    have hturned := hchannel'
    have hnext : (context.afterJob host config (.opening true) env.now).next ≠ .throws := by
      rw [afterJob_subscribes hselection hsubscription]
      rintro ⟨⟩
    rw [afterJob_subscribes hselection hsubscription] at hturned
    simp only [subscribing] at hturned
    split at hturned
    · rename_i jobTemplate hlatest
      simp only [StratumV2Client.onTemplate, StratumV2Client.clearChannels] at hturned
      split at hturned
      · rename_i hclear
        rw [OrdMap.get?_mapValues] at hturned
        obtain ⟨channel, hfound, rfl⟩ := Option.map_eq_some_iff.mp hturned
        split
        · exact .clears hfound (hreplayed.trans hlatest) hclear hnext rfl
        · exact .keeps hfound (.refl channel)
      · exact .keeps hturned (.refl channel')
    · exact .keeps hturned (.refl channel')
  | addsJob | beginsExtended | carries | records => exact .keeps hchannel' (.refl channel')
  | sendsStandard hsends htype hjob hcoinbase =>
    refine channelTurn_modify hchannel' fun channel hfound => ?_
    cases hsends.found.symm.trans hfound
    exact .gives hfound (.standard hsends htype hjob hcoinbase)
  | finishes hhandled =>
    exact channelTurn_modify hchannel' fun channel hfound => .gives hfound (.extended hhandled hfound)
  | installs hhandled hlatest hfound' haddress hvalid =>
    refine channelTurn_modify hchannel' fun channel hfound => ?_
    cases hfound'.symm.trans hfound
    exact .gives hfound (.custom hhandled hlatest hfound haddress hvalid)
  | remembers hfresh | accepts hfresh =>
    refine channelTurn_modify hchannel' fun channel hfound => ?_
    cases hfresh.found.symm.trans hfound
    exact .remembers hfound hfresh rfl

/-! ### The rule for shares -/

/-- The suspended handlers go on carrying what they carried: a handler that is new is at the
start of a loop or of a chunk. -/
def CarriesOn (client client' : StratumV2Client) : Prop :=
  ∀ (α : Type) (f : Wait → Option α), f .nextFrame = none →
    (∀ after, f (.prevHashFrame after) = none) → carried f client' = carried f client

theorem carriesOn_of_tasks (h : client'.tasks = client.tasks) : CarriesOn client client' := by
  intro α f _ _
  rw [carried, carried, h]

/-- A template starts a handler that carries nothing yet. -/
theorem carriesOn_onTemplate (client : StratumV2Client) (jobTemplate : JobTemplate) (now : ℕ) :
    CarriesOn client (client.onTemplate jobTemplate now) := by
  intro α f _ hf
  have htasks : (client.onTemplate jobTemplate now).tasks = client.tasks
      ++ [StratumV2Client.sendLoop jobTemplate jobTemplate.blockData.clearJobs .subscription] := by
    simp only [StratumV2Client.onTemplate, StratumV2Client.clearChannels]
    split <;> rfl
  rw [carried, htasks, List.filterMap_append, carried]
  simp [StratumV2Client.sendLoop, hf]

theorem carriesOn_subscribing (client : StratumV2Client) (latestTemplate : Option JobTemplate)
    (now : ℕ) : CarriesOn client (subscribing client latestTemplate now) := by
  cases latestTemplate with
  | none => exact carriesOn_of_tasks rfl
  | some jobTemplate =>
    exact carriesOn_onTemplate
      { client with stratumSubscription := true, difficultyTimer := true } jobTemplate now

/-- No turn touches the other handlers of its connection. -/
theorem TurnCase.carriesOn (h : TurnCase host config env context handled turn) :
    CarriesOn context.client turn.context.client := by
  cases h with
  | quiet hquiet => exact carriesOn_of_tasks hquiet.tasks
  | opens hopens => exact carriesOn_of_tasks hopens.tasks
  | subscribes _ hselection hsubscription =>
    rw [afterJob_subscribes hselection hsubscription]
    exact carriesOn_subscribing _ _ _
  | _ => exact carriesOn_of_tasks rfl

theorem carried?_eq_none {α : Type} {f : Wait → Option α} {next : Next}
    (h : ∀ wait, next = .waits wait → f wait = none) : Next.carried? f next = none := by
  cases next with
  | waits wait => exact h wait rfl
  | _ => rfl

theorem not_recorded_of_isFrame {events : List Sv2Event}
    (h : ∀ event ∈ events, IsFrame event) :
    ∀ event ∈ events, ∀ record share, event ≠ .shareRecorded record share := by
  rintro event hevent record share rfl
  exact h _ hevent

theorem isFrame_finishExtendedJob (context : Context) (channelId : ℕ) (push : ExtendedPush)
    (after : AfterJob) :
    ∀ event ∈ (context.finishExtendedJob channelId push after).events, IsFrame event := by
  intro event hevent
  simp only [finishExtendedJob] at hevent
  split at hevent
  · exact isFrame_send hevent trivial
  · cases hevent

/-- Every share that a connection still has to record has a property. -/
def EveryShare (R : AcceptedShare → Prop) (client : StratumV2Client) : Prop :=
  ∀ share ∈ carried Wait.share? client, R share

/-- The shares that a turn leaves behind: the one it goes on with and those it records. -/
def LeavesShares (R : AcceptedShare → Prop) (turn : Turn) : Prop :=
  (∀ share ∈ Next.carried? Wait.share? turn.next, R share) ∧
    ∀ record share, .shareRecorded record share ∈ turn.events → R share

theorem leavesShares_of_plain {R : AcceptedShare → Prop}
    (hnext : Next.carried? Wait.share? turn.next = none)
    (hevents : ∀ event ∈ turn.events, IsFrame event) : LeavesShares R turn := by
  constructor
  · rw [hnext]
    intro share hshare
    cases hshare
  · intro record share hevent
    exact absurd rfl (not_recorded_of_isFrame hevents _ hevent record share)

/-- The rule for shares: a turn leaves the share that it took up or one that it accepts. -/
theorem shares_turn {R : AcceptedShare → Prop}
    (hturn : TurnCase host config env context handled turn)
    (hhandled : ∀ share ∈ Handled.carried? Wait.share? handled, R share)
    (haccepts : ∀ channelId channel tuple share,
      turn.next = .waits (.shareReply share) → Fresh context handled channelId channel tuple →
      AcceptsTuple host context.jobs channelId channel tuple share → R share) :
    LeavesShares R turn := by
  cases hturn with
  | quiet _ _ hevents hnext => exact leavesShares_of_plain (carried?_eq_none hnext.share) hevents
  | opens => exact leavesShares_of_plain rfl fun _ h => nomatch h
  | subscribes _ hselection hsubscription =>
    rw [afterJob_subscribes hselection hsubscription]
    exact leavesShares_of_plain rfl fun _ h => nomatch h
  | addsJob => exact leavesShares_of_plain rfl fun _ h => nomatch h
  | sendsStandard _ _ _ _ hevents => exact leavesShares_of_plain rfl hevents
  | beginsExtended _ _ _ hevents => exact leavesShares_of_plain rfl hevents
  | finishes => exact leavesShares_of_plain rfl (isFrame_finishExtendedJob _ _ _ _)
  | installs _ _ _ _ _ _ hevents => exact leavesShares_of_plain rfl hevents
  | remembers _ hevents hnext =>
    rcases hnext with rfl | rfl
    · exact leavesShares_of_plain rfl hevents
    · exact leavesShares_of_plain rfl hevents
  | @accepts channelId channel tuple share events hfresh hjudged hevents =>
    constructor
    · intro share' hshare'
      cases hshare'
      exact haccepts channelId channel tuple share rfl hfresh hjudged
    · intro record share' hevent
      exact absurd rfl (not_recorded_of_isFrame hevents _ hevent record share')
  | @carries share wait wait' events hwait hshare hshare' _ hevents =>
    subst hwait
    constructor
    · intro share' hleft
      cases hshare'.symm.trans hleft
      exact hhandled share hshare
    · intro record share' hevent
      exact absurd rfl (hevents _ hevent record share')
  | @records share wait blockSubmissionResult hwait hshare =>
    subst hwait
    constructor
    · intro share' hleft
      cases hleft
    · intro record share' hevent
      rw [recordShare, List.mem_singleton] at hevent
      cases hevent
      exact hhandled share hshare

/-- What is carried by a handler that is taken up, and by the others, was carried before. -/
theorem Takes.mem_carried {taken : StratumV2Client} {origin : Origin}
    (h : Takes world input id client taken handled origin) {α : Type} {f : Wait → Option α}
    (hf : f .nextFrame = none) (hf' : f .recordShare = none) {a : α}
    (ha : a ∈ Handled.carried? f handled ∨ a ∈ carried f taken) : a ∈ carried f client := by
  refine (h.carried_perm hf hf').mem_iff.mpr (List.mem_append.mpr ?_)
  rcases ha with ha | ha
  · exact Or.inl (Option.mem_toList.mpr ha)
  · exact Or.inr ha

/-- What a connection carries after a turn. -/
theorem mem_carried_endTurn (hturn : TurnCase host config env context handled turn)
    (origin : Origin) {α : Type} {f : Wait → Option α} (hf : f .nextFrame = none)
    (hf' : ∀ after, f (.prevHashFrame after) = none) {a : α}
    (ha : a ∈ carried f (endTurn origin turn).1.client) :
    a ∈ carried f context.client ∨ a ∈ Next.carried? f turn.next := by
  rw [carried_endTurn hf, List.mem_append, hturn.carriesOn _ f hf hf', Option.mem_toList] at ha
  exact ha

/-- A block that is handed to the node is the block of its share. -/
theorem submitBlock_turn (hturn : TurnCase host config env context handled turn)
    {coinbase : Transaction} {blockHex : Bytes}
    (hnext : turn.next = .waits (.submitBlock share coinbase blockHex)) :
    share.block = some (some (coinbase, blockHex)) := by
  cases hturn with
  | quiet _ _ _ hquiet => cases hquiet.share _ hnext
  | subscribes _ hselection hsubscription =>
    rw [afterJob_subscribes hselection hsubscription] at hnext
    cases hnext
  | remembers _ _ hleft =>
    rcases hleft with rfl | rfl
    · cases hnext
    · cases hnext
  | carries _ _ hshare hsubmit =>
    cases hnext
    cases hshare
    exact hsubmit coinbase blockHex rfl
  | _ => cases hnext

/-! ### The jobs -/

/-- Jobs are only forgotten and added under new ids. -/
structure JobsGrow (jobs jobs' : StratumV1JobsService) : Prop where
  counter : jobs.latestJobId ≤ jobs'.latestJobId
  before : ∀ n < jobs.latestJobId, ∀ job, jobs'.getJobById (Js.toString16 n) = some job →
    jobs.getJobById (Js.toString16 n) = some job

theorem JobsGrow.refl (jobs : StratumV1JobsService) : JobsGrow jobs jobs :=
  ⟨le_rfl, fun _ _ _ => id⟩

variable {jobs : StratumV1JobsService} {tuple : ShareTuple}

theorem jobsGrow_addJob {job : MiningJob} (hid : job.jobId = jobs.getNextId) :
    JobsGrow jobs (jobs.addJob job) := by
  refine ⟨Nat.le_succ _, fun n hn job' hjob' => ?_⟩
  rcases StratumV1JobsService.jobs_addJob hjob' with ⟨heq, -⟩ | ⟨-, hjob⟩
  · rw [hid, StratumV1JobsService.getNextId, Js.toString16_inj] at heq
    omega
  · exact hjob

theorem jobsGrow_publish (jobs : StratumV1JobsService) (template : JobTemplate) (now : ℕ) :
    JobsGrow jobs (jobs.publish template now) :=
  ⟨le_rfl, fun _ _ _ h => (StratumV1JobsService.jobs_publish h).1⟩

theorem nextJobId_eq (context : Context) : context.nextJobId = context.jobs.latestJobId := by
  rw [nextJobId, StratumV1JobsService.getNextId, Js.toString16, String.toList_ofList,
    Js.readHex_toDigits]

/-- A turn adds at most one job. -/
theorem TurnCase.jobs_cases (h : TurnCase host config env context handled turn) :
    turn.context.jobs = context.jobs ∨
      ∃ job, job.jobId = context.jobs.getNextId ∧ turn.context.jobs = context.jobs.addJob job := by
  cases h with
  | quiet hquiet => exact Or.inl hquiet.jobs
  | opens hopens => exact Or.inl hopens.jobs
  | subscribes _ hselection hsubscription =>
    rw [afterJob_subscribes hselection hsubscription]
    exact Or.inl rfl
  | addsJob _ hjob | sendsStandard _ _ hjob | beginsExtended _ _ hjob | installs _ _ _ _ _ hjob =>
    exact Or.inr ⟨_, (MiningJob.fields_create host hjob).1, rfl⟩
  | finishes | remembers | accepts | carries | records => exact Or.inl rfl

theorem TurnCase.jobsGrow (h : TurnCase host config env context handled turn) :
    JobsGrow context.jobs turn.context.jobs ∧
      (context.jobs.Numbered → turn.context.jobs.Numbered) := by
  rcases h.jobs_cases with heq | ⟨job, hid, heq⟩
  · rw [heq]
    exact ⟨.refl _, id⟩
  · rw [heq]
    exact ⟨jobsGrow_addJob hid, fun hnumbered => hnumbered.addJob hid⟩

/-- No step reuses a job id. -/
theorem StepCase.jobsGrow (h : StepCase host config world input world' events) :
    JobsGrow world.jobs world'.jobs ∧ (world.jobs.Numbered → world'.jobs.Numbered) := by
  cases h with
  | idle | connects | receives => exact ⟨.refl _, id⟩
  | @closes id client =>
    have hjobs : (world.context client).closeSocket.jobs = world.jobs :=
      (quiet_closeSocket (world.context client)).1.jobs
    show JobsGrow world.jobs (world.context client).closeSocket.jobs ∧
      (world.jobs.Numbered → (world.context client).closeSocket.jobs.Numbered)
    rw [hjobs]
    exact ⟨.refl _, fun hnumbered => hnumbered⟩
  | publishes => exact ⟨jobsGrow_publish _ _ _, fun hnumbered => hnumbered.publish _ _⟩
  | @turns id client taken handled origin env turn htakes hturn =>
    have hjobs : (endTurn origin turn).1.jobs = turn.context.jobs := (quiet_endTurn origin turn).1
    have hgrow := hturn.jobsGrow
    rw [← hjobs] at hgrow
    exact hgrow

/-! ### One connection -/

/-- A channel that is left alone by the handlers: it is closed, or its jobs are cleared. -/
def Cleared (channel channel' : ChannelState) : Prop :=
  Keeps channel channel' ∨ ∃ now, channel' = channel.clearJobs now

theorem Cleared.forgets (h : Cleared channel channel') : Forgets channel channel' := by
  rcases h with hkeeps | ⟨now, rfl⟩
  · exact hkeeps.forgets
  · exact forgets_clearJobs channel now

/-- A connection moves without a turn of its own. -/
structure Moves (client client' : StratumV2Client) : Prop where
  channels : ChannelsVia Cleared client.channels client'.channels
  carries : CarriesOn client client'

variable (now : ℕ) (client : StratumV2Client)

theorem Moves.refl : Moves client client where
  channels _ channel h := ⟨channel, h, Or.inl (.refl channel)⟩
  carries := carriesOn_of_tasks rfl

theorem Moves.forgets (h : Moves client client') :
    ChannelsVia Forgets client.channels client'.channels := by
  intro id channel' hchannel'
  obtain ⟨channel, hchannel, hcleared⟩ := h.channels id channel' hchannel'
  exact ⟨channel, hchannel, hcleared.forgets⟩

theorem moves_receiveTemplate (jobTemplate : JobTemplate) (now : ℕ) :
    Moves client (client.receiveTemplate jobTemplate now) := by
  unfold StratumV2Client.receiveTemplate
  split
  · refine ⟨?_, carriesOn_onTemplate client jobTemplate now⟩
    show ChannelsVia Cleared client.channels (client.clearChannels jobTemplate now).channels
    unfold StratumV2Client.clearChannels
    split
    · intro id channel' hchannel'
      rw [OrdMap.get?_mapValues] at hchannel'
      obtain ⟨channel, hchannel, rfl⟩ := Option.map_eq_some_iff.mp hchannel'
      refine ⟨channel, hchannel, ?_⟩
      split
      · exact Or.inr ⟨now, rfl⟩
      · exact Or.inl (.refl channel)
    · exact (Moves.refl client).channels
  · exact .refl client

theorem moves_receive (frames : List Sv2Message) : Moves client (client.receive frames) := by
  unfold StratumV2Client.receive
  split
  · exact .refl client
  · refine ⟨(Moves.refl client).channels, ?_⟩
    intro α f hf _
    rw [carried, carried, List.filterMap_append]
    simp [hf]

/-- What a step is for one connection. -/
inductive ClientCase (host : Externals) (config : Sv2Config) (world : Sv2World) (input : Sv2Input)
    (id : ℕ) (world' : Sv2World) (events : List Sv2Output) : Prop
  | absent (hbefore : world.clients id = none) (hafter : world'.clients id = none)
      (hevents : ∀ event, .client id event ∉ events)
  | connects {sessionId : String} {payoutMode : PayoutMode} (hbefore : world.clients id = none)
      (hafter : world'.clients id = some (.initial config sessionId payoutMode))
      (hevents : ∀ event, .client id event ∉ events)
  | moves {client client' : StratumV2Client} (hbefore : world.clients id = some client)
      (hafter : world'.clients id = some client') (hmoves : Moves client client')
      (hevents : ∀ event, .client id event ∉ events)
  | turns {client taken : StratumV2Client} {handled : Handled} {origin : Origin} {env : TurnEnv}
      {turn : Turn} (htakes : Takes world input id client taken handled origin)
      (hturn : TurnCase host config env (world.context taken) handled turn)
      (hgoes : GoesOn world input id client handled turn)
      (hworld : world' = world.update id (endTurn origin turn).1) (hevents : events = turn.events.map (.client id))

/-- A connection is absent, is left alone, or has a turn. -/
theorem StepCase.client_cases (h : StepCase host config world input world' events) (id : ℕ) :
    ClientCase host config world input id world' events := by
  have hothers (hsame : world'.clients id = world.clients id)
      (hevents : ∀ event, .client id event ∉ events) :
      ClientCase host config world input id world' events := by
    cases hclient : world.clients id with
    | none => exact .absent hclient (hsame.trans hclient) hevents
    | some client => exact .moves hclient (hsame.trans hclient) (.refl client) hevents
  cases h with
  | idle => exact hothers rfl (by simp)
  | @connects id' sessionId payoutMode hnone =>
    by_cases hid : id = id'
    · subst hid
      exact .connects hnone (clients_update_self id _) (by simp)
    · exact hothers (clients_update_other hid _) (by simp)
  | @closes id' client hclient =>
    by_cases hid : id = id'
    · subst hid
      have hquiet := (quiet_closeSocket (world.context client)).1
      refine .moves hclient (clients_update_self id _) ⟨?_, carriesOn_of_tasks hquiet.tasks⟩
        (by simp)
      intro channelId channel' hchannel'
      obtain ⟨channel, hchannel, hkeeps⟩ := hquiet.channels channelId channel' hchannel'
      exact ⟨channel, hchannel, Or.inl hkeeps⟩
    · exact hothers (clients_update_other hid _) (by simp)
  | @publishes template now hinput =>
    have hafter (client : Option StratumV2Client) (hclient : world.clients id = client) :
        (world.clients id).map (fun client =>
          client.receiveTemplate (world.jobs.numberTemplate template now) now)
          = client.map fun client =>
              client.receiveTemplate (world.jobs.numberTemplate template now) now := by
      rw [hclient]
    cases hclient : world.clients id with
    | none => exact .absent hclient (hafter none hclient) (by simp)
    | some client =>
      exact .moves hclient (hafter (some client) hclient) (moves_receiveTemplate client _ now)
        (by simp)
  | @receives id' client frames hclient =>
    by_cases hid : id = id'
    · subst hid
      exact .moves hclient (clients_update_self id _) (moves_receive client frames) (by simp)
    · exact hothers (clients_update_other hid _) (by simp)
  | @turns id' client taken handled origin env turn htakes hturn hgoes =>
    by_cases hid : id = id'
    · subst hid
      exact .turns htakes hturn hgoes rfl rfl
    · refine hothers (clients_update_other hid _) fun event hevent => ?_
      obtain ⟨event', -, heq⟩ := List.mem_map.mp hevent
      cases heq
      exact hid rfl

/-- Channel ids are only given out. -/
theorem StepCase.counter_le (h : StepCase host config world input world' events) :
    world.stratumV2Service.channelIdCounter ≤ world'.stratumV2Service.channelIdCounter := by
  cases h with
  | idle | connects | publishes | receives => exact le_rfl
  | @closes id client => exact (quiet_closeSocket (world.context client)).1.counter
  | turns htakes hturn => exact hturn.grows.2.trans (quiet_endTurn _ _).2.1

/-! ### What an accepted share was judged by -/

theorem judgeHeader_eq_accepted {jobDifficulty : Option ℚ} {header : Option Bytes}
    {accept : Bytes → AcceptedShare}
    (h : judgeHeader host jobDifficulty header accept = .accepted share sum) :
    ∃ bytes, header = some bytes ∧ share = accept bytes := by
  unfold judgeHeader at h
  split at h
  · cases h
  · split at h
    · split at h
      · cases h
      · cases h
        exact ⟨_, rfl, rfl⟩
    · cases h

/-- A standard share names a live job whose merkle root its channel was sent. -/
theorem judgeStandard_eq_accepted
    (h : judgeStandard host jobs channelId channel tuple = .accepted share sum) :
    ∃ job merkleRoot jobTemplate, jobs.getJobById (Js.toString16 tuple.jobId) = some job ∧
      channel.jobIdToMerkleRoot tuple.jobId = some merkleRoot ∧
      jobs.getJobTemplateById job.jobTemplateId = some jobTemplate ∧
      shareHeader jobTemplate.block.prevHash jobTemplate.block.bits merkleRoot tuple
        = some share.header ∧
      share.channelId = channelId ∧ share.tuple = tuple ∧
      share.block =
        if isBlockCandidate host jobTemplate share.header then
          some (job.copyAndUpdateBlock host jobTemplate
            (some (Js.bitXor (some tuple.version) (some jobTemplate.block.version)))
            (some tuple.nonce) (Js.toHex channel.extranoncePrefix)
            fixedStandardExtranonce2 (some tuple.ntime))
        else none := by
  unfold judgeStandard at h
  split at h
  · rename_i job merkleRoot hjob hroot
    split at h
    · cases h
    · rename_i jobTemplate htemplate
      obtain ⟨header, hheader, rfl⟩ := judgeHeader_eq_accepted h
      exact ⟨job, merkleRoot, jobTemplate, hjob, hroot, htemplate, hheader, rfl, rfl, rfl⟩
  · cases h

/-- An extended share names a job of its channel that is not retired. -/
theorem judgeExtended_eq_accepted {extranonce : Bytes}
    (h : judgeExtended host channelId channel tuple extranonce = .accepted share sum) :
    ∃ job merkleRoot coinbaseTxBytes, channel.extendedJobs tuple.jobId = some job ∧
      job.retiredAt = none ∧
      shareHeader job.prevHash job.nBits merkleRoot tuple = some share.header ∧
      share.channelId = channelId ∧ share.tuple = tuple ∧ share.workProtocol = job.workProtocol ∧
      share.block =
        if isBlockCandidate host job.jobTemplate share.header ∧ job.workProtocol ≠ .sv2Jdp then
          some (reconstructExtendedBlock host job tuple merkleRoot coinbaseTxBytes)
        else none := by
  unfold judgeExtended at h
  split at h
  · cases h
  · rename_i job hjob
    split at h
    · cases h
    · rename_i hlive
      split at h
      · cases h
      · obtain ⟨header, hheader, rfl⟩ := judgeHeader_eq_accepted h
        refine ⟨job, _, _, hjob, ?_, hheader, rfl, rfl, rfl, rfl⟩
        simpa using hlive

end

end PublicPool.Proofs
