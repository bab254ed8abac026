import PublicPool.Lib.Latest
import PublicPool.Proofs.Sv2.Rules
import PublicPool.Proofs.Targets

/-!
# `PublicPool.Proofs.Sv2.AnnouncedTarget`: a Stratum V2 channel and the target it was told

Every job of a channel is held to the difficulty that the channel had when the job was sent, and
the channel is told a target when it is opened and whenever its difficulty moves. A new target is
for all the work that follows, so it agrees with what a job is held to unless the difficulty was
eased since.

`TellsTargets` is what any turn does to the difficulties of the channels: it moves none without a
word. The invariant is that the last target a channel was told is the one of its difficulty.
-/

set_option autoImplicit false

namespace PublicPool.Proofs

open Lib
open Sv2
open Sv2.Context
open DifficultyUtils

/-! ### What a channel was told -/

/-- The target that a frame announces to a channel. -/
def targetOf (channelId : ℕ) : Sv2Event → Option Bytes
  | .openStandardMiningChannelSuccess _ id target _
  | .openExtendedMiningChannelSuccess _ id target _ _ | .setTarget id target =>
    if id = channelId then some target else none
  | _ => none

/-- The target that an output announces to a channel of a connection. -/
def targetTo (id channelId : ℕ) : Sv2Output → Option Bytes
  | .client id' event => if id' = id then targetOf channelId event else none
  | .published _ => none

/-- The most recent target that a channel was told. -/
def lastTarget (id channelId : ℕ) (history : List Sv2Output) : Option Bytes :=
  latest (targetTo id channelId) history

/-- The refusal of a share for its difficulty. -/
def isTooLow : Sv2Output → Bool
  | .client _ (.submitSharesError _ _ errorCode) => errorCode = "difficulty-too-low"
  | _ => false

/-- The header that a submission makes up with a live job of its channel. -/
def headerOn (host : Externals) (jobs : StratumV1JobsService) (channel : ChannelState)
    (tuple : ShareTuple) : Option Bytes :=
  match tuple.extranonce with
  | none =>
    match jobs.getJobById (Js.toString16 tuple.jobId), channel.jobIdToMerkleRoot tuple.jobId with
    | some job, some sentMerkleRoot =>
      (jobs.getJobTemplateById job.jobTemplateId).bind fun jobTemplate =>
        shareHeader jobTemplate.block.prevHash jobTemplate.block.bits sentMerkleRoot tuple
    | _, _ => none
  | some extranonce =>
    ((channel.extendedJobs tuple.jobId).filter fun job =>
        job.retiredAt.isNone && extranonce.length = channel.extranonceSize).bind fun job =>
      shareHeader job.prevHash job.nBits
        (merkleRootOfPath host
          (host.hash256 (job.coinbaseTxBytes channel.extranoncePrefix extranonce)) job.merklePath)
        tuple

/-- A submission on a live job: its connection, its channel and the header it makes up. -/
structure LiveShare where
  id : ℕ
  channelId : ℕ
  channel : ChannelState
  tuple : ShareTuple
  header : Bytes

section
variable (host : Externals) (config : Sv2Config)

/-- The submission that a step judges, if its job is live. -/
def liveShare (world : Sv2World) : Sv2Input → Option LiveShare
  | .resume id k _ =>
    (world.clients id).bind fun client =>
      (client.tasks[k]?).bind fun task =>
        match task.handled.1 with
        | .frame message =>
          (submitted? client message).bind fun submitted =>
            (headerOn host world.jobs submitted.2.1 submitted.2.2).map fun header =>
              { id, channelId := submitted.1, channel := submitted.2.1, tuple := submitted.2.2,
                header }
        | .wait _ => none
  | _ => none

/-- A submission on a live job whose hash meets the last target of its channel is not refused for
a low difficulty. -/
def Sv2Honoured (world : Sv2World) (history : List Sv2Output) (input : Sv2Input) : Prop :=
  ∀ live ∈ liveShare host world input, ∀ target ∈ lastTarget live.id live.channelId history,
    meetsTarget (host.hash256 live.header).bytes target = true →
      ∀ output ∈ (sv2Step host config world input).2, isTooLow output = false

/-- The condition: no submission comes on a job that was sent at a higher difficulty than its
channel has now. -/
def NotEased (world : Sv2World) (_ : List Sv2Output) (input : Sv2Input) : Prop :=
  ∀ live ∈ liveShare host world input,
    (live.channel.jobDifficulty live.tuple.jobId).getD 0 ≤ live.channel.sessionDifficulty.getD 0

instance (world : Sv2World) (history : List Sv2Output) (input : Sv2Input) :
    Decidable (Sv2Honoured host config world history input) :=
  inferInstanceAs (Decidable (∀ _ ∈ _, _))

instance (world : Sv2World) (history : List Sv2Output) (input : Sv2Input) :
    Decidable (NotEased host world history input) :=
  inferInstanceAs (Decidable (∀ _ ∈ _, _))

end

/-! ### What a turn tells -/

/-- A channel keeps its difficulty. -/
def SameDifficulty (channel channel' : ChannelState) : Prop :=
  channel'.sessionDifficulty = channel.sessionDifficulty

/-- What moves no difficulty. -/
structure SameTargets (context context' : Context) : Prop where
  counter :
    context.stratumV2Service.channelIdCounter ≤ context'.stratumV2Service.channelIdCounter
  destroyed : context.client.destroyed = true → context'.client.destroyed = true
  channels : ChannelsVia SameDifficulty context.client.channels context'.client.channels

/-- What a turn makes of the targets: a channel is new, or it keeps its difficulty, or it is told
the target of the difficulty it has then. A connection that is destroyed tells nothing. -/
structure TellsTargets (context : Context) (turn : Turn) : Prop where
  counter :
    context.stratumV2Service.channelIdCounter ≤ turn.context.stratumV2Service.channelIdCounter
  destroyed : context.client.destroyed = true → turn.context.client.destroyed = true
  channels : ∀ channelId channel', turn.context.client.channels.get? channelId = some channel' →
    (context.stratumV2Service.channelIdCounter ≤ channelId ∧
        channelId < turn.context.stratumV2Service.channelIdCounter) ∨
      ∃ channel, context.client.channels.get? channelId = some channel ∧
        (latest (targetOf channelId) turn.events
            = some (difficultyToTarget channel'.sessionDifficulty) ∨
          latest (targetOf channelId) turn.events = none ∧
            (turn.context.client.destroyed = false → SameDifficulty channel channel'))
  known : ∀ channelId, latest (targetOf channelId) turn.events ≠ none →
    (context.client.channels.get? channelId).isSome = true

/-- Events that announce no target. -/
def Silent (events : List Sv2Event) : Prop :=
  ∀ event ∈ events, ∀ channelId, targetOf channelId event = none

section
variable {context context' context'' : Context} {events : List Sv2Event} {next : Next}

theorem sameDifficulty_refl (channels : OrdMap ℕ ChannelState) :
    ChannelsVia SameDifficulty channels channels := fun _ channel h => ⟨channel, h, rfl⟩

variable {channelId : ℕ} {event : Sv2Event}

variable {channels : OrdMap ℕ ChannelState}

theorem sameDifficulty_modify {f : ChannelState → ChannelState}
    (hf : ∀ channel, SameDifficulty channel (f channel)) :
    ChannelsVia SameDifficulty channels (channels.modify channelId f) := by
  intro id channel' h
  rw [OrdMap.get?_modify] at h
  obtain ⟨channel, hchannel, rfl⟩ := Option.map_eq_some_iff.mp h
  refine ⟨channel, hchannel, ?_⟩
  split
  · exact hf channel
  · rfl

theorem sameDifficulty_mapValues {f : ℕ → ChannelState → ChannelState}
    (hf : ∀ id channel, SameDifficulty channel (f id channel)) :
    ChannelsVia SameDifficulty channels (channels.mapValues f) := by
  intro id channel' h
  rw [OrdMap.get?_mapValues] at h
  obtain ⟨channel, hchannel, rfl⟩ := Option.map_eq_some_iff.mp h
  exact ⟨channel, hchannel, hf id channel⟩

theorem SameTargets.refl (context : Context) : SameTargets context context :=
  ⟨le_rfl, id, sameDifficulty_refl _⟩

theorem SameTargets.trans (h : SameTargets context context') (h' : SameTargets context' context'') :
    SameTargets context context'' where
  counter := h.counter.trans h'.counter
  destroyed hdestroyed := h'.destroyed (h.destroyed hdestroyed)
  channels id channel'' hchannel'' := by
    obtain ⟨channel', hchannel', hsame'⟩ := h'.channels id channel'' hchannel''
    obtain ⟨channel, hchannel, hsame⟩ := h.channels id channel' hchannel'
    exact ⟨channel, hchannel, Eq.trans hsame' hsame⟩

theorem sameTargets_closeSocket (context : Context) : SameTargets context context.closeSocket := by
  refine ⟨(quiet_closeSocket context).1.counter, fun _ => (quiet_closeSocket context).2, ?_⟩
  unfold closeSocket
  split
  · exact sameDifficulty_refl _
  · exact sameDifficulty_mapValues fun _ _ => rfl

theorem sameTargets_modifyChannel {f : ChannelState → ChannelState}
    (hf : ∀ channel, SameDifficulty channel (f channel)) :
    SameTargets context { context with client := context.client.modifyChannel channelId f } :=
  ⟨le_rfl, id, sameDifficulty_modify hf⟩

theorem latest_of_silent (h : Silent events) (channelId : ℕ) :
    latest (targetOf channelId) events = none :=
  latest_eq_none fun event hevent => h event hevent channelId

theorem silent_nil : Silent [] := fun _ hevent => absurd hevent List.not_mem_nil

theorem silent_send (h : ∀ channelId, targetOf channelId event = none) :
    Silent (context.send event) := by
  intro event' hevent'
  unfold send at hevent'
  split at hevent'
  · cases hevent'
  · rw [List.mem_singleton] at hevent'
    rwa [hevent']

/-- A turn that moves no difficulty and announces none. -/
theorem SameTargets.tells (h : SameTargets context context') (hsilent : Silent events) :
    TellsTargets context { context := context', events, next } where
  counter := h.counter
  destroyed := h.destroyed
  channels channelId channel' hchannel' := by
    obtain ⟨channel, hchannel, hsame⟩ := h.channels channelId channel' hchannel'
    exact Or.inr ⟨channel, hchannel, Or.inr ⟨latest_of_silent hsilent channelId, fun _ => hsame⟩⟩
  known channelId hannounced := absurd (latest_of_silent hsilent channelId) hannounced

theorem tells_idle (hsilent : Silent events) : TellsTargets context { context, events, next } :=
  (SameTargets.refl context).tells hsilent

theorem SameTargets.replies (h : SameTargets context context') {thenClose : Bool}
    (hevent : ∀ channelId, targetOf channelId event = none) :
    TellsTargets context (context'.replies event thenClose) :=
  h.tells (silent_send hevent)

/-- A turn that moves the difficulty of one channel and tells it the target. -/
theorem tells_announces {channel : ChannelState} {sessionDifficulty : Option ℚ}
    (hchannel : context.client.channels.get? channelId = some channel) (hcounter :
      context.stratumV2Service.channelIdCounter ≤ context'.stratumV2Service.channelIdCounter)
    (hdestroyed : context'.client.destroyed = context.client.destroyed)
    (hchannels : ∀ id channel', context'.client.channels.get? id = some channel' →
      ∃ channel, context.client.channels.get? id = some channel ∧
        channel'.sessionDifficulty =
          if id = channelId then sessionDifficulty else channel.sessionDifficulty)
    (hevent : ∀ id, targetOf id event =
      if channelId = id then some (difficultyToTarget sessionDifficulty) else none) :
    TellsTargets context { context := context', events := context'.send event, next } := by
  have hlatest (id : ℕ) : latest (targetOf id) (context'.send event) =
      if context'.client.destroyed = true then none
      else if channelId = id then some (difficultyToTarget sessionDifficulty) else none := by
    unfold send
    split
    · rfl
    · rw [latest_singleton, hevent]
  refine ⟨hcounter, fun h => hdestroyed.trans h, ?_, ?_⟩
  · intro id channel' hchannel'
    obtain ⟨old, hold, hsession⟩ := hchannels id channel' hchannel'
    refine Or.inr ⟨old, hold, ?_⟩
    simp only [hlatest]
    by_cases hid : id = channelId
    · subst hid
      rw [if_pos rfl] at hsession
      by_cases hgone : context'.client.destroyed = true
      · -- nothing is written to a socket that is gone
        rw [if_pos hgone]
        exact Or.inr ⟨rfl, fun hopen => absurd (hgone.symm.trans hopen) (by simp)⟩
      · rw [if_neg hgone, if_pos rfl, hsession]
        exact Or.inl rfl
    · rw [if_neg hid] at hsession
      refine Or.inr ⟨?_, fun _ => hsession⟩
      rw [if_neg (Ne.symm hid), ite_self]
  · intro id hannounced
    rw [hlatest] at hannounced
    by_cases hid : channelId = id
    · subst hid
      rw [hchannel]
      rfl
    · rw [if_neg hid, ite_self] at hannounced
      exact absurd rfl hannounced

/-! ### One case for each handler -/

variable {host : Externals} {config : Sv2Config}

theorem tells_handleSetupConnection (message : Sv2SetupConnection) :
    TellsTargets context (context.handleSetupConnection message) := by
  have hrefuses (event : Sv2Event) (hevent : ∀ channelId, targetOf channelId event = none) :
      TellsTargets context (context.replies event true) := (SameTargets.refl context).replies hevent
  unfold handleSetupConnection
  split
  · exact hrefuses _ fun _ => rfl
  · split
    · exact hrefuses _ fun _ => rfl
    · simp only
      split
      · exact hrefuses _ fun _ => rfl
      · refine SameTargets.replies ?_ fun _ => rfl
        exact ⟨le_rfl, id, sameDifficulty_refl _⟩

theorem sameTargets_beginOpen (identity : UserIdentity) :
    SameTargets context (context.beginOpen identity) := by
  unfold beginOpen
  cases context.client.hasNoChannel with
  | true => exact ⟨Nat.le_succ _, id, sameDifficulty_refl _⟩
  | false => exact ⟨Nat.le_succ _, id, sameDifficulty_refl _⟩

/-- A channel is new under the number that was taken. -/
theorem SameTargets.addChannel (h : SameTargets context context') {channelId requestId : ℕ}
    {channel : ChannelState} {isFirstChannel : Bool}
    (hold : context.stratumV2Service.channelIdCounter ≤ channelId)
    (hnew : channelId < context'.stratumV2Service.channelIdCounter) :
    TellsTargets context (context'.addChannel channelId channel requestId isFirstChannel) where
  counter := h.counter
  destroyed := h.destroyed
  channels id channel' hchannel' := by
    simp only [Context.addChannel, OrdMap.get?_set] at hchannel'
    by_cases hid : id = channelId
    · subst hid
      exact Or.inl ⟨hold, hnew⟩
    · rw [if_neg hid] at hchannel'
      obtain ⟨old, hfound, hsame⟩ := h.channels id channel' hchannel'
      exact Or.inr ⟨old, hfound, Or.inr ⟨rfl, fun _ => hsame⟩⟩
  known id hannounced := absurd rfl hannounced

theorem tells_handleOpenStandardMiningChannel (message : Sv2OpenStandardMiningChannel)
    (random : UInt8 × UInt8) :
    TellsTargets context (context.handleOpenStandardMiningChannel host config message random) := by
  unfold handleOpenStandardMiningChannel
  simp only
  split
  · exact (SameTargets.refl context).replies fun _ => rfl
  · exact (sameTargets_beginOpen _).addChannel le_rfl (Nat.lt_succ_self _)

theorem tells_handleOpenExtendedMiningChannel (message : Sv2OpenExtendedMiningChannel) :
    TellsTargets context (context.handleOpenExtendedMiningChannel host config message) := by
  unfold handleOpenExtendedMiningChannel
  simp only
  split
  · exact (SameTargets.refl context).replies fun _ => rfl
  · split
    · exact (sameTargets_beginOpen _).tells silent_nil
    · rename_i extranonceManager extranoncePrefix hallocate
      -- The prefix is the channel's for now, which moves no difficulty.
      have hallocated : SameTargets context
          { context.beginOpen (parseUserIdentity StratumV2Client.normalizeAddress
              message.userIdentity) with
            stratumV2Service :=
              { (context.beginOpen (parseUserIdentity StratumV2Client.normalizeAddress
                  message.userIdentity)).stratumV2Service with extranonceManager } } :=
        (sameTargets_beginOpen _).trans ⟨le_rfl, id, sameDifficulty_refl _⟩
      split
      · refine SameTargets.replies (hallocated.trans ?_) fun _ => rfl
        exact ⟨le_rfl, id, sameDifficulty_refl _⟩
      · exact hallocated.addChannel le_rfl (Nat.lt_succ_self _)

theorem tells_answerShare (h : SameTargets context context') (channelId sequenceNumber : ℕ)
    (verdict : ShareVerdict) :
    TellsTargets context (context'.answerShare channelId sequenceNumber verdict) := by
  unfold answerShare
  split
  · exact h.replies fun _ => rfl
  · exact h.tells silent_nil
  · exact h.tells (silent_send fun _ => rfl)

theorem tells_submitShare (channelId sequenceNumber : ℕ) (channel : ChannelState)
    (tuple : ShareTuple) (verdict : ShareVerdict) :
    TellsTargets context
      (context.submitShare channelId sequenceNumber channel tuple verdict) := by
  unfold submitShare
  split
  · exact (SameTargets.refl context).replies fun _ => rfl
  · refine tells_answerShare ?_ ..
    exact sameTargets_modifyChannel fun _ => rfl

theorem tells_handleSubmitSharesStandard (submission : Sv2SubmitSharesStandard) :
    TellsTargets context (context.handleSubmitSharesStandard host submission) := by
  unfold handleSubmitSharesStandard
  simp only
  split
  · exact (SameTargets.refl context).replies fun _ => rfl
  · exact tells_submitShare ..

theorem tells_handleSubmitSharesExtended (submission : Sv2SubmitSharesExtended) :
    TellsTargets context (context.handleSubmitSharesExtended host submission) := by
  unfold handleSubmitSharesExtended
  simp only
  split
  · exact (SameTargets.refl context).replies fun _ => rfl
  · exact tells_submitShare ..

variable (message : Sv2SetCustomMiningJob) (channelId : ℕ) (after : AfterJob) (now : ℕ)
  (env : TurnEnv)

theorem tells_handleSetCustomMiningJob (declaredJob : Option Sv2DeclaredMiningJob) :
    TellsTargets context (context.handleSetCustomMiningJob message declaredJob) := by
  have hfails (errorCode : String) : TellsTargets context
      (context.replies (.setCustomMiningJobError message.channelId.toNat
        message.requestId.toNat errorCode)) := (SameTargets.refl context).replies fun _ => rfl
  unfold handleSetCustomMiningJob
  simp only
  split
  · exact hfails _
  · split
    · exact hfails _
    · split
      · exact hfails _
      · split
        · exact hfails _
        · split
          · exact hfails _
          · split
            · exact hfails _
            · exact tells_idle silent_nil

/-- An update of one channel's difficulty. -/
theorem get?_modifyDifficulty {channels : OrdMap ℕ ChannelState} {channelId : ℕ}
    {sessionDifficulty : Option ℚ} {f : ChannelState → ChannelState}
    (hf : ∀ channel, (f channel).sessionDifficulty = sessionDifficulty) (id : ℕ)
    (channel' : ChannelState) (h : (channels.modify channelId f).get? id = some channel') :
    ∃ channel, channels.get? id = some channel ∧
      channel'.sessionDifficulty =
        if id = channelId then sessionDifficulty else channel.sessionDifficulty := by
  rw [OrdMap.get?_modify] at h
  obtain ⟨channel, hchannel, rfl⟩ := Option.map_eq_some_iff.mp h
  refine ⟨channel, hchannel, ?_⟩
  split
  · exact hf channel
  · rfl

theorem tells_handleUpdateChannel (message : Sv2UpdateChannel) :
    TellsTargets context (context.handleUpdateChannel config message) := by
  unfold handleUpdateChannel
  split
  · exact tells_idle silent_nil
  · rename_i channel hchannel
    obtain ⟨hfound, -⟩ := openChannel?_eq_some hchannel
    simp only
    split
    · refine SameTargets.tells ?_ silent_nil
      exact sameTargets_modifyChannel fun _ => rfl
    · refine tells_announces hfound le_rfl rfl ?_ fun _ => rfl
      exact get?_modifyDifficulty fun _ => rfl

theorem tells_handleCloseChannel : TellsTargets context (context.handleCloseChannel channelId) := by
  have hdeleted : SameTargets context (context.deletingChannel channelId) :=
    ⟨(channelIdCounter_releasePrefix channelId).ge, id, sameDifficulty_modify fun _ => rfl⟩
  unfold handleCloseChannel
  refine SameTargets.tells ?_ silent_nil
  split
  · exact hdeleted.trans (sameTargets_closeSocket _)
  · exact hdeleted

theorem tells_sendJob (jobTemplate : JobTemplate) (sendPrevHash : Bool) (after : AfterJob) (now : ℕ)
    :
    TellsTargets context
      (context.sendJob host config channelId jobTemplate sendPrevHash after now) := by
  unfold sendJob
  split
  · split
    · unfold sendNewMiningJob
      split
      · exact tells_idle silent_nil
      · simp only
        split
        · exact SameTargets.tells ⟨le_rfl, id, sameDifficulty_refl _⟩ silent_nil
        · refine SameTargets.tells ?_ (silent_send fun _ => rfl)
          exact ⟨le_rfl, id, sameDifficulty_modify fun _ => rfl⟩
    · unfold sendNewExtendedMiningJob
      split
      · exact tells_idle silent_nil
      · refine SameTargets.tells ?_ (silent_send fun _ => rfl)
        exact ⟨le_rfl, id, sameDifficulty_refl _⟩
  · exact tells_idle silent_nil

theorem sameDifficulty_clearJobs (channel : ChannelState) (now : ℕ) :
    SameDifficulty channel (channel.clearJobs now) := by
  unfold SameDifficulty ChannelState.clearJobs
  split
  · rfl
  · rfl

theorem sameDifficulty_onTemplate (client : StratumV2Client) (jobTemplate : JobTemplate)
    (now : ℕ) :
    ChannelsVia SameDifficulty client.channels (client.onTemplate jobTemplate now).channels := by
  show ChannelsVia SameDifficulty client.channels (client.clearChannels jobTemplate now).channels
  unfold StratumV2Client.clearChannels
  split
  · refine sameDifficulty_mapValues fun _ channel => ?_
    split
    · exact sameDifficulty_clearJobs channel now
    · rfl
  · exact sameDifficulty_refl _

theorem destroyed_onTemplate (client : StratumV2Client) (jobTemplate : JobTemplate) (now : ℕ) :
    (client.onTemplate jobTemplate now).destroyed = client.destroyed := by
  simp only [StratumV2Client.onTemplate, StratumV2Client.clearChannels]
  split
  · rfl
  · rfl

theorem sameTargets_subscribeToJobs : SameTargets context (context.subscribeToJobs now) := by
  unfold subscribeToJobs
  split
  · exact SameTargets.refl context
  · simp only
    split
    · refine ⟨le_rfl, fun h => ?_, sameDifficulty_onTemplate _ _ now⟩
      rw [destroyed_onTemplate]
      exact h
    · exact ⟨le_rfl, id, sameDifficulty_refl _⟩

theorem tells_afterJob : TellsTargets context (context.afterJob host config after now) := by
  cases after with
  | opening isFirstChannel =>
    simp only [afterJob]
    split
    · have hsubscribed : SameTargets context (context.subscribeToJobs now) :=
        sameTargets_subscribeToJobs now
      refine SameTargets.tells (hsubscribed.trans ?_) silent_nil
      exact ⟨le_rfl, id, sameDifficulty_refl _⟩
    · exact tells_idle silent_nil
  | loop jobTemplate sendPrevHash channelId =>
    simp only [afterJob]
    split
    · exact tells_idle silent_nil
    · exact tells_sendJob ..

theorem tells_afterOpenEntity (channelId requestId : ℕ) (isFirstChannel : Bool) :
    TellsTargets context (context.afterOpenEntity channelId requestId isFirstChannel) := by
  unfold afterOpenEntity
  cases hchannel : context.client.channels.get? channelId with
  | none => exact tells_idle silent_nil
  | some channel =>
    -- The channel is told the difficulty it has, which need not be the one it was opened with.
    have hchannels (id : ℕ) (channel' : ChannelState)
        (hchannel' : context.client.channels.get? id = some channel') :
        ∃ old, context.client.channels.get? id = some old ∧ channel'.sessionDifficulty =
          if id = channelId then channel.sessionDifficulty else old.sessionDifficulty := by
      refine ⟨channel', hchannel', ?_⟩
      by_cases hid : id = channelId
      · subst hid
        rw [if_pos rfl, Option.some.inj (hchannel'.symm.trans hchannel)]
      · rw [if_neg hid]
    cases htype : channel.channelType with
    | standard =>
      simp only [htype]
      exact tells_announces hchannel le_rfl rfl hchannels fun _ => rfl
    | extended =>
      simp only [htype]
      exact tells_announces hchannel le_rfl rfl hchannels fun _ => rfl

theorem tells_nextTarget (targetDiff : ℚ) (channelId : ℕ) :
    TellsTargets context (context.nextTarget config targetDiff channelId) := by
  unfold nextTarget
  split
  · exact tells_idle silent_nil
  · rename_i nextId channel hnext
    obtain ⟨hfound, -⟩ := channelAfter?_eq_some hnext
    refine tells_announces hfound le_rfl rfl ?_ fun _ => rfl
    exact get?_modifyDifficulty fun _ => rfl

theorem tells_installCustomJob (latestTemplate : JobTemplate) (now : ℕ) :
    TellsTargets context (context.installCustomJob host config message latestTemplate now) := by
  unfold installCustomJob
  split
  · simp only
    split
    · exact tells_idle silent_nil
    · exact (SameTargets.refl context).replies fun _ => rfl
    · split
      · exact tells_idle silent_nil
      · refine SameTargets.replies ?_ fun _ => rfl
        exact ⟨le_rfl, id, sameDifficulty_modify fun _ => rfl⟩
  · exact tells_idle silent_nil

theorem tells_withTemplate {wait : Wait} {handler : JobTemplate → Turn}
    (h : ∀ jobTemplate, TellsTargets context (handler jobTemplate)) :
    TellsTargets context (context.withTemplate wait handler) := by
  unfold withTemplate
  split
  · exact h _
  · exact tells_idle silent_nil

theorem tells_recordShare (share : AcceptedShare) (blockSubmissionResult : Option String) :
    TellsTargets context (context.recordShare share blockSubmissionResult) := by
  refine tells_idle fun event hevent channelId => ?_
  rw [List.mem_singleton.mp hevent]
  rfl

theorem tells_resume (wait : Wait) :
    TellsTargets context (context.resume host config env wait) := by
  cases wait with
  | nextFrame | recordShare => exact tells_idle silent_nil
  | reply thenClose =>
    refine SameTargets.tells ?_ silent_nil
    split
    · exact sameTargets_closeSocket context
    · exact SameTargets.refl context
  | openEntity channelId requestId isFirstChannel => exact tells_afterOpenEntity ..
  | openReply channelId isFirstChannel =>
    simp only [resume, afterOpenReply]
    split
    · exact tells_idle silent_nil
    · exact tells_idle silent_nil
  | firstTemplate channelId isFirstChannel =>
    exact tells_withTemplate fun _ => tells_sendJob ..
  | standardJobFrame channelId jobId jobTemplate sendPrevHash after =>
    refine tells_idle ?_
    split
    · exact silent_send fun _ => rfl
    · exact silent_nil
  | extendedJobFrame channelId push after =>
    refine SameTargets.tells (sameTargets_modifyChannel fun _ => rfl) ?_
    split
    · exact silent_send fun _ => rfl
    · exact silent_nil
  | prevHashFrame after => exact tells_afterJob after _
  | targetFrame targetDiff channelId => exact tells_nextTarget targetDiff channelId
  | refreshTemplate => exact tells_withTemplate fun _ => tells_idle silent_nil
  | customTemplate message => exact tells_withTemplate fun _ => tells_installCustomJob ..
  | shareReply share =>
    simp only [resume, afterShareReply]
    split
    · exact tells_recordShare ..
    · exact tells_idle silent_nil
    · exact tells_idle silent_nil
  | submitBlock share coinbase blockHex =>
    refine tells_idle fun event hevent channelId => ?_
    rw [List.mem_singleton.mp hevent]
    rfl
  | saveBlock share coinbase blockSubmissionResult =>
    refine tells_idle fun event hevent channelId => ?_
    split at hevent
    · rw [List.mem_singleton.mp hevent]
      rfl
    · cases hevent
  | finalizeSnapshot share blockSubmissionResult => exact tells_idle silent_nil
  | notifyBlock share blockSubmissionResult => exact tells_recordShare ..

/-- Every turn tells the targets it moves. -/
theorem tells_turn (handled : Handled) :
    TellsTargets context (context.turn host config env handled) := by
  cases handled with
  | frame message =>
    cases message with
    | setupConnection message => exact tells_handleSetupConnection message
    | openStandardMiningChannel message => exact tells_handleOpenStandardMiningChannel message _
    | openExtendedMiningChannel message => exact tells_handleOpenExtendedMiningChannel message
    | submitSharesStandard submission => exact tells_handleSubmitSharesStandard submission
    | submitSharesExtended submission => exact tells_handleSubmitSharesExtended submission
    | setCustomMiningJob message => exact tells_handleSetCustomMiningJob message _
    | updateChannel message => exact tells_handleUpdateChannel message
    | closeChannel channelId => exact tells_handleCloseChannel _
    | malformed | unsupported => exact tells_idle silent_nil
  | wait wait =>
    simp only [turn]
    split
    · exact tells_idle silent_nil
    · exact tells_resume env wait

theorem tells_checkDifficulty (suggested : Option ℚ) :
    TellsTargets context (context.checkDifficulty config suggested) := by
  unfold checkDifficulty
  split
  · exact tells_idle silent_nil
  · split
    · exact tells_idle silent_nil
    · exact SameTargets.tells ⟨le_rfl, id, sameDifficulty_refl _⟩ silent_nil

/-- A turn that is followed by something that moves no difficulty. -/
theorem TellsTargets.followed {turn : Turn} (h : TellsTargets context turn)
    (hsame : SameTargets turn.context context') :
    TellsTargets context { turn with context := context' } where
  counter := h.counter.trans hsame.counter
  destroyed hdestroyed := hsame.destroyed (h.destroyed hdestroyed)
  channels channelId channel'' hchannel'' := by
    obtain ⟨channel', hchannel', hdifficulty⟩ := hsame.channels channelId channel'' hchannel''
    rcases h.channels channelId channel' hchannel' with ⟨hold, hnew⟩ | ⟨channel, hchannel, htold⟩
    · exact Or.inl ⟨hold, hnew.trans_le hsame.counter⟩
    · refine Or.inr ⟨channel, hchannel, ?_⟩
      rcases htold with hannounced | ⟨hsilent, hkept⟩
      · rw [hdifficulty]
        exact Or.inl hannounced
      · refine Or.inr ⟨hsilent, fun halive => Eq.trans hdifficulty (hkept ?_)⟩
        -- what is destroyed stays destroyed
        by_contra hgone
        rw [hsame.destroyed (by simpa using hgone)] at halive
        cases halive
  known := h.known

theorem sameTargets_endTurn (origin : Origin) (turn : Turn) :
    SameTargets turn.context (endTurn origin turn).1 := by
  unfold endTurn
  simp only
  split
  · exact (sameTargets_closeSocket _).trans ⟨le_rfl, id, sameDifficulty_refl _⟩
  · exact ⟨le_rfl, id, sameDifficulty_refl _⟩

end

/-! ### The invariant -/

/-- The last target that a channel was told is the one of its difficulty, unless the connection is
destroyed. The channels so far have the numbers given out so far. -/
structure TargetsTold (world : Sv2World) (history : List Sv2Output) : Prop where
  told : ∀ id client channelId channel, world.clients id = some client →
    client.channels.get? channelId = some channel →
    ∀ target ∈ lastTarget id channelId history,
      client.destroyed = true ∨ target = difficultyToTarget channel.sessionDifficulty
  numbered : ∀ id client channelId channel, world.clients id = some client →
    client.channels.get? channelId = some channel →
    channelId < world.stratumV2Service.channelIdCounter
  known : ∀ id channelId target, target ∈ lastTarget id channelId history →
    channelId < world.stratumV2Service.channelIdCounter

section
variable {host : Externals} {config : Sv2Config} {world : Sv2World} {history : List Sv2Output}

theorem targetsTold_initial : TargetsTold .initial [] where
  told _ _ _ _ hclient := absurd hclient.symm (Option.some_ne_none _)
  numbered _ _ _ _ hclient := absurd hclient.symm (Option.some_ne_none _)
  known _ _ _ htarget := absurd htarget (Option.not_mem_none _)

/-- A channel is told what the events of its own connection announce. -/
theorem lastTarget_map (id c channelId : ℕ) (events : List Sv2Event) :
    lastTarget c channelId (events.map (.client id)) =
      if c = id then latest (targetOf channelId) events else none := by
  rw [lastTarget, latest_map]
  by_cases hc : c = id
  · subst hc
    rw [if_pos rfl]
    congr
    funext event
    exact if_pos rfl
  · rw [if_neg hc]
    exact latest_eq_none fun event _ => if_neg (Ne.symm hc)

/-- A turn of one connection. -/
theorem TargetsTold.turn (h : TargetsTold world history) {id : ℕ}
    {client taken : StratumV2Client} {turn : Turn} (hclient : world.clients id = some client)
    (hchannels : taken.channels = client.channels) (hdestroyed : taken.destroyed = client.destroyed)
    (htells : TellsTargets (world.context taken) turn) :
    TargetsTold (world.update id turn.context) (history ++ turn.events.map (.client id)) where
  told c client' channelId channel' hclient' hchannel' target htarget := by
    by_cases hc : c = id
    · subst hc
      rw [clients_update_self] at hclient'
      obtain rfl := Option.some.inj hclient'
      rcases htells.channels channelId channel' hchannel' with ⟨hnew, -⟩ | ⟨channel, hfound, htold⟩
      · -- a new channel has been told nothing
        have hnone : latest (targetOf channelId) turn.events = none := by
          by_contra hannounced
          have hfound := htells.known channelId hannounced
          obtain ⟨old, hold⟩ := Option.isSome_iff_exists.mp hfound
          have hlt := h.numbered c client channelId old hclient (hchannels ▸ hold)
          exact absurd hlt (not_lt.mpr hnew)
        rw [Option.mem_def, lastTarget, latest_append_of_none] at htarget
        · exact absurd (h.known c channelId target htarget) (not_lt.mpr hnew)
        · exact (lastTarget_map c c channelId turn.events).trans ((if_pos rfl).trans hnone)
      · have hmapped := (lastTarget_map c c channelId turn.events).trans (if_pos rfl)
        rcases htold with hannounced | ⟨hsilent, hkept⟩
        · rw [Option.mem_def, lastTarget, latest_append_of_some (hmapped.trans hannounced)] at htarget
          exact Or.inr (Option.some.inj htarget).symm
        · rw [Option.mem_def, lastTarget, latest_append_of_none (hmapped.trans hsilent)] at htarget
          cases hgone : turn.context.client.destroyed with
          | true => exact Or.inl rfl
          | false =>
            have halive : client.destroyed ≠ true := by
              intro hdead
              rw [htells.destroyed (hdestroyed.trans hdead)] at hgone
              cases hgone
            have hsame := h.told c client channelId channel hclient (hchannels ▸ hfound) target htarget
            rw [hkept hgone]
            exact Or.inr (hsame.resolve_left halive)
    · rw [clients_update_other hc] at hclient'
      have hsilent := (lastTarget_map id c channelId turn.events).trans (if_neg hc)
      rw [Option.mem_def, lastTarget, latest_append_of_none hsilent] at htarget
      exact h.told c client' channelId channel' hclient' hchannel' target htarget
  numbered c client' channelId channel' hclient' hchannel' := by
    by_cases hc : c = id
    · subst hc
      rw [clients_update_self] at hclient'
      obtain rfl := Option.some.inj hclient'
      rcases htells.channels channelId channel' hchannel' with ⟨-, hnew⟩ | ⟨channel, hfound, -⟩
      · exact hnew
      · have hlt := h.numbered c client channelId channel hclient (hchannels ▸ hfound)
        exact hlt.trans_le htells.counter
    · rw [clients_update_other hc] at hclient'
      exact (h.numbered c client' channelId channel' hclient' hchannel').trans_le htells.counter
  known c channelId target htarget := by
    by_cases hannounced : c = id ∧ latest (targetOf channelId) turn.events ≠ none
    · obtain ⟨rfl, hannounced⟩ := hannounced
      obtain ⟨channel, hfound⟩ := Option.isSome_iff_exists.mp (htells.known channelId hannounced)
      have hlt := h.numbered c client channelId channel hclient (hchannels ▸ hfound)
      exact hlt.trans_le htells.counter
    · have hsilent : lastTarget c channelId (turn.events.map (.client id)) = none := by
        rw [lastTarget_map]
        by_cases hc : c = id
        · rw [if_pos hc]
          exact not_not.mp fun hsome => hannounced ⟨hc, hsome⟩
        · exact if_neg hc
      rw [Option.mem_def, lastTarget, latest_append_of_none hsilent] at htarget
      exact (h.known c channelId target htarget).trans_le htells.counter

variable {client : StratumV2Client} {context : Context} {channelId : ℕ} {channel : ChannelState}
  {tuple : ShareTuple}

variable {id : ℕ} {header : Bytes} {message : Sv2Message} {input : Sv2Input}

/-- A step of one connection that moves no difficulty and says nothing. -/
theorem TargetsTold.same (h : TargetsTold world history) (hclient : world.clients id = some client)
    (hsame : SameTargets (world.context client) context) :
    TargetsTold (world.update id context) (history ++ []) := by
  have htells : TellsTargets (world.context client) { context, next := .returns } :=
    hsame.tells silent_nil
  exact h.turn hclient rfl rfl htells

/-- A template that reaches the connections moves no difficulty. -/
theorem TargetsTold.publish (h : TargetsTold world history) (template data : JobTemplate)
    (now : ℕ) :
    TargetsTold
      { world with
        jobs := world.jobs.publish template now
        clients := fun id => (world.clients id).map fun client => client.receiveTemplate data now }
      (history ++ [.published data]) := by
  have hold {id : ℕ} {client' : StratumV2Client}
      (hclient' : (world.clients id).map (fun client => client.receiveTemplate data now)
        = some client') :
      ∃ client, world.clients id = some client ∧ client'.destroyed = client.destroyed ∧
        ChannelsVia SameDifficulty client.channels client'.channels := by
    obtain ⟨client, hclient, rfl⟩ := Option.map_eq_some_iff.mp hclient'
    refine ⟨client, hclient, ?_⟩
    unfold StratumV2Client.receiveTemplate
    split
    · exact ⟨destroyed_onTemplate .., sameDifficulty_onTemplate client data now⟩
    · exact ⟨rfl, sameDifficulty_refl _⟩
  have hlast (id channelId : ℕ) :
      lastTarget id channelId (history ++ [.published data]) = lastTarget id channelId history :=
    latest_append_of_none (latest_singleton _ _)
  constructor
  · intro id client' channelId channel' hclient' hchannel' target htarget
    obtain ⟨client, hclient, hdestroyed, hvia⟩ := hold hclient'
    obtain ⟨channel, hchannel, hsame⟩ := hvia channelId channel' hchannel'
    rw [hlast] at htarget
    rw [hdestroyed, hsame]
    exact h.told id client channelId channel hclient hchannel target htarget
  · intro id client' channelId channel' hclient' hchannel'
    obtain ⟨client, hclient, -, hvia⟩ := hold hclient'
    obtain ⟨channel, hchannel, -⟩ := hvia channelId channel' hchannel'
    exact h.numbered id client channelId channel hclient hchannel
  · intro id channelId target htarget
    rw [hlast] at htarget
    exact h.known id channelId target htarget

/-- A new connection has no channel. -/
theorem TargetsTold.connect (h : TargetsTold world history) (hclient : client.channels = .empty) :
    TargetsTold (world.update id (world.context client)) (history ++ []) := by
  have hother {c : ℕ} {client' : StratumV2Client} {channelId : ℕ} {channel' : ChannelState}
      (hclient' : (world.update id (world.context client)).clients c = some client')
      (hchannel' : client'.channels.get? channelId = some channel') :
      world.clients c = some client' := by
    by_cases hc : c = id
    · subst hc
      rw [clients_update_self] at hclient'
      obtain rfl := Option.some.inj hclient'
      have hempty : client.channels.get? channelId = some channel' := hchannel'
      rw [hclient] at hempty
      cases hempty
    · rwa [clients_update_other hc] at hclient'
  rw [List.append_nil]
  exact ⟨fun c client' channelId channel' hclient' hchannel' =>
      h.told c client' channelId channel' (hother hclient' hchannel') hchannel',
    fun c client' channelId channel' hclient' hchannel' =>
      h.numbered c client' channelId channel' (hother hclient' hchannel') hchannel',
    h.known⟩

/-- Every step of the service keeps the invariant. -/
theorem TargetsTold.step (h : TargetsTold world history) (input : Sv2Input) :
    TargetsTold (sv2Step host config world input).1
      (history ++ (sv2Step host config world input).2) := by
  have hidle : TargetsTold world (history ++ []) := by
    rwa [List.append_nil]
  cases input with
  | connect id sessionId payoutMode =>
    simp only [sv2Step]
    split
    · exact h.connect rfl
    · exact hidle
  | disconnect id =>
    simp only [sv2Step]
    split
    · exact hidle
    · rename_i client hclient
      exact h.same hclient (sameTargets_closeSocket _)
  | template template now => exact h.publish template _ now
  | data id frames =>
    simp only [sv2Step]
    split
    · exact hidle
    · rename_i client hclient
      refine h.same hclient ?_
      unfold StratumV2Client.receive
      split
      · exact .refl _
      · exact ⟨le_rfl, fun hdestroyed => hdestroyed, sameDifficulty_refl _⟩
  | resume id k env =>
    simp only [sv2Step]
    split
    · exact hidle
    · rename_i client hclient
      split
      · exact hidle
      · rename_i task htask
        have htells : TellsTargets (world.context (client.dropTask k))
            ((world.context (client.dropTask k)).turn host config env task.handled.1) :=
          tells_turn env task.handled.1
        have hchannels : (client.dropTask k).channels = client.channels := rfl
        exact h.turn hclient hchannels rfl
          (htells.followed (sameTargets_endTurn task.handled.2 _))
  | checkDifficulty id suggested =>
    simp only [sv2Step]
    split
    · exact hidle
    · rename_i client hclient
      split
      · have htells : TellsTargets (world.context client)
            ((world.context client).checkDifficulty config suggested) :=
          tells_checkDifficulty suggested
        exact h.turn hclient rfl rfl (htells.followed (sameTargets_endTurn .timer _))
      · exact hidle

/-! ### Submissions -/

/-- A header that meets the target of its job is not too low. -/
theorem judgeHeader_ne_tooLow {jobDifficulty : Option ℚ}
    (hmeets : meetsTarget (host.hash256 header).bytes (difficultyToTarget jobDifficulty) = true)
    (accept : Bytes → AcceptedShare) :
    judgeHeader host jobDifficulty (some header) accept ≠ .rejected "difficulty-too-low" := by
  simp only [judgeHeader, if_pos hmeets]
  split
  · simp
  · simp

/-- A submission on a live job is refused for its difficulty only if its hash misses the target of
the job. -/
theorem verdictOn_ne_tooLow {jobs : StratumV1JobsService}
    (hheader : headerOn host jobs channel tuple = some header)
    (hmeets : meetsTarget (host.hash256 header).bytes
      (difficultyToTarget (channel.jobDifficulty tuple.jobId)) = true) :
    verdictOn host jobs channelId channel tuple ≠ .rejected "difficulty-too-low" := by
  unfold headerOn at hheader
  unfold verdictOn
  cases hextranonce : tuple.extranonce with
  | none =>
    simp only [hextranonce] at hheader
    simp only [judgeStandard]
    split at hheader
    · rename_i job sentMerkleRoot hjob hroot
      obtain ⟨jobTemplate, htemplate, hheader⟩ := Option.bind_eq_some_iff.mp hheader
      simp only [hjob, hroot, htemplate, hheader]
      exact judgeHeader_ne_tooLow hmeets _
    · cases hheader
  | some extranonce =>
    simp only [hextranonce] at hheader
    obtain ⟨job, hjob, hheader⟩ := Option.bind_eq_some_iff.mp hheader
    obtain ⟨hfound, hlive⟩ := Option.filter_eq_some_iff.mp hjob
    simp only [Bool.and_eq_true, Option.isNone_iff_eq_none, decide_eq_true_eq] at hlive
    obtain ⟨hretired, hlength⟩ := hlive
    simp only [judgeExtended, hfound, hretired, Option.isSome_none, Bool.false_eq_true, if_false,
      hlength, ne_eq, not_true_eq_false, hheader]
    exact judgeHeader_ne_tooLow hmeets _

/-- The handler of a submission on an open channel of its kind. -/
theorem handleFrame_of_submitted (host : Externals) (config : Sv2Config) (env : TurnEnv)
    (h : submitted? context.client message = some (channelId, channel, tuple)) :
    ∃ sequenceNumber, context.handleFrame host config env message =
      context.submitShare channelId sequenceNumber channel tuple
        (verdictOn host context.jobs channelId channel tuple) := by
  cases message with
  | submitSharesStandard submission =>
    obtain ⟨channel', hchannel, heq⟩ := Option.map_eq_some_iff.mp h
    obtain ⟨rfl, rfl, rfl⟩ := heq
    refine ⟨submission.sequenceNumber.toNat, ?_⟩
    simp only [handleFrame, handleSubmitSharesStandard, hchannel]
    rfl
  | submitSharesExtended submission =>
    obtain ⟨channel', hchannel, heq⟩ := Option.map_eq_some_iff.mp h
    obtain ⟨rfl, rfl, rfl⟩ := heq
    refine ⟨submission.sequenceNumber.toNat, ?_⟩
    simp only [handleFrame, handleSubmitSharesExtended, hchannel]
    rfl
  | _ => cases h

/-- What is sent for a submission with another verdict is no refusal for its difficulty. -/
theorem isTooLow_submitShare {sequenceNumber : ℕ} {verdict : ShareVerdict}
    (hverdict : verdict ≠ .rejected "difficulty-too-low") (id : ℕ) {event : Sv2Event}
    (hevent : event ∈ (context.submitShare channelId sequenceNumber channel tuple verdict).events) :
    isTooLow (.client id event) = false := by
  have hsend {context' : Context} {sent : Sv2Event} (hmem : event ∈ context'.send sent)
      (hsent : isTooLow (.client id sent) = false) : isTooLow (.client id event) = false := by
    unfold send at hmem
    split at hmem
    · cases hmem
    · rwa [List.mem_singleton.mp hmem]
  unfold submitShare at hevent
  split at hevent
  · exact hsend hevent rfl
  · cases verdict with
    | rejected errorCode =>
      refine hsend hevent (decide_eq_false fun hcode => hverdict ?_)
      rw [hcode]
    | threw => cases hevent
    | accepted share newSharesSum => exact hsend hevent rfl

theorem send_eq_nil (h : context.client.destroyed = true) (event : Sv2Event) :
    context.send event = [] := if_pos h

/-- A connection that is destroyed answers nothing. -/
theorem submitShare_destroyed (h : context.client.destroyed = true) (channelId sequenceNumber : ℕ)
    (channel : ChannelState) (tuple : ShareTuple) (verdict : ShareVerdict) :
    (context.submitShare channelId sequenceNumber channel tuple verdict).events = [] := by
  unfold submitShare
  split
  · exact send_eq_nil h _
  · cases verdict with
    | rejected errorCode => exact send_eq_nil h _
    | threw => rfl
    | accepted share newSharesSum => exact send_eq_nil h _

theorem submitted?_found (h : submitted? client message = some (channelId, channel, tuple)) :
    client.channels.get? channelId = some channel := by
  cases message with
  | submitSharesStandard submission =>
    obtain ⟨channel', hchannel, heq⟩ := Option.map_eq_some_iff.mp h
    obtain ⟨rfl, rfl, rfl⟩ := heq
    exact (openChannel?_eq_some hchannel).1
  | submitSharesExtended submission =>
    obtain ⟨channel', hchannel, heq⟩ := Option.map_eq_some_iff.mp h
    obtain ⟨rfl, rfl, rfl⟩ := heq
    exact (openChannel?_eq_some (Option.filter_eq_some_iff.mp hchannel).1).1
  | _ => cases h

/-- A live submission is the frame that a step takes up. -/
theorem eq_resume_of_liveShare {live : LiveShare} (h : liveShare host world input = some live) :
    ∃ k env client task message, input = .resume live.id k env ∧
      world.clients live.id = some client ∧ client.tasks[k]? = some task ∧
      task.handled.1 = .frame message ∧
      submitted? client message = some (live.channelId, live.channel, live.tuple) ∧
      headerOn host world.jobs live.channel live.tuple = some live.header := by
  cases input with
  | resume id k env =>
    obtain ⟨client, hclient, h⟩ := Option.bind_eq_some_iff.mp h
    obtain ⟨task, htask, h⟩ := Option.bind_eq_some_iff.mp h
    split at h
    · rename_i message hmessage
      obtain ⟨⟨channelId, channel, tuple⟩, hsubmitted, h⟩ := Option.bind_eq_some_iff.mp h
      obtain ⟨header, hheader, rfl⟩ := Option.map_eq_some_iff.mp h
      exact ⟨k, env, client, task, message, rfl, hclient, htask, hmessage, hsubmitted, hheader⟩
    · cases h
  | _ => cases h

/-- In a state that keeps the invariant, a submission is honoured. -/
theorem TargetsTold.honours (h : TargetsTold world history)
    (hcond : NotEased host world history input) : Sv2Honoured host config world history input := by
  intro live hlive target htarget hmeets output houtput
  have hle := hcond live hlive
  obtain ⟨k, env, client, task, message, rfl, hclient, htask, hmessage, hsubmitted, hheader⟩ :=
    eq_resume_of_liveShare hlive
  simp only [sv2Step, hclient, htask, runTask, endTurn, hmessage, Context.turn] at houtput
  obtain ⟨event, hevent, rfl⟩ := List.mem_map.mp houtput
  have htaken : submitted? (world.context (client.dropTask k)).client message
      = some (live.channelId, live.channel, live.tuple) := hsubmitted
  obtain ⟨sequenceNumber, hhandle⟩ := handleFrame_of_submitted host config env htaken
  rw [hhandle] at hevent
  have hfound := submitted?_found hsubmitted
  rcases h.told live.id client live.channelId live.channel hclient hfound target htarget with
    hgone | rfl
  · -- nobody is left to be refused
    have hgone' : (world.context (client.dropTask k)).client.destroyed = true := hgone
    rw [submitShare_destroyed hgone'] at hevent
    cases hevent
  · have hjob := meetsTarget_of_le hle (host.hash256 live.header).length_eq hmeets
    exact isTooLow_submitShare (verdictOn_ne_tooLow hheader hjob) live.id hevent

end

/-- In every run that meets the condition, a Stratum V2 miner is held to what its channels were
told. -/
theorem along_sv2Honoured (host : Externals) (config : Sv2Config) {inputs : List Sv2Input}
    (hcond : (sv2Machine host config).Along (NotEased host) .initial [] inputs) :
    (sv2Machine host config).Along (Sv2Honoured host config) .initial [] inputs := by
  have hstep (world : Sv2World) (history : List Sv2Output) (input : Sv2Input)
      (hinv : TargetsTold world history) (hinput : NotEased host world history input) :
      Sv2Honoured host config world history input ∧
        TargetsTold ((sv2Machine host config).step world input).1
          (history ++ ((sv2Machine host config).step world input).2) :=
    ⟨hinv.honours hinput, hinv.step input⟩
  exact Machine.along_of_invariant _ hstep targetsTold_initial hcond

end PublicPool.Proofs
