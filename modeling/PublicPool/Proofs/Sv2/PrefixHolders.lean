import PublicPool.Proofs.Sv2.PrefixBooks

/-!
# `PublicPool.Proofs.Sv2.PrefixHolders`: the connections as holders of prefixes

`holderOf` is what a connection is in the account of `PublicPool.Proofs.Sv2.PrefixBooks`. Every
turn is a sequence of its acts, in which a channel is opened only by the frame that asks for it
(`acts_turn`), and `sv2Step_account` lifts this to the steps of the service. An invariant of the
account is an invariant of the service (`account_invariant`).
-/

set_option autoImplicit false

namespace PublicPool.Proofs

open Lib (OrdMap Machine)
open Sv2
open Sv2.Context
open Relation (ReflTransGen)

/-! ### The view of a connection -/

def markOf (channel : ChannelState) : ChannelMark where
  isOpen := channel.isOpen
  channelType := channel.channelType
  extranoncePrefix := channel.extranoncePrefix
  extranonceSize := channel.extranonceSize

def holderOf (client : StratumV2Client) : Holder where
  destroyed := client.destroyed
  channels := client.channels.mapValues fun _ channel => markOf channel

def holdersOf (world : Sv2World) : ℕ → Option Holder := fun id => (world.clients id).map holderOf

/-- What a handler works on, as far as the account goes. -/
def accountOf (context : Context) : Account := (context.stratumV2Service, holderOf context.client)

/-! ### What opens a channel -/

/-- The frame that a step takes up, with its connection and what the turn is given. -/
structure TakenFrame where
  id : ℕ
  client : StratumV2Client
  env : TurnEnv
  message : Sv2Message

/-- The frame that an input lets a connection take up. -/
def takenFrame (world : Sv2World) : Sv2Input → Option TakenFrame
  | .resume id k env =>
    (world.clients id).bind fun client =>
      (client.tasks[k]?).bind fun task =>
        match task.handled.1 with
        | .frame message => some { id, client, env, message }
        | .wait _ => none
  | _ => none

/-- The frame passes the checks of `handleOpenStandardMiningChannel`. -/
def opensStandard (host : Externals) (context : Context) : Sv2Message → Bool
  | .openStandardMiningChannel message =>
    (context.openError? host
      (parseUserIdentity StratumV2Client.normalizeAddress message.userIdentity).address
      message.maxTarget).isNone
  | _ => false

/-- The frame passes the checks of `handleOpenExtendedMiningChannel`. -/
def opensExtended (host : Externals) (context : Context) : Sv2Message → Bool
  | .openExtendedMiningChannel message =>
    (context.openError? host
      (parseUserIdentity StratumV2Client.normalizeAddress message.userIdentity).address
      message.maxTarget).isNone &&
      message.minExtranonceSize.toNat
        ≤ context.stratumV2Service.extranonceManager.minerExtranonceSize
  | _ => false

/-- The acts of a turn: a channel is opened first of all, by a frame that passes the checks. -/
def Asked (host : Externals) (env : TurnEnv) (context : Context) (handled : Handled)
    (account : Account) : HolderAct → Prop
  | .openStandard random =>
    account = accountOf context ∧ random = env.random ∧
      ∃ message, handled = .frame message ∧ opensStandard host context message = true
  | .openExtended =>
    account = accountOf context ∧
      ∃ message, handled = .frame message ∧ opensExtended host context message = true
  | _ => True

/-- One context comes from another by acts of the turn. -/
def ActsOf (host : Externals) (env : TurnEnv) (context : Context) (handled : Handled)
    (before after : Context) : Prop :=
  ReflTransGen (ActStep (Asked host env context handled)) (accountOf before) (accountOf after)

section
variable {host : Externals} {config : Sv2Config} {env : TurnEnv} {context : Context}
  {handled : Handled} {before after last : Context}

theorem ActsOf.of_eq (h : accountOf after = accountOf before) :
    ActsOf host env context handled before after := by
  unfold ActsOf
  rw [h]

theorem ActsOf.act (act : HolderAct) (hasked : Asked host env context handled (accountOf before) act)
    (h : act.apply before.stratumV2Service (holderOf before.client) = accountOf after) :
    ActsOf host env context handled before after :=
  ReflTransGen.single ⟨act, hasked, h⟩

theorem ActsOf.imp {asked : Account → HolderAct → Prop}
    (h : ActsOf host env context handled before after)
    (hasked : ∀ account act, Asked host env context handled account act → asked account act) :
    ReflTransGen (ActStep asked) (accountOf before) (accountOf after) := by
  have hsteps : ActStep (Asked host env context handled) ≤ ActStep asked := by
    rintro account account' ⟨act, hact, heq⟩
    exact ⟨act, hasked account act hact, heq⟩
  exact ReflTransGen.mono hsteps _ _ h

theorem ActsOf.trans (h : ActsOf host env context handled before after)
    (h' : ActsOf host env context handled after last) :
    ActsOf host env context handled before last := ReflTransGen.trans h h'

variable (channels : OrdMap ℕ ChannelState) (channelId : ℕ) (client : StratumV2Client)
  (message : Sv2SetCustomMiningJob) (jobTemplate : JobTemplate) (after : AfterJob) (now : ℕ)

/-- A channel that is changed keeps its mark. -/
theorem marks_modify {f : ChannelState → ChannelState}
    (hf : ∀ channel, markOf (f channel) = markOf channel) :
    ((channels.modify channelId f).mapValues fun _ channel => markOf channel)
      = channels.mapValues fun _ channel => markOf channel := by
  refine OrdMap.ext_entries ?_
  simp only [OrdMap.modify, OrdMap.entries_mapValues, List.map_map]
  refine List.map_congr_left fun entry _ => ?_
  simp only [Function.comp_apply]
  split
  · rw [hf]
  · rfl

theorem marks_mapValues {channels : OrdMap ℕ ChannelState} {f : ℕ → ChannelState → ChannelState}
    (hf : ∀ id channel, markOf (f id channel) = markOf channel) :
    ((channels.mapValues f).mapValues fun _ channel => markOf channel)
      = channels.mapValues fun _ channel => markOf channel := by
  refine OrdMap.ext_entries ?_
  simp only [OrdMap.entries_mapValues, List.map_map]
  refine List.map_congr_left fun entry _ => ?_
  simp only [Function.comp_apply, hf]

theorem accountOf_modifyChannel {channelId : ℕ} {f : ChannelState → ChannelState}
    (hf : ∀ channel, markOf (f channel) = markOf channel) (jobs : StratumV1JobsService) :
    accountOf { context with jobs, client := context.client.modifyChannel channelId f }
      = accountOf context := by
  have hmarks := marks_modify context.client.channels channelId hf
  simp only [accountOf, holderOf, StratumV2Client.modifyChannel, hmarks]

theorem entries_holds :
    ((holderOf client).channels.entries.filter fun entry => entry.2.holds).map Prod.fst
      = (client.channels.entries.filter fun entry =>
          entry.2.isOpen && entry.2.channelType = .extended).map Prod.fst := by
  simp only [holderOf, OrdMap.entries_mapValues, List.filter_map, List.map_map]
  rfl

/-- Closing the connection is an act. -/
theorem acts_closeSocket : ActsOf host env context handled before before.closeSocket := by
  refine ActsOf.act .closeSocket trivial ?_
  unfold closeSocket
  by_cases hdestroyed : before.client.destroyed = true
  · have hholder : (holderOf before.client).destroyed = true := hdestroyed
    simp only [HolderAct.apply, if_pos hholder, if_pos hdestroyed]
    rfl
  · have hholder : ¬ (holderOf before.client).destroyed = true := hdestroyed
    simp only [HolderAct.apply, if_neg hholder, if_neg hdestroyed, entries_holds]
    simp only [accountOf, holderOf, releasing, releasePrefixes, List.foldl_map]
    refine congrArg _ (congrArg _ (OrdMap.ext_entries ?_))
    simp only [OrdMap.entries_mapValues, List.map_map]
    rfl

/-! ### One case for each handler -/

/-- Setting a channel sets its mark. -/
theorem marks_set (channel : ChannelState) :
    ((channels.set channelId channel).mapValues fun _ channel => markOf channel)
      = (channels.mapValues fun _ channel => markOf channel).set channelId (markOf channel) := by
  refine OrdMap.ext_entries ?_
  by_cases hmem : channelId ∈ channels.keys
  · have hmem' : channelId ∈ (channels.mapValues fun _ channel => markOf channel).keys := by
      rwa [OrdMap.keys_mapValues]
    rw [OrdMap.set_of_mem hmem, OrdMap.set_of_mem hmem']
    simp only [OrdMap.modify, OrdMap.entries_mapValues, List.map_map]
    refine List.map_congr_left fun entry _ => ?_
    simp only [Function.comp_apply]
    split
    · rfl
    · rfl
  · have hmem' : channelId ∉ (channels.mapValues fun _ channel => markOf channel).keys := by
      rwa [OrdMap.keys_mapValues]
    rw [OrdMap.entries_mapValues, OrdMap.entries_set_of_notMem hmem,
      OrdMap.entries_set_of_notMem hmem', List.map_append]
    rfl

theorem account_beginOpen (context : Context) (identity : UserIdentity) :
    accountOf (context.beginOpen identity)
      = (takingNumber context.stratumV2Service, holderOf context.client) := by
  unfold beginOpen
  cases context.client.hasNoChannel with
  | true => rfl
  | false => rfl

theorem acts_handleOpenStandardMiningChannel (message : Sv2OpenStandardMiningChannel)
    (hhandled : handled = .frame (.openStandardMiningChannel message)) :
    ActsOf host env context handled context
      (context.handleOpenStandardMiningChannel host config message env.random).context := by
  unfold handleOpenStandardMiningChannel
  simp only
  cases herror : context.openError? host
      (parseUserIdentity StratumV2Client.normalizeAddress message.userIdentity).address
      message.maxTarget with
  | some error => exact .of_eq rfl
  | none =>
    have hopens : opensStandard host context (.openStandardMiningChannel message) = true := by
      simp only [opensStandard, herror, Option.isNone_none]
    refine ActsOf.act (.openStandard env.random) ⟨rfl, rfl, _, hhandled, hopens⟩ ?_
    have hopening := account_beginOpen context
      (parseUserIdentity StratumV2Client.normalizeAddress message.userIdentity)
    obtain ⟨hservice, hholder⟩ := Prod.mk.inj hopening
    simp only [addChannel, accountOf, HolderAct.apply, Holder.opening, holderOf, hservice,
      marks_set] at hholder ⊢
    obtain ⟨hdestroyed, hchannels⟩ := Holder.mk.inj hholder
    rw [hdestroyed, hchannels]
    rfl

/-- What `allocate` keeps and gives. -/
theorem allocate_sizes {manager manager' : Sv2ExtranonceManager} {channelId : ℕ}
    {extranoncePrefix : Bytes}
    (h : manager.allocate channelId = some (manager', extranoncePrefix)) :
    manager'.minerExtranonceSize = manager.minerExtranonceSize ∧
      manager'.totalExtranonceSize - extranoncePrefix.length = manager.minerExtranonceSize := by
  simp only [Sv2ExtranonceManager.allocate] at h
  split at h
  · cases h
    rw [length_prefixToBuffer]
    exact ⟨rfl, rfl⟩
  · split at h
    · cases h
    · cases h
      rw [length_prefixToBuffer]
      exact ⟨rfl, rfl⟩

theorem acts_handleOpenExtendedMiningChannel (message : Sv2OpenExtendedMiningChannel)
    (hhandled : handled = .frame (.openExtendedMiningChannel message)) :
    ActsOf host env context handled context
      (context.handleOpenExtendedMiningChannel host config message).context := by
  unfold handleOpenExtendedMiningChannel
  simp only
  cases herror : context.openError? host
      (parseUserIdentity StratumV2Client.normalizeAddress message.userIdentity).address
      message.maxTarget with
  | some error => exact .of_eq rfl
  | none =>
    have hopening := account_beginOpen context
      (parseUserIdentity StratumV2Client.normalizeAddress message.userIdentity)
    obtain ⟨hservice, hholder⟩ := Prod.mk.inj hopening
    have hmanager : (takingNumber context.stratumV2Service).extranonceManager
        = context.stratumV2Service.extranonceManager := rfl
    simp only [hservice, hmanager]
    cases hallocate : context.stratumV2Service.extranonceManager.allocate
        context.stratumV2Service.channelIdCounter with
    | none =>
      -- the handler throws, but the number is gone
      refine ActsOf.act .takeNumber trivial ?_
      exact hopening.symm
    | some allocated =>
      obtain ⟨extranonceManager, extranoncePrefix⟩ := allocated
      obtain ⟨hminer, hmax⟩ := allocate_sizes hallocate
      simp only [hminer, hmax, min_self]
      by_cases hfits : context.stratumV2Service.extranonceManager.minerExtranonceSize
          < max context.stratumV2Service.extranonceManager.minerExtranonceSize
              message.minExtranonceSize.toNat
      · rw [if_pos hfits]
        refine ActsOf.act .refuseExtended trivial ?_
        simp only [HolderAct.apply, accountOf, hallocate]
        exact congrArg _ hholder.symm
      · rw [if_neg hfits]
        have hle : message.minExtranonceSize.toNat
            ≤ context.stratumV2Service.extranonceManager.minerExtranonceSize := by omega
        have hopens : opensExtended host context (.openExtendedMiningChannel message) = true := by
          simp only [opensExtended, herror, Option.isNone_none, Bool.true_and, decide_eq_true hle]
        refine ActsOf.act .openExtended ⟨rfl, _, hhandled, hopens⟩ ?_
        simp only [HolderAct.apply, accountOf, hallocate, addChannel, Holder.opening, holderOf,
          marks_set, max_eq_left hle] at hholder ⊢
        obtain ⟨hdestroyed, hchannels⟩ := Holder.mk.inj hholder
        rw [hdestroyed, hchannels, hminer]
        rfl

theorem acts_handleCloseChannel :
    ActsOf host env context handled context (context.handleCloseChannel channelId).context := by
  have hdeleting : ActsOf host env context handled context (context.deletingChannel channelId) := by
    refine ActsOf.act (.closeChannel channelId) trivial ?_
    have hmarks : ((context.client.channels.mapValues fun _ channel => markOf channel).modify
        channelId ChannelMark.close)
          = (context.client.channels.modify channelId fun channel =>
              { channel with isOpen := false }).mapValues fun _ channel => markOf channel := by
      refine OrdMap.ext_entries ?_
      simp only [OrdMap.modify, OrdMap.entries_mapValues, List.map_map]
      refine List.map_congr_left fun entry _ => ?_
      simp only [Function.comp_apply]
      split
      · rfl
      · rfl
    have hrelease : releasing context.stratumV2Service
        (if ((holderOf context.client).channels.get? channelId).any ChannelMark.holds then
          [channelId] else []) = context.releasePrefix channelId := by
      simp only [holderOf, OrdMap.get?_mapValues, releasePrefix, StratumV2Client.openChannel?]
      cases hchannel : context.client.channels.get? channelId with
      | none => rfl
      | some channel =>
        cases hopen : channel.isOpen with
        | false => simp [Option.filter, releasing, ChannelMark.holds, markOf, hopen]
        | true =>
          cases htype : channel.channelType with
          | standard => simp [Option.filter, releasing, ChannelMark.holds, markOf, hopen, htype]
          | extended => simp [Option.filter, releasing, ChannelMark.holds, markOf, hopen, htype]
    simp only [HolderAct.apply, accountOf, deletingChannel, hrelease]
    simp only [holderOf, StratumV2Client.deleteChannel, StratumV2Client.modifyChannel, hmarks]
  unfold handleCloseChannel
  simp only
  split
  · exact hdeleting.trans acts_closeSocket
  · exact hdeleting

theorem account_handleSetupConnection (message : Sv2SetupConnection) :
    accountOf (context.handleSetupConnection message).context = accountOf context := by
  unfold handleSetupConnection
  split
  · rfl
  · split
    · rfl
    · simp only
      split
      · rfl
      · rfl

theorem account_answerShare (channelId sequenceNumber : ℕ) (verdict : ShareVerdict) :
    accountOf (context.answerShare channelId sequenceNumber verdict).context = accountOf context := by
  cases verdict with
  | rejected errorCode => rfl
  | threw => rfl
  | accepted share newSharesSum => rfl

theorem account_submitShare (channelId sequenceNumber : ℕ) (channel : ChannelState)
    (tuple : ShareTuple) (verdict : ShareVerdict) :
    accountOf (context.submitShare channelId sequenceNumber channel tuple verdict).context
      = accountOf context := by
  unfold submitShare
  split
  · rfl
  · rw [account_answerShare]
    refine accountOf_modifyChannel ?_ _
    exact fun _ => rfl

theorem account_handleSubmitSharesStandard (submission : Sv2SubmitSharesStandard) :
    accountOf (context.handleSubmitSharesStandard host submission).context = accountOf context := by
  unfold handleSubmitSharesStandard
  simp only
  split
  · rfl
  · exact account_submitShare ..

theorem account_handleSubmitSharesExtended (submission : Sv2SubmitSharesExtended) :
    accountOf (context.handleSubmitSharesExtended host submission).context = accountOf context := by
  unfold handleSubmitSharesExtended
  simp only
  split
  · rfl
  · exact account_submitShare ..

theorem account_handleSetCustomMiningJob (declaredJob : Option Sv2DeclaredMiningJob) :
    accountOf (context.handleSetCustomMiningJob message declaredJob).context
      = accountOf context := by
  have hcontext : (context.handleSetCustomMiningJob message declaredJob).context = context := by
    unfold handleSetCustomMiningJob
    simp only
    repeat' split
    all_goals rfl
  rw [hcontext]

theorem account_handleUpdateChannel (message : Sv2UpdateChannel) :
    accountOf (context.handleUpdateChannel config message).context = accountOf context := by
  unfold handleUpdateChannel
  split
  · rfl
  · simp only
    split
    · refine accountOf_modifyChannel ?_ _
      exact fun _ => rfl
    · refine accountOf_modifyChannel ?_ _
      exact fun _ => rfl

theorem account_sendJob (sendPrevHash : Bool) (after : AfterJob) (now : ℕ) :
    accountOf (context.sendJob host config channelId jobTemplate sendPrevHash after now).context
      = accountOf context := by
  unfold sendJob
  split
  · split
    · unfold sendNewMiningJob
      split
      · rfl
      · simp only
        split
        · rfl
        · refine accountOf_modifyChannel ?_ _
          exact fun _ => rfl
    · unfold sendNewExtendedMiningJob
      split
      · rfl
      · rfl
  · rfl

/-- A template changes no mark. -/
theorem holderOf_onTemplate : holderOf (client.onTemplate jobTemplate now) = holderOf client := by
  have hclear (channel : ChannelState) : markOf (channel.clearJobs now) = markOf channel := by
    unfold ChannelState.clearJobs
    split
    · rfl
    · rfl
  have hmarks : ((client.channels.mapValues fun _ channel =>
      if channel.isOpen then channel.clearJobs now else channel).mapValues
        fun _ channel => markOf channel) = client.channels.mapValues fun _ channel => markOf channel := by
    refine marks_mapValues fun _ channel => ?_
    split
    · exact hclear channel
    · rfl
  simp only [StratumV2Client.onTemplate, StratumV2Client.clearChannels]
  split
  · simp only [holderOf, hmarks]
  · rfl

theorem account_subscribeToJobs : accountOf (context.subscribeToJobs now) = accountOf context := by
  unfold subscribeToJobs
  split
  · rfl
  · simp only [accountOf]
    split
    · rw [holderOf_onTemplate]
      rfl
    · rfl

theorem account_afterJob :
    accountOf (context.afterJob host config after now).context = accountOf context := by
  cases after with
  | opening isFirstChannel =>
    simp only [afterJob]
    split
    · exact account_subscribeToJobs now
    · rfl
  | loop jobTemplate sendPrevHash channelId =>
    simp only [afterJob]
    split
    · rfl
    · exact account_sendJob ..

theorem account_afterOpenReply (isFirstChannel : Bool) :
    accountOf (context.afterOpenReply channelId isFirstChannel).context = accountOf context := by
  unfold afterOpenReply
  split
  · rfl
  · rfl

theorem account_installCustomJob (latestTemplate : JobTemplate) (now : ℕ) :
    accountOf (context.installCustomJob host config message latestTemplate now).context
      = accountOf context := by
  unfold installCustomJob
  split
  · simp only
    split
    · rfl
    · rfl
    · split
      · rfl
      · refine accountOf_modifyChannel ?_ _
        exact fun _ => rfl
  · rfl

theorem account_withTemplate {wait : Wait} {handler : JobTemplate → Turn}
    (hhandler : ∀ jobTemplate, accountOf (handler jobTemplate).context = accountOf context) :
    accountOf (context.withTemplate wait handler).context = accountOf context := by
  unfold withTemplate
  split
  · exact hhandler _
  · rfl

theorem account_nextTarget (targetDiff : ℚ) (channelId : ℕ) :
    accountOf (context.nextTarget config targetDiff channelId).context = accountOf context := by
  unfold nextTarget
  split
  · rfl
  · refine accountOf_modifyChannel ?_ _
    exact fun _ => rfl

theorem account_checkDifficulty (suggested : Option ℚ) :
    accountOf (context.checkDifficulty config suggested).context = accountOf context := by
  unfold checkDifficulty
  split
  · rfl
  · split
    · rfl
    · rfl

theorem account_afterShareReply (share : AcceptedShare) :
    accountOf (context.afterShareReply share).context = accountOf context := by
  unfold afterShareReply
  split
  · rfl
  · rfl
  · rfl

/-- The acts of a handler that goes on after a call: it may close the connection. -/
theorem acts_resume (wait : Wait) :
    ActsOf host env context handled context (context.resume host config env wait).context := by
  cases wait with
  | reply thenClose =>
    simp only [resume]
    split
    · exact acts_closeSocket
    · exact .of_eq rfl
  | firstTemplate channelId isFirstChannel =>
    exact .of_eq (account_withTemplate fun _ => account_sendJob ..)
  | extendedJobFrame channelId push after =>
    refine .of_eq (accountOf_modifyChannel ?_ _)
    exact fun _ => rfl
  | openReply channelId isFirstChannel => exact .of_eq (account_afterOpenReply ..)
  | prevHashFrame after => exact .of_eq (account_afterJob ..)
  | targetFrame targetDiff channelId => exact .of_eq (account_nextTarget ..)
  | refreshTemplate => exact .of_eq (account_withTemplate fun _ => rfl)
  | customTemplate message => exact .of_eq (account_withTemplate fun _ => account_installCustomJob ..)
  | shareReply share => exact .of_eq (account_afterShareReply share)
  | _ => exact .of_eq rfl

/-- What a turn does to the account. -/
theorem acts_turn (handled : Handled) :
    ActsOf host env context handled context (context.turn host config env handled).context := by
  cases handled with
  | frame message =>
    simp only [Context.turn]
    cases message with
    | setupConnection message => exact .of_eq (account_handleSetupConnection message)
    | openStandardMiningChannel message =>
      exact acts_handleOpenStandardMiningChannel message (Eq.refl _)
    | openExtendedMiningChannel message =>
      exact acts_handleOpenExtendedMiningChannel message (Eq.refl _)
    | submitSharesStandard submission => exact .of_eq (account_handleSubmitSharesStandard submission)
    | submitSharesExtended submission => exact .of_eq (account_handleSubmitSharesExtended submission)
    | setCustomMiningJob message => exact .of_eq (account_handleSetCustomMiningJob message _)
    | updateChannel message => exact .of_eq (account_handleUpdateChannel message)
    | closeChannel channelId => exact acts_handleCloseChannel channelId.toNat
    | malformed => exact .of_eq rfl
    | unsupported => exact .of_eq rfl
  | wait wait =>
    simp only [Context.turn]
    split
    · exact .of_eq rfl
    · exact acts_resume wait

/-- An error closes the connection after the turn. -/
theorem ActsOf.endTurn (origin : Origin) {turn : Turn}
    (h : ActsOf host env context handled before turn.context) :
    ActsOf host env context handled before (Context.endTurn origin turn).1 := by
  unfold Context.endTurn
  simp only
  split
  · exact (h.trans acts_closeSocket).trans (.of_eq rfl)
  · exact h.trans (.of_eq rfl)

end

/-! ### Steps of the service -/

/-- The acts of a step of the service on one connection. -/
def AskedBy (host : Externals) (world : Sv2World) (input : Sv2Input) (id : ℕ)
    (account : Account) : HolderAct → Prop
  | .openStandard random =>
    ∃ taken ∈ takenFrame world input, taken.id = id ∧ random = taken.env.random ∧
      account = accountOf (world.context taken.client) ∧
      opensStandard host (world.context taken.client) taken.message = true
  | .openExtended =>
    ∃ taken ∈ takenFrame world input, taken.id = id ∧
      account = accountOf (world.context taken.client) ∧
      opensExtended host (world.context taken.client) taken.message = true
  | _ => True

section
variable {host : Externals} {config : Sv2Config} {world : Sv2World} {input : Sv2Input}

theorem holdersOf_update (id : ℕ) (context : Context) :
    holdersOf (world.update id context) = setHolder (holdersOf world) id (holderOf context.client) := by
  funext id'
  unfold holdersOf setHolder Sv2World.update
  by_cases hid : id' = id
  · simp only [if_pos hid, Option.map_some]
  · simp only [if_neg hid]

variable {id : ℕ} {client : StratumV2Client} {env : TurnEnv} {account : Account} {act : HolderAct}

theorem holdersOf_eq (hclient : world.clients id = some client) :
    holdersOf world id = some (holderOf client) := by
  unfold holdersOf
  rw [hclient, Option.map_some]

/-- A template changes nothing of the account. -/
theorem holdersOf_publish (template data : JobTemplate) (now : ℕ) :
    holdersOf
        { world with
          jobs := world.jobs.publish template now
          clients := fun id => (world.clients id).map fun client => client.receiveTemplate data now }
      = holdersOf world := by
  have hholder (client : StratumV2Client) :
      holderOf (client.receiveTemplate data now) = holderOf client := by
    unfold StratumV2Client.receiveTemplate
    split
    · exact holderOf_onTemplate ..
    · rfl
  funext id
  simp only [holdersOf, Option.map_map, Function.comp_def, hholder]

/-- What the acts of the turn of a task are asked by. -/
theorem askedBy_of_asked {k : ℕ} {task : Task} (hclient : world.clients id = some client)
    (htask : client.tasks[k]? = some task)
    (h : Asked host env (world.context (client.dropTask k)) task.handled.1 account act) :
    AskedBy host world (.resume id k env) id account act := by
  have htaken {message : Sv2Message} (hmessage : task.handled.1 = .frame message) :
      takenFrame world (.resume id k env) = some { id, client, env, message } := by
    simp only [takenFrame, hclient, htask, Option.bind_some, hmessage]
  cases act with
  | openStandard random =>
    obtain ⟨haccount, hrandom, message, hmessage, hopens⟩ := h
    refine ⟨_, htaken hmessage, rfl, hrandom, haccount, ?_⟩
    cases message with
    | openStandardMiningChannel message => exact hopens
    | _ => cases hopens
  | openExtended =>
    obtain ⟨haccount, message, hmessage, hopens⟩ := h
    refine ⟨_, htaken hmessage, rfl, haccount, ?_⟩
    cases message with
    | openExtendedMiningChannel message => exact hopens
    | _ => cases hopens
  | _ => trivial

/-- A handler that goes on opens no channel. -/
theorem askedBy_of_wait {context : Context} {wait : Wait}
    (h : Asked host env context (.wait wait) account act) :
    AskedBy host world input id account act := by
  cases act with
  | openStandard random =>
    obtain ⟨-, -, message, hmessage, -⟩ := h
    cases hmessage
  | openExtended =>
    obtain ⟨-, message, hmessage, -⟩ := h
    cases hmessage
  | _ => trivial

/-- The rule for invariants of the account: whatever a new connection and every act keep is kept
by every step of the service. -/
theorem keeps_sv2Step {Keeps : StratumV2Service → (ℕ → Option Holder) → Prop}
    (h : Keeps world.stratumV2Service (holdersOf world))
    (hnew : ∀ id, holdersOf world id = none →
      Keeps world.stratumV2Service
        (setHolder (holdersOf world) id { destroyed := false, channels := .empty }))
    (hact : ∀ id (account : Account) (act : HolderAct),
      Keeps account.1 (setHolder (holdersOf world) id account.2) →
      AskedBy host world input id account act →
        Keeps (act.apply account.1 account.2).1
          (setHolder (holdersOf world) id (act.apply account.1 account.2).2)) :
    Keeps (sv2Step host config world input).1.stratumV2Service
      (holdersOf (sv2Step host config world input).1) := by
  -- one connection goes on by acts that are asked for
  have hturn {id : ℕ} {client : StratumV2Client} {context : Context}
      (hclient : world.clients id = some client)
      (hacts : ReflTransGen (ActStep (AskedBy host world input id))
        (world.stratumV2Service, holderOf client) (accountOf context)) :
      Keeps (world.update id context).stratumV2Service (holdersOf (world.update id context)) := by
    rw [holdersOf_update]
    refine keeps_acts (hact id) hacts ?_
    rwa [setHolder_eq (holdersOf_eq hclient)]
  cases input with
  | connect id sessionId payoutMode =>
    simp only [sv2Step]
    split
    · rename_i hnone
      rw [holdersOf_update]
      refine hnew id ?_
      unfold holdersOf
      rw [hnone, Option.map_none]
    · exact h
  | disconnect id =>
    simp only [sv2Step]
    split
    · exact h
    · rename_i client hclient
      have hacts := @acts_closeSocket host ⟨false, none, 0, (0, 0), none⟩ (world.context client)
        (.wait .recordShare) (world.context client)
      exact hturn hclient (hacts.imp fun _ _ => askedBy_of_wait)
  | template template now =>
    simp only [sv2Step, holdersOf_publish]
    exact h
  | data id frames =>
    simp only [sv2Step]
    split
    · exact h
    · rename_i client hclient
      have hsame : holderOf (client.receive frames) = holderOf client := by
        unfold StratumV2Client.receive
        split
        · rfl
        · rfl
      have haccount : accountOf (world.context (client.receive frames))
          = (world.stratumV2Service, holderOf client) := congrArg _ hsame
      refine hturn hclient ?_
      rw [haccount]
  | resume id k env =>
    simp only [sv2Step]
    split
    · exact h
    · rename_i client hclient
      split
      · exact h
      · rename_i task htask
        have hacts := ActsOf.endTurn task.handled.2 (@acts_turn host config env
          (world.context (client.dropTask k)) task.handled.1)
        exact hturn hclient (hacts.imp fun _ _ => askedBy_of_asked hclient htask)
  | checkDifficulty id suggested =>
    simp only [sv2Step]
    split
    · exact h
    · rename_i client hclient
      split
      · have hcheck : ActsOf host ⟨false, none, 0, (0, 0), none⟩ (world.context client)
            (.wait .recordShare) (world.context client)
            ((world.context client).checkDifficulty config suggested).context :=
          .of_eq (account_checkDifficulty suggested)
        exact hturn hclient ((hcheck.endTurn .timer).imp fun _ _ => askedBy_of_wait)
      · exact h

end

/-! ### The books along a run -/

theorem prefixesHeld_initial :
    PrefixesHeld Sv2World.initial.stratumV2Service (holdersOf Sv2World.initial) := by
  have hnobody {id channelId : ℕ} {mark : ChannelMark} :
      ¬ HasMark (holdersOf Sv2World.initial) id channelId mark := by
    rintro ⟨holder, hholder, -⟩
    cases hholder
  have hmanager : ManagerInv StratumV2Service.initial.extranonceManager :=
    managerInv_initial (Nat.le_add_left 2 2) 14
  refine ⟨hmanager, ?_, ?_, ?_, ?_, ⟨rfl, rfl⟩, ?_, ?_⟩
  · intro channelId value hvalue
    cases hvalue
  all_goals
    intros
    exact absurd (by assumption) hnobody

/-- The channels after a connection is new are those from before. -/
theorem hasMark_connect {holders : ℕ → Option Holder} {id id' channelId : ℕ} {mark : ChannelMark}
    (hnone : holders id = none) :
    HasMark (setHolder holders id { destroyed := false, channels := .empty }) id' channelId mark ↔
      HasMark holders id' channelId mark := by
  rw [hasMark_setHolder]
  constructor
  · rintro (⟨-, hget⟩ | ⟨-, hold⟩)
    · cases hget
    · exact hold
  · intro hold
    refine Or.inr ⟨?_, hold⟩
    rintro rfl
    obtain ⟨holder, hholder, -⟩ := hold
    rw [hnone] at hholder
    cases hholder

theorem PrefixesHeld.connect {service : StratumV2Service} {holders : ℕ → Option Holder}
    (h : PrefixesHeld service holders) {id : ℕ} (hnone : holders id = none) :
    PrefixesHeld service (setHolder holders id { destroyed := false, channels := .empty }) := by
  constructor
  · exact h.manager
  · simp only [hasMark_connect hnone]
    exact h.booked
  · simp only [hasMark_connect hnone]
    exact h.held
  · simp only [hasMark_connect hnone]
    exact h.numbered
  · simp only [hasMark_connect hnone]
    exact h.apart
  · exact h.sizes
  · simp only [hasMark_connect hnone]
    exact h.extended
  · simp only [hasMark_connect hnone]
    exact h.standard

/-- An act on a connection of several keeps the books. -/
theorem PrefixesHeld.actOn {holders : ℕ → Option Holder} {id : ℕ} {account : Account}
    (h : PrefixesHeld account.1 (setHolder holders id account.2)) (act : HolderAct) :
    PrefixesHeld (act.apply account.1 account.2).1
      (setHolder holders id (act.apply account.1 account.2).2) := by
  have hholder : setHolder holders id account.2 id = some account.2 := if_pos rfl
  have hact := h.act hholder act
  rwa [setHolder_setHolder] at hact

/-- In every state that the service reaches the books are right. -/
theorem prefixesHeld_final (host : Externals) (config : Sv2Config) (inputs : List Sv2Input) :
    PrefixesHeld ((sv2Machine host config).final .initial inputs).stratumV2Service
      (holdersOf ((sv2Machine host config).final .initial inputs)) := by
  have hstep (world : Sv2World) (_ : List Sv2Output) (input : Sv2Input)
      (h : PrefixesHeld world.stratumV2Service (holdersOf world)) (_ : True) :
      PrefixesHeld ((sv2Machine host config).step world input).1.stratumV2Service
        (holdersOf ((sv2Machine host config).step world input).1) :=
    keeps_sv2Step h (fun _ hnone => h.connect hnone) fun _ _ act hact _ => hact.actOn act
  exact @Machine.history_invariant _ _ _ (sv2Machine host config)
    (fun world _ => PrefixesHeld world.stratumV2Service (holdersOf world)) (fun _ _ _ => True) hstep
    _ _ prefixesHeld_initial _ (Machine.along_of_forall _ (fun _ _ _ => trivial) _ [] inputs)

/-- The frame of a taken one is that of a connection there is. -/
theorem takenFrame_client {world : Sv2World} {input : Sv2Input} {taken : TakenFrame}
    (h : takenFrame world input = some taken) : world.clients taken.id = some taken.client := by
  cases input with
  | resume id k env =>
    obtain ⟨client, hclient, h⟩ := Option.bind_eq_some_iff.mp h
    obtain ⟨task, -, h⟩ := Option.bind_eq_some_iff.mp h
    split at h
    · cases h
      exact hclient
    · cases h
  | _ => cases h

end PublicPool.Proofs
