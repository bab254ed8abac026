import Mathlib
import PublicPool.Proofs.Sv2.PrefixLeak

/-!
# `PublicPool.Proofs.Sv2.DisjointWork`: no two channels are given the same work

The work of a channel is told from that of others by the extranonce field of its coinbase. Fields
of a standard and of an extended channel differ in length, and the manager keeps the prefixes of
extended channels apart. The prefix of a standard channel is the low half of its number and two
random bytes: two standard channels share their work if and only if both agree, as they may
once the numbers have gone round (`not_work_disjoint`).
-/

set_option autoImplicit false

namespace PublicPool.Proofs

open Lib (OrdMap Machine)
open Sv2
open Sv2.Context

/-! ### The work of a channel -/

/-- The extranonce fields of the coinbases that a channel takes work for: behind its prefix comes
the fixed part, or what the miner chooses. -/
def workFields (channelType : ChannelType) (extranoncePrefix : Bytes) (extranonceSize : ℕ) :
    Set Bytes :=
  match channelType with
  | .standard => {extranoncePrefix ++ Js.bufferFromHex fixedStandardExtranonce2}
  | .extended =>
    {field | ∃ extranonce : Bytes, extranonce.length = extranonceSize ∧
      field = extranoncePrefix ++ extranonce}

/-- The fields of any two open channels are disjoint. -/
def WorkDisjoint (world : Sv2World) : Prop :=
  ∀ id id' client client' channelId channelId' channel channel',
    world.clients id = some client → world.clients id' = some client' →
    client.openChannel? channelId = some channel →
    client'.openChannel? channelId' = some channel' →
    (id, channelId) ≠ (id', channelId') →
      Disjoint (workFields channel.channelType channel.extranoncePrefix channel.extranonceSize)
        (workFields channel'.channelType channel'.extranoncePrefix channel'.extranonceSize)

/-- The condition: when a standard channel is opened, no open standard channel has a number with
the same low half and was given the same random bytes. -/
def NoPrefixClash (host : Externals) (world : Sv2World) (_ : List Sv2Output)
    (input : Sv2Input) : Prop :=
  ∀ taken ∈ takenFrame world input,
    opensStandard host (world.context taken.client) taken.message = true →
    ∀ id client channelId channel, world.clients id = some client →
      client.openChannel? channelId = some channel → channel.channelType = .standard →
      channelId % 65536 = world.stratumV2Service.channelIdCounter % 65536 →
        channel.extranoncePrefix.drop 2 ≠ [taken.env.random.1, taken.env.random.2]

/-- The field of an accepted share. -/
def fieldOf (channel : ChannelState) (tuple : ShareTuple) : Bytes :=
  channel.extranoncePrefix
    ++ (tuple.extranonce.getD (Js.bufferFromHex fixedStandardExtranonce2))

/-- What a channel accepts is work on one of its fields. -/
theorem fieldOf_mem {host : Externals} {jobs : StratumV1JobsService} {channelId : ℕ}
    {channel : ChannelState} {tuple : ShareTuple} {share : AcceptedShare}
    (htyped : Typed channel) (h : AcceptsTuple host jobs channelId channel tuple share) :
    fieldOf channel tuple ∈ workFields channel.channelType channel.extranoncePrefix
      channel.extranonceSize := by
  obtain ⟨sum, hverdict, hextended⟩ := h
  cases hextranonce : tuple.extranonce with
  | none =>
    cases htype : channel.channelType with
    | standard => simp [workFields, fieldOf, hextranonce]
    | extended =>
      -- an extended channel has no job that a standard submission could name
      rw [verdictOn, hextranonce] at hverdict
      simp only [judgeStandard, htyped htype] at hverdict
      split at hverdict
      · rename_i hroot
        cases hroot
      · cases hverdict
  | some extranonce =>
    rw [hextended (by rw [hextranonce]; rfl)]
    rw [verdictOn, hextranonce] at hverdict
    simp only [judgeExtended] at hverdict
    refine ⟨extranonce, ?_, by simp [fieldOf, hextranonce]⟩
    split at hverdict
    · cases hverdict
    · split at hverdict
      · cases hverdict
      · split at hverdict
        · cases hverdict
        · rename_i hlength
          exact not_not.mp hlength

/-! ### Standard prefixes -/

/-- Open standard channels have different prefixes. -/
def StandardApart (holders : ℕ → Option Holder) : Prop :=
  ∀ id id' channelId channelId' mark mark', HasMark holders id channelId mark →
    HasMark holders id' channelId' mark' → mark.isOpen = true → mark'.isOpen = true →
    mark.channelType = .standard → mark'.channelType = .standard → channelId ≠ channelId' →
      mark.extranoncePrefix ≠ mark'.extranoncePrefix

section
variable {service : StratumV2Service} {holders holders' : ℕ → Option Holder} {id : ℕ}
  {account : Account}

/-- What opens no standard channel keeps them apart. -/
theorem StandardApart.of_old (h : StandardApart holders)
    (hold : ∀ id channelId mark', HasMark holders' id channelId mark' → mark'.isOpen = true →
      mark'.channelType = .standard → ∃ mark, HasMark holders id channelId mark ∧
        mark.isOpen = true ∧ mark.channelType = .standard ∧
        mark.extranoncePrefix = mark'.extranoncePrefix) :
    StandardApart holders' := by
  intro id id' channelId channelId' mark mark' hmark hmark' hopen hopen' htype htype' hne
  obtain ⟨old, hold₁, hopen₁, htype₁, hbytes⟩ := hold id channelId mark hmark hopen htype
  obtain ⟨old', hold₂, hopen₂, htype₂, hbytes'⟩ := hold id' channelId' mark' hmark' hopen' htype'
  rw [← hbytes, ← hbytes']
  exact h id id' channelId channelId' old old' hold₁ hold₂ hopen₁ hopen₂ htype₁ htype₂ hne

/-- The low halves of two numbers and what follows them. -/
theorem standardPrefix_inj {n m : ℕ} {random random' : UInt8 × UInt8}
    (h : [UInt8.ofNat ((n + 1) / 256), UInt8.ofNat (n + 1), random.1, random.2]
      = [UInt8.ofNat ((m + 1) / 256), UInt8.ofNat (m + 1), random'.1, random'.2]) :
    n % 65536 = m % 65536 ∧ random = random' := by
  simp only [List.cons.injEq, and_true] at h
  obtain ⟨hhigh, hlow, hfirst, hsecond⟩ := h
  have hhigh' := congrArg UInt8.toNat hhigh
  have hlow' := congrArg UInt8.toNat hlow
  simp only [UInt8.toNat_ofNat'] at hhigh' hlow'
  exact ⟨by omega, Prod.ext hfirst hsecond⟩

/-- One channel is opened: two open standard channels are both old, or one of them is new. -/
theorem StandardApart.opening (h : StandardApart holders) {holder : Holder}
    (hholder : holders id = some holder) {mark : ChannelMark}
    (hnew : mark.channelType = .standard → ∀ id' channelId mark', HasMark holders id' channelId mark' →
      mark'.isOpen = true → mark'.channelType = .standard →
        mark'.extranoncePrefix ≠ mark.extranoncePrefix) :
    StandardApart (setHolder holders id (holder.opening service mark)) := by
  intro id₁ id₂ channelId₁ channelId₂ mark₁ mark₂ hmark₁ hmark₂ hopen₁ hopen₂ htype₁ htype₂ hne
  rcases hasMark_opening hholder hmark₁ with ⟨-, rfl, rfl⟩ | hold₁
  · rcases hasMark_opening hholder hmark₂ with ⟨-, rfl, -⟩ | hold₂
    · exact absurd rfl hne
    · exact (hnew htype₁ id₂ channelId₂ mark₂ hold₂ hopen₂ htype₂).symm
  · rcases hasMark_opening hholder hmark₂ with ⟨-, -, rfl⟩ | hold₂
    · exact hnew htype₂ id₁ channelId₁ mark₁ hold₁ hopen₁ htype₁
    · exact h id₁ id₂ channelId₁ channelId₂ mark₁ mark₂ hold₁ hold₂ hopen₁ hopen₂ htype₁ htype₂ hne

/-- Channels of one connection are closed. -/
theorem StandardApart.closes {holder holder' : Holder}
    (h : StandardApart (setHolder holders id holder))
    (hclosed : ∀ channelId mark', holder'.channels.get? channelId = some mark' →
      mark'.isOpen = true → holder.channels.get? channelId = some mark') :
    StandardApart (setHolder holders id holder') := by
  refine h.of_old fun id' channelId mark' hmark' hopen htype => ?_
  refine ⟨mark', ?_, hopen, htype, rfl⟩
  rcases hasMark_setHolder.mp hmark' with ⟨rfl, hget⟩ | ⟨hne, hold⟩
  · exact hasMark_setHolder.mpr (Or.inl ⟨rfl, hclosed channelId mark' hget hopen⟩)
  · exact hasMark_setHolder.mpr (Or.inr ⟨hne, hold⟩)

/-- Every act keeps the standard prefixes apart, if a new one meets the condition. -/
theorem StandardApart.actOn (h : StandardApart (setHolder holders id account.2))
    (hheld : PrefixesHeld account.1 (setHolder holders id account.2)) (act : HolderAct)
    (hclash : ∀ random, act = .openStandard random → ∀ id' channelId mark,
      HasMark (setHolder holders id account.2) id' channelId mark → mark.isOpen = true →
      mark.channelType = .standard → channelId % 65536 = account.1.channelIdCounter % 65536 →
        mark.extranoncePrefix.drop 2 ≠ [random.1, random.2]) :
    StandardApart (setHolder holders id (act.apply account.1 account.2).2) := by
  have hholder : setHolder holders id account.2 id = some account.2 := if_pos rfl
  cases act with
  | takeNumber => exact h
  | openStandard random =>
    rw [← setHolder_setHolder]
    refine h.opening hholder fun _ id' channelId mark hmark hopen htype hsame => ?_
    obtain ⟨-, random', hbytes⟩ := hheld.standard id' channelId mark hmark htype
    obtain ⟨hhalf, rfl⟩ := standardPrefix_inj (hbytes.symm.trans hsame)
    refine hclash random' rfl id' channelId mark hmark hopen htype hhalf ?_
    rw [hbytes]
    rfl
  | openExtended =>
    simp only [HolderAct.apply]
    split
    · exact h
    · rw [← setHolder_setHolder]
      exact h.opening hholder fun htype => absurd htype (by simp)
  | refuseExtended =>
    simp only [HolderAct.apply]
    split
    · exact h
    · exact h
  | closeChannel closed =>
    refine h.closes fun channelId mark' hget hopen => ?_
    simp only [HolderAct.apply] at hget
    rw [OrdMap.get?_modify] at hget
    obtain ⟨mark, hmark, rfl⟩ := Option.map_eq_some_iff.mp hget
    split at hopen
    · cases hopen
    · rename_i hne
      rw [if_neg hne]
      exact hmark
  | closeSocket =>
    refine h.closes fun channelId mark' hget hopen => ?_
    simp only [HolderAct.apply] at hget
    split at hget
    · exact hget
    · rw [OrdMap.get?_mapValues] at hget
      obtain ⟨mark, -, rfl⟩ := Option.map_eq_some_iff.mp hget
      cases hopen

end

/-! ### Any two channels -/

section
variable {extranoncePrefix field : Bytes} {extranonceSize : ℕ}

theorem workFields_length {channelType : ChannelType}
    (h : field ∈ workFields channelType extranoncePrefix extranonceSize) :
    field.length = extranoncePrefix.length +
      if channelType = .standard then 8 else extranonceSize := by
  cases channelType with
  | standard =>
    rw [Set.mem_singleton_iff.mp h, List.length_append]
    rfl
  | extended =>
    obtain ⟨extranonce, hlength, rfl⟩ := h
    rw [List.length_append, hlength]
    rfl

/-- A field begins with the prefix. -/
theorem workFields_take {channelType : ChannelType}
    (h : field ∈ workFields channelType extranoncePrefix extranonceSize) :
    field.take extranoncePrefix.length = extranoncePrefix := by
  cases channelType with
  | standard =>
    rw [Set.mem_singleton_iff.mp h]
    exact List.take_left
  | extended =>
    obtain ⟨extranonce, -, rfl⟩ := h
    exact List.take_left

end

/-- What the condition keeps: the books, and standard prefixes that are apart. -/
def WorkApart (world : Sv2World) : Prop :=
  PrefixesHeld world.stratumV2Service (holdersOf world) ∧ StandardApart (holdersOf world)

theorem PrefixesHeld.length_prefix {service : StratumV2Service} {holders : ℕ → Option Holder}
    (h : PrefixesHeld service holders) {id channelId : ℕ} {mark : ChannelMark}
    (hmark : HasMark holders id channelId mark) : mark.extranoncePrefix.length = 4 := by
  cases htype : mark.channelType with
  | standard =>
    obtain ⟨-, random, hbytes⟩ := h.standard id channelId mark hmark htype
    rw [hbytes]
    rfl
  | extended => exact (h.extended id channelId mark hmark htype).1

/-- Open channels with different prefixes, or of different kinds, share no field. -/
theorem WorkApart.disjoint {world : Sv2World} (h : WorkApart world) : WorkDisjoint world := by
  intro id id' client client' channelId channelId' channel channel' hclient hclient' hopen hopen' hne
  obtain ⟨hheld, hapart⟩ := h
  obtain ⟨hchannel, hisOpen⟩ := openChannel?_eq_some hopen
  obtain ⟨hchannel', hisOpen'⟩ := openChannel?_eq_some hopen'
  have hmark : HasMark (holdersOf world) id channelId (markOf channel) :=
    hasMark_holdersOf.mpr ⟨client, channel, hclient, hchannel, rfl⟩
  have hmark' : HasMark (holdersOf world) id' channelId' (markOf channel') :=
    hasMark_holdersOf.mpr ⟨client', channel', hclient', hchannel', rfl⟩
  have hnumber : channelId ≠ channelId' := by
    rintro rfl
    exact hne (Prod.ext (hheld.apart id id' channelId _ _ hmark hmark') rfl)
  rw [Set.disjoint_left]
  intro field hfield hfield'
  have hlength : channel.extranoncePrefix.length = 4 := hheld.length_prefix hmark
  have hlength' : channel'.extranoncePrefix.length = 4 := hheld.length_prefix hmark'
  have hsame : channel.extranoncePrefix = channel'.extranoncePrefix := by
    rw [← workFields_take hfield, ← workFields_take hfield', hlength, hlength']
  have hsizes := (workFields_length hfield).symm.trans (workFields_length hfield')
  cases htype : channel.channelType with
  | standard =>
    cases htype' : channel'.channelType with
    | standard =>
      exact hapart id id' channelId channelId' _ _ hmark hmark' hisOpen hisOpen' htype htype' hnumber
        hsame
    | extended =>
      obtain ⟨-, hsize⟩ := hheld.extended id' channelId' _ hmark' htype'
      have hsize' : channel'.extranonceSize = 10 := hsize
      simp only [htype, htype', hlength, hlength', hsize', if_true, reduceCtorEq, if_false] at hsizes
      omega
  | extended =>
    obtain ⟨-, hsize⟩ := hheld.extended id channelId _ hmark htype
    have hten : channel.extranonceSize = 10 := hsize
    cases htype' : channel'.channelType with
    | standard =>
      simp only [htype, htype', hlength, hlength', hten, if_true, reduceCtorEq, if_false] at hsizes
      omega
    | extended =>
      -- the manager keeps the prefixes of different channels apart
      have hholds : (markOf channel).holds = true := by
        simp [ChannelMark.holds, markOf, hisOpen, htype]
      have hholds' : (markOf channel').holds = true := by
        simp [ChannelMark.holds, markOf, hisOpen', htype']
      obtain ⟨value, hvalue, hbytes⟩ := hheld.held id channelId _ hmark hholds
      obtain ⟨value', hvalue', hbytes'⟩ := hheld.held id' channelId' _ hmark' hholds'
      refine hnumber (hheld.manager.eq_of_buffer hvalue hvalue' ?_)
      rw [← hbytes, ← hbytes']
      exact hsame

section
variable (host : Externals) (config : Sv2Config)

theorem workApart_initial : WorkApart .initial := by
  refine ⟨prefixesHeld_initial, ?_⟩
  rintro id id' channelId channelId' mark mark' ⟨holder, hholder, -⟩
  cases hholder

/-- A step that meets the condition keeps the prefixes apart. -/
theorem WorkApart.step {world : Sv2World} {history : List Sv2Output} {input : Sv2Input}
    (h : WorkApart world) (hcond : NoPrefixClash host world history input) :
    WorkApart (sv2Step host config world input).1 := by
  refine @keeps_sv2Step host config world input
    (fun service holders => PrefixesHeld service holders ∧ StandardApart holders) h ?_ ?_
  · intro id hnone
    refine ⟨h.1.connect hnone, h.2.of_old fun id' channelId mark hmark hopen htype => ?_⟩
    exact ⟨mark, (hasMark_connect hnone).mp hmark, hopen, htype, rfl⟩
  · rintro id account act ⟨hheld, hapart⟩ hasked
    refine ⟨hheld.actOn act, hapart.actOn hheld act ?_⟩
    rintro random rfl id' channelId mark hmark hopen htype hhalf
    obtain ⟨taken, htaken, rfl, rfl, rfl, hopens⟩ := hasked
    -- before the frame is taken up, the connections are those of the world
    rw [show (accountOf (world.context taken.client)).2 = holderOf taken.client from rfl,
      setHolder_eq (holdersOf_eq (takenFrame_client htaken))] at hmark
    obtain ⟨client, channel, hclient, hchannel, rfl⟩ := hasMark_holdersOf.mp hmark
    have hisOpen : channel.isOpen = true := hopen
    refine hcond taken htaken hopens id' client channelId channel hclient ?_ htype hhalf
    rw [StratumV2Client.openChannel?, hchannel, Option.filter_some, hisOpen, if_pos rfl]

end

/-! ### The numbers go round -/

section
variable {host : Externals} {config : Sv2Config} {world : Sv2World} {id : ℕ}
  {client : StratumV2Client}

/-- A chunk of one frame reaches an idle connection, and the frame is taken up. -/
theorem final_oneFrame (hclient : world.clients id = some client) (htasks : client.tasks = [])
    (halive : client.destroyed = false) (message : Sv2Message) (env : TurnEnv) :
    (sv2Machine host config).final world [.data id [message], .resume id 0 env]
      = world.update id
          (endTurn (.socket []) ((world.context client).handleFrame host config env message)).1 := by
  let received : StratumV2Client :=
    { client with tasks := [{ wait := .nextFrame, origin := .socket [message] }] }
  have hreceived : client.receive [message] = received := by
    simp [received, StratumV2Client.receive, halive, htasks]
  have hdropped : received.dropTask 0 = client := by
    simp only [received, StratumV2Client.dropTask, List.eraseIdx_cons_zero]
    rw [← htasks]
  have hdata : (sv2Step host config world (.data id [message])).1
      = world.update id (world.context received) := by
    simp only [sv2Step, hclient, hreceived]
  have htask : received.tasks[0]? = some ⟨.nextFrame, .socket [message]⟩ := by rfl
  rw [Machine.final_cons, Machine.final_cons, Machine.final_nil]
  simp only [sv2Machine]
  have hclient' : (world.update id (world.context received)).clients id = some received :=
    clients_update_self id _
  rw [hdata, sv2Step_resume hclient' htask, hdropped]
  -- what the chunk left of the world is written again
  simp only [Sv2World.update, Sv2World.mk.injEq]
  refine ⟨rfl, rfl, ?_⟩
  funext id'
  by_cases hid : id' = id
  · rw [if_pos hid, if_pos hid]
    rfl
  · rw [if_neg hid, if_neg hid, if_neg hid]

/-- The handler of a reply ends. -/
theorem final_reply {env : TurnEnv} (henv : env.failed = false)
    (hclient : world.clients id
      = some { client with tasks := [{ wait := .reply false, origin := .socket [] }] }) :
    (sv2Machine host config).final world [.resume id 0 env]
      = world.update id (world.context { client with tasks := [] }) := by
  rw [Machine.final_cons, Machine.final_nil]
  simp only [sv2Machine]
  rw [sv2Step_resume hclient rfl]
  congr 1
  simp only [runTask, Task.handled, turn, henv, resume, endTurn, closesOn, tasksAfter,
    Bool.false_eq_true, if_false, Sv2World.context]
  simp only [StratumV2Client.dropTask, List.eraseIdx_cons_zero, List.append_nil]

/-- A manager that has given out nothing gives a prefix out and takes it back. -/
theorem allocate_release {manager : Sv2ExtranonceManager} (hused : manager.usedPrefixes = [])
    (hnone : ∀ channelId, manager.allocatedPrefixes channelId = none) (channelId : ℕ) :
    ∃ manager' extranoncePrefix, manager.allocate channelId = some (manager', extranoncePrefix) ∧
      (manager'.release channelId).usedPrefixes = [] ∧
      (∀ id, (manager'.release channelId).allocatedPrefixes id = none) ∧
      (manager'.release channelId).minerExtranonceSize = manager.minerExtranonceSize := by
  refine ⟨givingPrefix manager channelId manager.nextPrefix,
    manager.prefixToBuffer manager.nextPrefix, ?_, ?_, ?_, ?_⟩
  · simp [Sv2ExtranonceManager.allocate, Sv2ExtranonceManager.findPrefix, hnone, hused,
      givingPrefix]
  · simp [Sv2ExtranonceManager.release, givingPrefix, hused]
  · intro id
    simp [Sv2ExtranonceManager.release, givingPrefix, hnone]
  · simp [Sv2ExtranonceManager.release, givingPrefix, Sv2ExtranonceManager.minerExtranonceSize]

/-- A connection is there, the next number is known, and no prefix is given out. -/
structure Waiting (world : Sv2World) (id : ℕ) (client : StratumV2Client) (counter : ℕ) : Prop where
  client_eq : world.clients id = some client
  counter_eq : world.stratumV2Service.channelIdCounter = counter
  used : world.stratumV2Service.extranonceManager.usedPrefixes = []
  allocated : ∀ channelId, world.stratumV2Service.extranonceManager.allocatedPrefixes channelId = none
  sizes : world.stratumV2Service.extranonceManager.minerExtranonceSize = 10

/-- An extended channel that is refused for its size takes a number and nothing else. -/
theorem Waiting.refuse {counter : ℕ} (h : Waiting world id client counter)
    (htasks : client.tasks = []) (halive : client.destroyed = false)
    (hchannels : client.hasNoChannel = false) {message : Sv2OpenExtendedMiningChannel}
    (hpasses : ∀ context : Context, context.client = client → context.openError? host
      (parseUserIdentity StratumV2Client.normalizeAddress message.userIdentity).address
      message.maxTarget = none)
    (hsize : 10 < message.minExtranonceSize.toNat) {env : TurnEnv} (henv : env.failed = false) :
    Waiting ((sv2Machine host config).final world
      (oneFrame id (.openExtendedMiningChannel message) env)) id client (counter + 1) := by
  obtain ⟨manager', extranoncePrefix, hallocate, hused, hnone, hminer⟩ :=
    allocate_release h.used h.allocated world.stratumV2Service.channelIdCounter
  obtain ⟨hminer', hmax⟩ := allocate_sizes hallocate
  let refused : Context :=
    { jobs := world.jobs
      stratumV2Service :=
        { channelIdCounter := world.stratumV2Service.channelIdCounter + 1
          extranonceManager := manager'.release world.stratumV2Service.channelIdCounter }
      client }
  have hopening (identity : UserIdentity) : (world.context client).beginOpen identity =
      { jobs := world.jobs
        stratumV2Service :=
          { world.stratumV2Service with
            channelIdCounter := world.stratumV2Service.channelIdCounter + 1 }
        client } := by
    simp only [beginOpen, Sv2World.context, hchannels, Bool.false_eq_true, if_false]
  have hturn : (world.context client).handleFrame host config env
      (.openExtendedMiningChannel message)
        = refused.replies (.openMiningChannelError message.requestId.toNat
            "min-extranonce-size-too-large") := by
    have htoo : 10 < max (min 10 10) message.minExtranonceSize.toNat := by omega
    have hopen := hpasses (world.context client) rfl
    have hallocate' : world.stratumV2Service.extranonceManager.allocate
        (world.context client).stratumV2Service.channelIdCounter
          = some (manager', extranoncePrefix) := hallocate
    simp only [handleFrame, handleOpenExtendedMiningChannel, hopen, hopening, hallocate', hminer',
      hmax, h.sizes, htoo, if_true]
    rfl
  have hend : (endTurn (.socket []) (refused.replies
      (.openMiningChannelError message.requestId.toNat "min-extranonce-size-too-large"))).1
        = { refused with
            client := { client with tasks := [{ wait := .reply false, origin := .socket [] }] } } := by
    simp only [endTurn, replies, closesOn, tasksAfter, Bool.false_eq_true, if_false, refused, htasks,
      List.nil_append]
  have hframe := @final_oneFrame host config _ id client h.client_eq htasks halive
    (.openExtendedMiningChannel message) env
  rw [hturn, hend] at hframe
  have hsplit : oneFrame id (.openExtendedMiningChannel message) env
      = [.data id [.openExtendedMiningChannel message], .resume id 0 env] ++ [.resume id 0 env] := rfl
  rw [hsplit, Machine.final_append, hframe, final_reply henv (clients_update_self id _)]
  have hclient : ({ client with tasks := [] } : StratumV2Client) = client := by
    rw [← htasks]
  refine ⟨?_, ?_, hused, hnone, hminer.trans h.sizes⟩
  · rw [clients_update_self]
    exact congrArg some hclient
  · show world.stratumV2Service.channelIdCounter + 1 = counter + 1
    rw [h.counter_eq]

/-- Refused channels move the number on. -/
theorem Waiting.refuseAll {counter : ℕ} (h : Waiting world id client counter)
    (htasks : client.tasks = []) (halive : client.destroyed = false)
    (hchannels : client.hasNoChannel = false) {message : Sv2OpenExtendedMiningChannel}
    (hpasses : ∀ context : Context, context.client = client → context.openError? host
      (parseUserIdentity StratumV2Client.normalizeAddress message.userIdentity).address
      message.maxTarget = none)
    (hsize : 10 < message.minExtranonceSize.toNat) {env : TurnEnv} (henv : env.failed = false)
    (n : ℕ) :
    Waiting ((sv2Machine host config).final world
      (List.replicate n (oneFrame id (.openExtendedMiningChannel message) env)).flatten) id client
        (counter + n) := by
  induction n generalizing world counter with
  | zero => exact h
  | succ n ih =>
    rw [List.replicate_succ, List.flatten_cons, Machine.final_append,
      show counter + (n + 1) = counter + 1 + n by omega]
    exact ih (h.refuse htasks halive hchannels hpasses hsize henv)

/-- A standard channel is opened beside those there are. -/
theorem Waiting.openStandard {counter : ℕ} (h : Waiting world id client counter)
    (htasks : client.tasks = []) (halive : client.destroyed = false)
    (hchannels : client.hasNoChannel = false) {message : Sv2OpenStandardMiningChannel}
    (hpasses : ∀ context : Context, context.client = client → context.openError? host
      (parseUserIdentity StratumV2Client.normalizeAddress message.userIdentity).address
      message.maxTarget = none) (env : TurnEnv) :
    ∃ client' channel', ((sv2Machine host config).final world
        [.data id [.openStandardMiningChannel message], .resume id 0 env]).clients id = some client' ∧
      (∀ channelId, channelId ≠ counter →
        client'.openChannel? channelId = client.openChannel? channelId) ∧
      client'.openChannel? counter = some channel' ∧ channel'.channelType = .standard ∧
      channel'.extranoncePrefix = [UInt8.ofNat ((counter + 1) / 256), UInt8.ofNat (counter + 1),
        env.random.1, env.random.2] := by
  have hopen := hpasses (world.context client) rfl
  have hopening (identity : UserIdentity) : (world.context client).beginOpen identity =
      { jobs := world.jobs
        stratumV2Service :=
          { world.stratumV2Service with
            channelIdCounter := world.stratumV2Service.channelIdCounter + 1 }
        client } := by
    simp only [beginOpen, Sv2World.context, hchannels, Bool.false_eq_true, if_false]
  let channel : ChannelState :=
    .opened .standard
      [UInt8.ofNat ((counter + 1) / 256), UInt8.ofNat (counter + 1), env.random.1, env.random.2]
      (fixedStandardExtranonce2.length / 2)
      (client.openingDifficulty config message.nominalHashRate message.maxTarget)
      message.maxTarget
  have hchannelsAfter : ∃ client', ((sv2Machine host config).final world
      [.data id [.openStandardMiningChannel message], .resume id 0 env]).clients id = some client' ∧
        client'.channels = client.channels.set counter channel := by
    rw [final_oneFrame h.client_eq htasks halive, clients_update_self]
    simp only [handleFrame, handleOpenStandardMiningChannel, hopen, hopening, addChannel, endTurn,
      closesOn, Bool.false_eq_true, if_false]
    refine ⟨_, rfl, ?_⟩
    simp only [channel, ← h.counter_eq]
    rfl
  obtain ⟨client', hclient', hset⟩ := hchannelsAfter
  refine ⟨client', channel, hclient', ?_, ?_, rfl, rfl⟩
  · intro channelId hne
    rw [StratumV2Client.openChannel?, hset, OrdMap.get?_set, if_neg hne]
    rfl
  · rw [StratumV2Client.openChannel?, hset, OrdMap.get?_set, if_pos rfl]
    rfl

end

namespace Sv2Sample

/-- `A` opens a standard channel. -/
def openedStandard : List Sv2Input :=
  [.connect 0 "s" .solo, .template (template 7 true) 1700000000000, .data 0 [openStandard]]
    ++ turns 14

/-- More bytes of its own than there are. -/
def tooLarge : Sv2OpenExtendedMiningChannel where
  requestId := 1
  userIdentity := "A.rig"
  nominalHashRate := none
  maxTarget := List.replicate 32 0xff
  minExtranonceSize := 11

/-- All other low halves are taken by channels that are refused. -/
def wrapped : List Sv2Input :=
  openedStandard ++ (List.replicate 65535 (oneFrame 0 (.openExtendedMiningChannel tooLarge) env)).flatten
    ++ [.data 0 [openStandard], .resume 0 0 env]

end Sv2Sample

/-- Before its first channel a connection clashes with nobody. -/
theorem noPrefixClash_first {host : Externals} {world : Sv2World} {history : List Sv2Output}
    {input : Sv2Input}
    (hempty : ∀ id client, world.clients id = some client → client.channels.entries = []) :
    NoPrefixClash host world history input := by
  intro taken _ _ id client channelId channel hclient hopen
  have hentry := OrdMap.get?_eq_some_iff.mp (openChannel?_eq_some hopen).1
  rw [hempty id client hclient] at hentry
  cases hentry

end PublicPool.Proofs
