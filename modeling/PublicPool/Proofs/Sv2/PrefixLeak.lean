import Mathlib.Data.Set.Basic
import PublicPool.Proofs.Sv2.DoubleCredit
import PublicPool.Proofs.Sv2.PrefixHolders

/-!
# `PublicPool.Proofs.Sv2.PrefixLeak`: which extranonce prefixes are given out

The prefixes that are given out are those of the open extended channels (`PrefixesHeld`). They are
those of the connections that are not destroyed as long as no extended channel is opened on one
that is: `destroy` gives back what there is, and nobody gives back what comes after it. The frames
left in a chunk are handled all the same, so such a frame can come
(`not_allocated_prefixes_are_live`).
-/

set_option autoImplicit false

namespace PublicPool.Proofs

open Lib (OrdMap Machine)
open Sv2
open Sv2.Context

/-! ### What is given out -/

/-- The prefixes that the manager has given out. -/
def allocatedExtendedPrefixes (world : Sv2World) : Set Bytes :=
  {extranoncePrefix | ∃ channelId value,
    world.stratumV2Service.extranonceManager.allocatedPrefixes channelId = some value ∧
      extranoncePrefix = world.stratumV2Service.extranonceManager.prefixToBuffer value}

/-- The prefixes of the extended channels of connections that are not destroyed. -/
def liveExtendedPrefixes (world : Sv2World) : Set Bytes :=
  {extranoncePrefix | ∃ id client channelId channel,
    world.clients id = some client ∧ client.destroyed = false ∧
      client.openChannel? channelId = some channel ∧ channel.channelType = .extended ∧
      extranoncePrefix = channel.extranoncePrefix}

/-- No handler is running or suspended. -/
def NoHandlerRuns (world : Sv2World) : Prop :=
  ∀ id client, world.clients id = some client → client.tasks = []

/-- A frame that opens an extended channel on a destroyed connection. -/
def opensLate (host : Externals) (world : Sv2World) (taken : TakenFrame) : Bool :=
  taken.client.destroyed && opensExtended host (world.context taken.client) taken.message &&
    (world.stratumV2Service.extranonceManager.allocate
      world.stratumV2Service.channelIdCounter).isSome

/-- The condition: no extended channel is opened on a connection that is destroyed. -/
def NotOpenedLate (host : Externals) (world : Sv2World) (_ : List Sv2Output)
    (input : Sv2Input) : Prop :=
  ∀ taken ∈ takenFrame world input, opensLate host world taken = false

instance (host : Externals) (world : Sv2World) (history : List Sv2Output) (input : Sv2Input) :
    Decidable (NotOpenedLate host world history input) :=
  inferInstanceAs (Decidable (∀ _ ∈ _, _))

/-! ### Destroyed connections -/

/-- A destroyed connection holds no prefix. -/
def GoneHoldNothing (holders : ℕ → Option Holder) : Prop :=
  ∀ id channelId mark, (∃ holder, holders id = some holder ∧ holder.destroyed = true ∧
    holder.channels.get? channelId = some mark) → mark.holds = false

section
variable {holders : ℕ → Option Holder} {id : ℕ} {account : Account}

/-- One connection is set to what holds nothing if it is destroyed. -/
theorem GoneHoldNothing.set {holder holder' : Holder}
    (h : GoneHoldNothing (setHolder holders id holder))
    (hholder' : holder'.destroyed = true → ∀ channelId mark,
      holder'.channels.get? channelId = some mark → mark.holds = false) :
    GoneHoldNothing (setHolder holders id holder') := by
  rintro id' channelId mark ⟨found, hfound, hgone, hget⟩
  by_cases hid : id' = id
  · rw [setHolder, if_pos hid] at hfound
    obtain rfl := Option.some.inj hfound
    exact hholder' hgone channelId mark hget
  · rw [setHolder, if_neg hid] at hfound
    refine h id' channelId mark ⟨found, ?_, hgone, hget⟩
    rw [setHolder, if_neg hid]
    exact hfound

/-- Every act keeps it, save for an extended channel that is opened late. -/
theorem GoneHoldNothing.actOn (h : GoneHoldNothing (setHolder holders id account.2))
    (act : HolderAct)
    (hopen : act = .openExtended → account.2.destroyed = true →
      account.1.extranonceManager.allocate account.1.channelIdCounter = none) :
    GoneHoldNothing (setHolder holders id (act.apply account.1 account.2).2) := by
  have hself (hgone : account.2.destroyed = true) (channelId : ℕ) (mark : ChannelMark)
      (hget : account.2.channels.get? channelId = some mark) : mark.holds = false :=
    h id channelId mark ⟨account.2, if_pos rfl, hgone, hget⟩
  refine h.set fun hgone channelId mark hget => ?_
  cases act with
  | takeNumber => exact hself hgone channelId mark hget
  | openStandard random =>
    simp only [HolderAct.apply, Holder.opening, OrdMap.get?_set] at hget
    split at hget
    · cases hget
      rfl
    · exact hself hgone channelId mark hget
  | openExtended =>
    simp only [HolderAct.apply] at hgone hget
    cases hallocate : account.1.extranonceManager.allocate account.1.channelIdCounter with
    | none =>
      simp only [hallocate] at hgone hget
      exact hself hgone channelId mark hget
    | some allocated =>
      simp only [hallocate] at hgone
      rw [hopen rfl hgone] at hallocate
      cases hallocate
  | refuseExtended =>
    have hsame : (HolderAct.apply account.1 account.2 .refuseExtended).2 = account.2 := by
      simp only [HolderAct.apply]
      split
      · rfl
      · rfl
    rw [hsame] at hgone hget
    exact hself hgone channelId mark hget
  | closeChannel closed =>
    simp only [HolderAct.apply] at hgone hget
    rw [OrdMap.get?_modify] at hget
    obtain ⟨old, hold, rfl⟩ := Option.map_eq_some_iff.mp hget
    split
    · rfl
    · exact hself hgone channelId old hold
  | closeSocket =>
    simp only [HolderAct.apply] at hgone hget
    split at hget
    · rename_i hdestroyed
      exact hself hdestroyed channelId mark hget
    · rw [OrdMap.get?_mapValues] at hget
      obtain ⟨old, -, rfl⟩ := Option.map_eq_some_iff.mp hget
      rfl

end

/-- A mark is that of a channel. -/
theorem hasMark_holdersOf {world : Sv2World} {id channelId : ℕ} {mark : ChannelMark} :
    HasMark (holdersOf world) id channelId mark ↔
      ∃ client channel, world.clients id = some client ∧
        client.channels.get? channelId = some channel ∧ mark = markOf channel := by
  constructor
  · rintro ⟨holder, hholder, hget⟩
    obtain ⟨client, hclient, rfl⟩ := Option.map_eq_some_iff.mp hholder
    have hmark : (client.channels.get? channelId).map markOf = some mark :=
      (OrdMap.get?_mapValues _ _ _).symm.trans hget
    obtain ⟨channel, hchannel, rfl⟩ := Option.map_eq_some_iff.mp hmark
    exact ⟨client, channel, hclient, hchannel, rfl⟩
  · rintro ⟨client, channel, hclient, hchannel, rfl⟩
    refine ⟨holderOf client, holdersOf_eq hclient, ?_⟩
    show (client.channels.mapValues fun _ channel => markOf channel).get? channelId = _
    rw [OrdMap.get?_mapValues, hchannel, Option.map_some]

/-- The books are right, and destroyed connections hold nothing. -/
def PrefixesLive (world : Sv2World) : Prop :=
  PrefixesHeld world.stratumV2Service (holdersOf world) ∧ GoneHoldNothing (holdersOf world)

theorem prefixesLive_initial : PrefixesLive .initial := by
  refine ⟨prefixesHeld_initial, ?_⟩
  rintro id channelId mark ⟨holder, hholder, -⟩
  cases hholder

section
variable (host : Externals) (config : Sv2Config)

/-- A step that meets the condition keeps the books and opens nothing late. -/
theorem PrefixesLive.step {world : Sv2World} {history : List Sv2Output} {input : Sv2Input}
    (h : PrefixesLive world) (hcond : NotOpenedLate host world history input) :
    PrefixesLive (sv2Step host config world input).1 := by
  refine @keeps_sv2Step host config world input
    (fun service holders => PrefixesHeld service holders ∧ GoneHoldNothing holders) h ?_ ?_
  · intro id hnone
    refine ⟨h.1.connect hnone, ?_⟩
    rintro id' channelId mark ⟨holder, hholder, hgone, hget⟩
    by_cases hid : id' = id
    · rw [setHolder, if_pos hid] at hholder
      cases hholder
      cases hgone
    · rw [setHolder, if_neg hid] at hholder
      exact h.2 id' channelId mark ⟨holder, hholder, hgone, hget⟩
  · rintro id account act ⟨hheld, hnothing⟩ hasked
    refine ⟨hheld.actOn act, hnothing.actOn act ?_⟩
    rintro rfl hgone
    -- the frame that asks for the channel is one that the condition speaks of
    obtain ⟨taken, htaken, -, rfl, hopens⟩ := hasked
    have hlate := hcond taken htaken
    have hdestroyed : taken.client.destroyed = true := hgone
    rw [opensLate, hdestroyed, hopens, Bool.true_and, Bool.true_and] at hlate
    exact Option.not_isSome_iff_eq_none.mp (Bool.eq_false_iff.mp hlate)

/-- In every run in which no extended channel is opened on a destroyed connection, in every state,
the prefixes given out are those of the extended channels of the connections that are left. -/
theorem allocated_prefixes_are_live (inputs : List Sv2Input)
    (hcond : (sv2Machine host config).Along (NotOpenedLate host) .initial [] inputs) :
    allocatedExtendedPrefixes ((sv2Machine host config).final .initial inputs)
      = liveExtendedPrefixes ((sv2Machine host config).final .initial inputs) := by
  have hinv : PrefixesLive ((sv2Machine host config).final .initial inputs) :=
    @Machine.history_invariant _ _ _ (sv2Machine host config) (fun world _ => PrefixesLive world) _
      (fun _ _ _ h hc => PrefixesLive.step host config h hc) _ _ prefixesLive_initial _ hcond
  obtain ⟨hheld, hnothing⟩ := hinv
  generalize (sv2Machine host config).final .initial inputs = world at hheld hnothing
  ext extranoncePrefix
  constructor
  · rintro ⟨channelId, value, hvalue, rfl⟩
    obtain ⟨id, mark, hmark, hholds, hbytes⟩ := hheld.booked channelId value hvalue
    obtain ⟨client, channel, hclient, hchannel, rfl⟩ := hasMark_holdersOf.mp hmark
    obtain ⟨hisOpen, htype⟩ := (Bool.and_eq_true_iff).mp hholds
    refine ⟨id, client, channelId, channel, hclient, ?_, ?_, of_decide_eq_true htype,
      hbytes.symm⟩
    · by_contra hgone
      have hdestroyed : (holderOf client).destroyed = true := Bool.eq_true_of_not_eq_false hgone
      have hget : (holderOf client).channels.get? channelId = some (markOf channel) :=
        (OrdMap.get?_mapValues _ _ _).trans (congrArg (Option.map markOf) hchannel)
      rw [hnothing id channelId _ ⟨_, holdersOf_eq hclient, hdestroyed, hget⟩] at hholds
      cases hholds
    · have hopen : channel.isOpen = true := hisOpen
      rw [StratumV2Client.openChannel?, hchannel, Option.filter_some, hopen, if_pos rfl]
  · rintro ⟨id, client, channelId, channel, hclient, -, hopen, htype, rfl⟩
    obtain ⟨hchannel, hisOpen⟩ := openChannel?_eq_some hopen
    have hmark : HasMark (holdersOf world) id channelId (markOf channel) :=
      hasMark_holdersOf.mpr ⟨client, channel, hclient, hchannel, rfl⟩
    have hholds : (markOf channel).holds = true := by
      simp [ChannelMark.holds, markOf, hisOpen, htype]
    obtain ⟨value, hvalue, hbytes⟩ := hheld.held id channelId _ hmark hholds
    exact ⟨channelId, value, hvalue, hbytes⟩

end

namespace Sv2Sample

/-- A connection of another protocol: it is told so and closed. -/
def otherProtocol : Sv2Message :=
  .setupConnection { protocol := 1, minVersion := 2, maxVersion := 2, flags := 0 }

/-- An extended channel for `A`, with at least eight bytes of its own. -/
def openExtendedEight : Sv2Message :=
  .openExtendedMiningChannel
    { requestId := 1, userIdentity := "A.rig", nominalHashRate := none,
      maxTarget := List.replicate 32 0xff, minExtranonceSize := 8 }

/-- One chunk brings the wrong protocol and an extended channel after it. -/
def lateChannel : List Sv2Input :=
  [.connect 0 "s" .solo, .template (template 7 true) 1700000000000,
    .data 0 [otherProtocol, openExtendedEight]] ++ turns 14

/-- A miner opens an extended channel, and its connection closes. -/
def openAndClose : List Sv2Input :=
  [.connect 0 "s" .solo, .template (template 7 true) 1700000000000, .data 0 [openExtendedEight]]
    ++ turns 14 ++ [.disconnect 0]

end Sv2Sample

/-- A connection that never came is not there. -/
theorem clients_eq_none {host : Externals} {config : Sv2Config} {id : ℕ} {inputs : List Sv2Input}
    (hinputs : ∀ input ∈ inputs, ∀ sessionId payoutMode, input ≠ .connect id sessionId payoutMode)
    {world : Sv2World} (hnone : world.clients id = none) :
    ((sv2Machine host config).final world inputs).clients id = none := by
  induction inputs generalizing world with
  | nil => exact hnone
  | cons input inputs ih =>
    refine ih (fun input hinput => hinputs input (List.mem_cons_of_mem _ hinput)) ?_
    have hupdate {id' : ℕ} {client : StratumV2Client} (hclient : world.clients id' = some client)
        (context : Context) : (world.update id' context).clients id = none := by
      have hid : id ≠ id' := by
        rintro rfl
        rw [hnone] at hclient
        cases hclient
      rw [clients_update_other hid, hnone]
    show (sv2Step host config world input).1.clients id = none
    cases input with
    | connect id' sessionId payoutMode =>
      have hid : id ≠ id' := by
        rintro rfl
        exact hinputs _ List.mem_cons_self sessionId payoutMode rfl
      simp only [sv2Step]
      split
      · rw [clients_update_other hid, hnone]
      · exact hnone
    | disconnect id' =>
      simp only [sv2Step]
      split
      · exact hnone
      · rename_i client hclient
        exact hupdate hclient _
    | template template now =>
      simp only [sv2Step, hnone, Option.map_none]
    | data id' frames =>
      simp only [sv2Step]
      split
      · exact hnone
      · rename_i client hclient
        exact hupdate hclient _
    | resume id' k env =>
      simp only [sv2Step]
      split
      · exact hnone
      · rename_i client hclient
        split
        · exact hnone
        · exact hupdate hclient _
    | checkDifficulty id' suggested =>
      simp only [sv2Step]
      split
      · exact hnone
      · rename_i client hclient
        split
        · exact hupdate hclient _
        · exact hnone

open Sv2Sample in
/-- The prefix that was given out for a channel opened late is given out for good: no handler runs,
and there is no connection left that has it. -/
theorem not_allocated_prefixes_are_live :
    NoHandlerRuns ((sv2Machine host config).final .initial lateChannel) ∧
      allocatedExtendedPrefixes ((sv2Machine host config).final .initial lateChannel)
        ≠ liveExtendedPrefixes ((sv2Machine host config).final .initial lateChannel) := by
  have hother : ∀ id client,
      ((sv2Machine host config).final .initial lateChannel).clients id = some client → id = 0 := by
    intro id client hclient
    by_contra hid
    have hnone : ((sv2Machine host config).final .initial lateChannel).clients id = none := by
      refine clients_eq_none ?_ rfl
      intro input hinput sessionId payoutMode hconnect
      rw [hconnect] at hinput
      simp only [lateChannel, turns, List.mem_append, List.mem_cons, Sv2Input.connect.injEq,
        List.mem_replicate, reduceCtorEq, List.not_mem_nil, or_false, and_false] at hinput
      exact hid hinput.1
    rw [hnone] at hclient
    cases hclient
  have hgone : ((((sv2Machine host config).final .initial lateChannel).clients 0).all
      fun client => client.tasks.isEmpty && client.destroyed) = true := by decide +kernel
  have hkept : (((sv2Machine host config).final .initial
      lateChannel).stratumV2Service.extranonceManager.allocatedPrefixes 1) = some 1 := by
    decide +kernel
  have hzero : ∀ client, ((sv2Machine host config).final .initial lateChannel).clients 0
      = some client → client.tasks = [] ∧ client.destroyed = true := by
    intro client hclient
    rw [hclient, Option.all_some, Bool.and_eq_true, List.isEmpty_iff] at hgone
    exact hgone
  refine ⟨?_, fun hsame => ?_⟩
  · intro id client hclient
    obtain rfl := hother id client hclient
    exact (hzero client hclient).1
  · have hmem := hsame.subset ⟨1, 1, hkept, rfl⟩
    obtain ⟨id, client, -, -, hclient, halive, -⟩ := hmem
    obtain rfl := hother id client hclient
    rw [(hzero client hclient).2] at halive
    cases halive

open Sv2Sample in
theorem allocated_prefixes_are_live_sample :
    allocatedExtendedPrefixes ((sv2Machine host config).final .initial openAndClose)
      = liveExtendedPrefixes ((sv2Machine host config).final .initial openAndClose) :=
  allocated_prefixes_are_live host config openAndClose (by decide +kernel)

end PublicPool.Proofs
