import PublicPool.Proofs.Sv2.DoubleCredit
import PublicPool.Proofs.Sv2.PrefixHolders
import PublicPool.Proofs.Targets

/-!
# `PublicPool.Proofs.Sv2.MaxTarget`: the largest target a channel takes

A miner declares the largest target it takes when it opens a channel, and may declare another one
later. The pool clamps the difficulty to it, but a target turns into a difficulty and back through a
rounding to millionths, and an `UpdateChannel` without a hash rate stores a new largest target and
leaves the difficulty as it is.

`Fits` says when a clamped difficulty has a target within the bound. In a run whose turns all meet
it, every channel stays within its bound; the condition is on what a turn takes up, not on what it
leaves.
-/

set_option autoImplicit false

namespace PublicPool.Proofs

open Lib
open Sv2
open Sv2.Context
open DifficultyUtils

/-! ### Clamping to a target -/

/-- The difficulty of a target, rounded to millionths, has no larger target. -/
def SurvivesRounding (maxTarget : Bytes) : Prop :=
  trueDiffOne * 1000000 < (leValue maxTarget + 1) *
    (DifficultyUtils.round (trueDiffOne / leValue maxTarget * 1000000)).toNat

instance (maxTarget : Bytes) : Decidable (SurvivesRounding maxTarget) :=
  inferInstanceAs (Decidable (_ < _))

/-- A difficulty that is clamped ends within the bound: its target is within it, or that of the
bound's own difficulty is. -/
def Fits (difficulty : Option ℚ) (maxTarget : Bytes) : Prop :=
  leValue (difficultyToTarget difficulty) ≤ leValue maxTarget ∨
    maxTarget.length = 32 ∧ SurvivesRounding maxTarget

instance (difficulty : Option ℚ) (maxTarget : Bytes) : Decidable (Fits difficulty maxTarget) :=
  inferInstanceAs (Decidable (_ ∨ _))

section
variable {target maxTarget : Bytes} {difficulty : Option ℚ}

theorem leValue_eq_zero : leValue target = 0 ↔ target.all (· = 0) = true := by
  induction target with
  | nil => exact ⟨fun _ => rfl, fun _ => rfl⟩
  | cons byte target ih =>
    have hvalue : leValue (byte :: target) = byte.toNat + 256 * leValue target := rfl
    have hbyte : byte.toNat = 0 ↔ byte = 0 := by
      rw [← UInt8.toNat_inj]
      rfl
    rw [hvalue, List.all_cons, Bool.and_eq_true, decide_eq_true_iff, ← ih, ← hbyte]
    omega

theorem not_survivesRounding_of_all (h : target.all (· = 0) = true) :
    ¬ SurvivesRounding target := by
  rw [SurvivesRounding, leValue_eq_zero.mpr h, Nat.cast_zero, div_zero, zero_mul]
  have hround : DifficultyUtils.round 0 = 0 := by decide +kernel
  rw [hround]
  decide

/-- The difficulty of a target has a target within it if and only if it survives the rounding,
unless the target is the largest of all. -/
theorem leValue_ofTarget_le_iff (hvalue : leValue maxTarget ≠ 0)
    (hlt : leValue maxTarget < leValue DifficultyUtils.maxTarget) :
    leValue (difficultyToTarget (some ((trueDiffOne : ℚ) / leValue maxTarget)))
      ≤ leValue maxTarget ↔ SurvivesRounding maxTarget := by
  have hdifficulty : 0 < (trueDiffOne : ℚ) / leValue maxTarget :=
    div_pos (by norm_num [trueDiffOne]) (by exact_mod_cast Nat.pos_of_ne_zero hvalue)
  have hnonneg : 0 ≤ DifficultyUtils.round ((trueDiffOne : ℚ) / leValue maxTarget * 1000000) :=
    Int.floor_nonneg.mpr (by positivity)
  unfold SurvivesRounding
  rcases hnonneg.eq_or_lt with hzero | hpos
  · -- a difficulty that rounds to zero sets no bound at all
    have htarget : difficultyToTarget (some ((trueDiffOne : ℚ) / leValue maxTarget))
        = DifficultyUtils.maxTarget := by
      simp only [difficultyToTarget]
      rw [if_neg (not_le.mpr hdifficulty), if_pos hzero.symm]
    rw [htarget, ← hzero]
    simp only [Int.toNat_zero, Nat.mul_zero, Nat.not_lt_zero, iff_false, not_le]
    exact hlt
  · have hnat : 0 < (DifficultyUtils.round
        ((trueDiffOne : ℚ) / leValue maxTarget * 1000000)).toNat := by omega
    rw [leValue_difficultyToTarget hpos hdifficulty, ← Nat.lt_succ_iff, Nat.div_lt_iff_lt_mul hnat]

/-- The configured minimum only raises a difficulty. -/
theorem leValue_clampDifficulty_le (config : Sv2Config) (difficulty : Option ℚ) :
    leValue (difficultyToTarget (StratumV2Client.clampDifficulty config difficulty))
      ≤ leValue (difficultyToTarget difficulty) := by
  unfold StratumV2Client.clampDifficulty
  split
  · exact leValue_difficultyToTarget_le (le_max_left _ _)
  · exact le_rfl

/-- What fits ends within the bound, whatever the configured minimum. -/
theorem Fits.clamped (h : Fits difficulty maxTarget) (config : Sv2Config) :
    leValue (difficultyToTarget
        (StratumV2Client.clampDifficulty config (clampDifficultyToMaxTarget difficulty maxTarget)))
      ≤ leValue maxTarget := by
  refine (leValue_clampDifficulty_le config _).trans ?_
  unfold clampDifficultyToMaxTarget
  split
  · rename_i hbad
    refine h.resolve_right ?_
    rintro ⟨hlength, hsurvives⟩
    exact not_survivesRounding_of_all (hbad.resolve_left (not_not.mpr hlength)) hsurvives
  · rename_i hgood
    obtain ⟨hlength, hnonzero⟩ := not_or.mp hgood
    have hmeets_iff := meetsTarget_iff (length_difficultyToTarget difficulty) (not_not.mp hlength)
    split
    · rename_i hmeets
      exact hmeets_iff.mp hmeets
    · rename_i hmisses
      have hover : ¬ leValue (difficultyToTarget difficulty) ≤ leValue maxTarget :=
        fun hle => hmisses (hmeets_iff.mpr hle)
      have hvalue : leValue maxTarget ≠ 0 := fun hzero => hnonzero (leValue_eq_zero.mp hzero)
      have hlt : leValue maxTarget < leValue DifficultyUtils.maxTarget :=
        (not_le.mp hover).trans_le (leValue_le_maxTarget (length_difficultyToTarget _))
      have hdifficulty : 0 < (trueDiffOne : ℚ) / leValue maxTarget :=
        div_pos (by norm_num [trueDiffOne]) (by exact_mod_cast Nat.pos_of_ne_zero hvalue)
      simp only [targetToDifficulty, if_neg hvalue, if_pos hdifficulty]
      exact (leValue_ofTarget_le_iff hvalue hlt).mpr (h.resolve_left hover).2

/-- Under a minimum that is not above the difficulty of the bound, nothing else ends within it. -/
theorem fits_of_clamped {config : Sv2Config} (hlength : maxTarget.length = 32)
    (hnonzero : leValue maxTarget ≠ 0) (hminimum : ∀ configuredMinimum ∈ config.minimumDifficulty,
      configuredMinimum ≤ (trueDiffOne : ℚ) / leValue maxTarget) (h : leValue (difficultyToTarget
        (StratumV2Client.clampDifficulty config (clampDifficultyToMaxTarget difficulty maxTarget)))
      ≤ leValue maxTarget) : Fits difficulty maxTarget := by
  by_cases hle : leValue (difficultyToTarget difficulty) ≤ leValue maxTarget
  · exact Or.inl hle
  · have hgood : ¬ (maxTarget.length ≠ 32 ∨ maxTarget.all (· = 0) = true) := by
      rw [not_or, not_not]
      exact ⟨hlength, fun hall => hnonzero (leValue_eq_zero.mpr hall)⟩
    have hmisses : ¬ meetsTarget (difficultyToTarget difficulty) maxTarget = true :=
      fun hmeets => hle ((meetsTarget_iff (length_difficultyToTarget _) hlength).mp hmeets)
    have hlt : leValue maxTarget < leValue DifficultyUtils.maxTarget :=
      (not_le.mp hle).trans_le (leValue_le_maxTarget (length_difficultyToTarget _))
    have hdifficulty : 0 < (trueDiffOne : ℚ) / leValue maxTarget :=
      div_pos (by norm_num [trueDiffOne]) (by exact_mod_cast Nat.pos_of_ne_zero hnonzero)
    have hclamped : StratumV2Client.clampDifficulty config
        (clampDifficultyToMaxTarget difficulty maxTarget)
          = some ((trueDiffOne : ℚ) / leValue maxTarget) := by
      unfold clampDifficultyToMaxTarget
      rw [if_neg hgood, if_neg hmisses]
      simp only [targetToDifficulty, if_neg hnonzero, if_pos hdifficulty]
      cases hconfigured : config.minimumDifficulty with
      | none => simp only [StratumV2Client.clampDifficulty, hconfigured]
      | some configuredMinimum =>
        simp only [StratumV2Client.clampDifficulty, hconfigured]
        rw [max_eq_left (hminimum configuredMinimum hconfigured)]
    rw [hclamped] at h
    exact Or.inr ⟨hlength, (leValue_ofTarget_le_iff hnonzero hlt).mp h⟩

end

/-! ### What a turn does to the bounds -/

/-- The target of a channel is at most the largest one that its miner takes. -/
def TargetBounded (channel : ChannelState) : Prop :=
  leValue (difficultyToTarget channel.sessionDifficulty) ≤ leValue channel.declaredMaxTarget

/-- The difficulty that a channel is opened with before it is clamped to the largest target. -/
def startingDifficulty (config : Sv2Config) (client : StratumV2Client)
    (nominalHashRate : Option ℚ) : Option ℚ :=
  ((StratumV2Client.announcedDifficulty config nominalHashRate).map fun calculatedDifficulty =>
      StratumV2Client.clampDifficulty config (some calculatedDifficulty)).getD
    client.sessionDifficulty

/-- The difficulty that a turn clamps, and the largest target that it is clamped to: a channel is
opened, is updated with a hash rate, or has its turn after the difficulty timer. -/
def clamped? (host : Externals) (config : Sv2Config) (context : Context) :
    Handled → Option (Option ℚ × Bytes)
  | .frame (.openStandardMiningChannel message) =>
    if opensStandard host context (.openStandardMiningChannel message) then
      some (startingDifficulty config context.client message.nominalHashRate, message.maxTarget)
    else none
  | .frame (.openExtendedMiningChannel message) =>
    if opensExtended host context (.openExtendedMiningChannel message) &&
        (context.stratumV2Service.extranonceManager.allocate
          context.stratumV2Service.channelIdCounter).isSome then
      some (startingDifficulty config context.client message.nominalHashRate, message.maxTarget)
    else none
  | .frame (.updateChannel message) =>
    (context.client.openChannel? message.channelId.toNat).bind fun _ =>
      (StratumV2Client.announcedDifficulty config message.nominalHashRate).map
        fun nextDifficulty => (some nextDifficulty, message.maximumTarget)
  | .wait (.targetFrame targetDiff channelId) =>
    (context.client.channelAfter? channelId).map
      fun next => (some targetDiff, next.2.declaredMaxTarget)
  | _ => none

/-- The difficulty that a channel keeps although it is updated, and its new largest target. -/
def keptUnder? (config : Sv2Config) (context : Context) : Handled → Option (Option ℚ × Bytes)
  | .frame (.updateChannel message) =>
    (context.client.openChannel? message.channelId.toNat).bind fun channel =>
      if (StratumV2Client.announcedDifficulty config message.nominalHashRate).isNone then
        some (channel.sessionDifficulty, message.maximumTarget)
      else none
  | _ => none

/-- A difficulty that a turn clamps fits, and one that it keeps is within the new bound. -/
def TurnFits (host : Externals) (config : Sv2Config) (context : Context) (handled : Handled) :
    Prop :=
  (∀ clamped ∈ clamped? host config context handled, Fits clamped.1 clamped.2) ∧
    ∀ kept ∈ keptUnder? config context handled,
      leValue (difficultyToTarget kept.1) ≤ leValue kept.2

instance (host : Externals) (config : Sv2Config) (context : Context) (handled : Handled) :
    Decidable (TurnFits host config context handled) :=
  inferInstanceAs (Decidable ((∀ _ ∈ _, _) ∧ ∀ _ ∈ _, _))

section
variable {host : Externals} {config : Sv2Config} {context : Context}
  {P : ChannelState → Prop} {client : StratumV2Client}

theorem EveryChannel.mapValues (h : EveryChannel P client) {f : ℕ → ChannelState → ChannelState}
    (hf : ∀ channelId channel, P channel → P (f channelId channel)) :
    EveryChannel P { client with channels := client.channels.mapValues f } := by
  intro id channel' hchannel'
  rw [OrdMap.get?_mapValues] at hchannel'
  obtain ⟨channel, hchannel, rfl⟩ := Option.map_eq_some_iff.mp hchannel'
  exact hf id channel (h id channel hchannel)

theorem EveryChannel.set (h : EveryChannel P client) {channelId : ℕ} {channel : ChannelState}
    (hchannel : P channel) :
    EveryChannel P { client with channels := client.channels.set channelId channel } := by
  intro id channel' hchannel'
  rw [OrdMap.get?_set] at hchannel'
  split at hchannel'
  · cases hchannel'
    exact hchannel
  · exact h id channel' hchannel'

theorem openingDifficulty_eq (config : Sv2Config) (client : StratumV2Client)
    (nominalHashRate : Option ℚ) (maxTarget : Bytes) :
    client.openingDifficulty config nominalHashRate maxTarget =
      StratumV2Client.clampDifficulty config (clampDifficultyToMaxTarget
        (startingDifficulty config client nominalHashRate) maxTarget) := by
  unfold StratumV2Client.openingDifficulty startingDifficulty
  cases StratumV2Client.announcedDifficulty config nominalHashRate with
  | none => rfl
  | some calculatedDifficulty => rfl

/-- A channel is opened within its bound if its starting difficulty fits. -/
theorem bounded_opened {nominalHashRate : Option ℚ} {maxTarget : Bytes}
    (h : Fits (startingDifficulty config client nominalHashRate) maxTarget)
    (channelType : ChannelType) (extranoncePrefix : Bytes) (extranonceSize : ℕ) :
    TargetBounded (.opened channelType extranoncePrefix extranonceSize
      (client.openingDifficulty config nominalHashRate maxTarget) maxTarget) := by
  rw [openingDifficulty_eq]
  exact h.clamped config

theorem sessionDifficulty_beginOpen (context : Context) (identity : UserIdentity) :
    (context.beginOpen identity).client.sessionDifficulty = context.client.sessionDifficulty ∧
      (context.beginOpen identity).client.channels = context.client.channels := by
  unfold beginOpen
  cases context.client.hasNoChannel with
  | true => exact ⟨rfl, rfl⟩
  | false => exact ⟨rfl, rfl⟩

/-! ### One case for each handler -/

variable (h : EveryChannel TargetBounded context.client)
include h

theorem bounded_closeSocket : EveryChannel TargetBounded context.closeSocket.client := by
  unfold closeSocket
  split
  · exact h
  · exact h.mapValues fun _ _ hchannel => hchannel

theorem bounded_handleSetupConnection (message : Sv2SetupConnection) :
    EveryChannel TargetBounded (context.handleSetupConnection message).context.client := by
  unfold handleSetupConnection
  split
  · exact h
  · split
    · exact h
    · simp only
      split
      · exact h
      · exact h

theorem bounded_beginOpen (identity : UserIdentity) :
    EveryChannel TargetBounded (context.beginOpen identity).client := by
  intro id channel hchannel
  rw [(sessionDifficulty_beginOpen context identity).2] at hchannel
  exact h id channel hchannel

theorem bounded_handleOpenStandardMiningChannel (message : Sv2OpenStandardMiningChannel)
    (random : UInt8 × UInt8)
    (hfits : TurnFits host config context (.frame (.openStandardMiningChannel message))) :
    EveryChannel TargetBounded
      (context.handleOpenStandardMiningChannel host config message random).context.client := by
  unfold handleOpenStandardMiningChannel
  simp only
  split
  · exact h
  · rename_i herror
    have hopens : opensStandard host context (.openStandardMiningChannel message) = true := by
      simp only [opensStandard, herror, Option.isNone_none]
    have hstart := hfits.1
      (startingDifficulty config context.client message.nominalHashRate, message.maxTarget)
      (if_pos hopens)
    refine (bounded_beginOpen h _).set (bounded_opened ?_ ..)
    rw [startingDifficulty, (sessionDifficulty_beginOpen context _).1]
    exact hstart

theorem bounded_handleOpenExtendedMiningChannel (message : Sv2OpenExtendedMiningChannel)
    (hfits : TurnFits host config context (.frame (.openExtendedMiningChannel message))) :
    EveryChannel TargetBounded
      (context.handleOpenExtendedMiningChannel host config message).context.client := by
  have hmanager (identity : UserIdentity) :
      (context.beginOpen identity).stratumV2Service.extranonceManager
        = context.stratumV2Service.extranonceManager := rfl
  unfold handleOpenExtendedMiningChannel
  simp only
  split
  · exact h
  · rename_i herror
    split
    · exact bounded_beginOpen h _
    · rename_i extranonceManager extranoncePrefix hallocate
      rw [hmanager] at hallocate
      obtain ⟨hminer, hmax⟩ := allocate_sizes hallocate
      split
      · exact bounded_beginOpen h _
      · rename_i hsize
        rw [hminer, hmax] at hsize
        have hle : message.minExtranonceSize.toNat
            ≤ context.stratumV2Service.extranonceManager.minerExtranonceSize := by omega
        have hopens : (opensExtended host context (.openExtendedMiningChannel message) &&
            (context.stratumV2Service.extranonceManager.allocate
              context.stratumV2Service.channelIdCounter).isSome) = true := by
          simp only [opensExtended, herror, Option.isNone_none, hallocate,
            Option.isSome_some, Bool.and_true, decide_eq_true hle]
        have hstart := hfits.1
          (startingDifficulty config context.client message.nominalHashRate, message.maxTarget)
          (if_pos hopens)
        refine (bounded_beginOpen h _).set (bounded_opened ?_ ..)
        rw [startingDifficulty, (sessionDifficulty_beginOpen context _).1]
        exact hstart

theorem bounded_answerShare (channelId sequenceNumber : ℕ) (verdict : ShareVerdict) :
    EveryChannel TargetBounded
      (context.answerShare channelId sequenceNumber verdict).context.client := by
  unfold answerShare
  split
  · exact h
  · exact h
  · exact h

theorem bounded_submitShare (channelId sequenceNumber : ℕ) (channel : ChannelState)
    (tuple : ShareTuple) (verdict : ShareVerdict) :
    EveryChannel TargetBounded
      (context.submitShare channelId sequenceNumber channel tuple verdict).context.client := by
  unfold submitShare
  split
  · exact h
  · refine bounded_answerShare ?_ _ _ _
    exact h.modify (fun _ => id) fun old hold => h _ old hold

theorem bounded_handleSetCustomMiningJob (message : Sv2SetCustomMiningJob)
    (declaredJob : Option Sv2DeclaredMiningJob) :
    EveryChannel TargetBounded
      (context.handleSetCustomMiningJob message declaredJob).context.client := by
  unfold handleSetCustomMiningJob
  simp only
  split
  · exact h
  · split
    · exact h
    · split
      · exact h
      · split
        · exact h
        · split
          · exact h
          · split
            · exact h
            · exact h

/-- An update stores the new bound; without a hash rate the difficulty is not clamped to it. -/
theorem bounded_handleUpdateChannel (message : Sv2UpdateChannel)
    (hfits : TurnFits host config context (.frame (.updateChannel message))) :
    EveryChannel TargetBounded (context.handleUpdateChannel config message).context.client := by
  unfold handleUpdateChannel
  split
  · exact h
  · rename_i channel hchannel
    simp only
    split
    · rename_i hsilent
      refine h.modify (fun _ => id) fun old hold => ?_
      obtain rfl : channel = old := by
        have hfound := (openChannel?_eq_some hchannel).1
        exact Option.some.inj (hfound.symm.trans hold)
      refine hfits.2 (channel.sessionDifficulty, message.maximumTarget) ?_
      simp only [keptUnder?, hchannel, hsilent, Option.bind_some, Option.isNone_none, if_true,
        Option.mem_def]
    · rename_i nextDifficulty hannounced
      refine h.modify (fun _ => id) fun old _ => ?_
      refine Fits.clamped ?_ config
      refine hfits.1 (some nextDifficulty, message.maximumTarget) ?_
      simp only [clamped?, hchannel, hannounced, Option.bind_some, Option.map_some, Option.mem_def]

theorem bounded_handleCloseChannel (channelId : ℕ) :
    EveryChannel TargetBounded (context.handleCloseChannel channelId).context.client := by
  have hdeleted : EveryChannel TargetBounded (context.deletingChannel channelId).client :=
    h.modify (fun _ => id) fun old hold => h _ old hold
  unfold handleCloseChannel
  simp only
  split
  · exact bounded_closeSocket hdeleted
  · exact hdeleted

theorem bounded_sendJob (channelId : ℕ) (jobTemplate : JobTemplate) (sendPrevHash : Bool)
    (after : AfterJob) (now : ℕ) :
    EveryChannel TargetBounded (context.sendJob host config channelId jobTemplate sendPrevHash
      after now).context.client := by
  unfold sendJob
  split
  · split
    · unfold sendNewMiningJob
      split
      · exact h
      · simp only
        split
        · exact h
        · exact h.modify (fun _ => id) fun old hold => h _ old hold
    · unfold sendNewExtendedMiningJob
      split
      · exact h
      · exact h
  · exact h

omit h in
theorem bounded_onTemplate (h : EveryChannel TargetBounded client) (jobTemplate : JobTemplate)
    (now : ℕ) : EveryChannel TargetBounded (client.onTemplate jobTemplate now) := by
  show EveryChannel TargetBounded (client.clearChannels jobTemplate now)
  unfold StratumV2Client.clearChannels
  split
  · refine h.mapValues fun _ channel hchannel => ?_
    split
    · unfold ChannelState.clearJobs
      split
      · exact hchannel
      · exact hchannel
    · exact hchannel
  · exact h

theorem bounded_subscribeToJobs (now : ℕ) :
    EveryChannel TargetBounded (context.subscribeToJobs now).client := by
  have hsubscribed : EveryChannel TargetBounded
      { context.client with stratumSubscription := true } := h
  unfold subscribeToJobs
  split
  · exact h
  · simp only
    split
    · exact bounded_onTemplate hsubscribed _ _
    · exact h

theorem bounded_afterJob (after : AfterJob) (now : ℕ) :
    EveryChannel TargetBounded (context.afterJob host config after now).context.client := by
  cases after with
  | opening isFirstChannel =>
    simp only [afterJob]
    split
    · exact bounded_subscribeToJobs h now
    · exact h
  | loop jobTemplate sendPrevHash channelId =>
    simp only [afterJob]
    split
    · exact h
    · exact bounded_sendJob h _ _ _ _ _

/-- The timer clamps its difficulty to the bound of every channel in turn. -/
theorem bounded_nextTarget (targetDiff : ℚ) (channelId : ℕ)
    (hfits : TurnFits host config context (.wait (.targetFrame targetDiff channelId))) :
    EveryChannel TargetBounded (context.nextTarget config targetDiff channelId).context.client := by
  unfold nextTarget
  split
  · exact h
  · rename_i nextId channel hnext
    refine h.modify (fun _ => id) fun old hold => ?_
    obtain rfl : channel = old := by
      have hfound := (channelAfter?_eq_some hnext).1
      exact Option.some.inj (hfound.symm.trans hold)
    refine Fits.clamped ?_ config
    refine hfits.1 (some targetDiff, channel.declaredMaxTarget) ?_
    simp only [clamped?, hnext, Option.map_some, Option.mem_def]

theorem bounded_installCustomJob (message : Sv2SetCustomMiningJob) (latestTemplate : JobTemplate)
    (now : ℕ) :
    EveryChannel TargetBounded
      (context.installCustomJob host config message latestTemplate now).context.client := by
  unfold installCustomJob
  split
  · simp only
    split
    · exact h
    · exact h
    · split
      · exact h
      · exact h.modify (fun _ => id) fun old hold => h _ old hold
  · exact h

theorem bounded_withTemplate {wait : Wait} {handler : JobTemplate → Turn}
    (hhandler : ∀ jobTemplate, EveryChannel TargetBounded (handler jobTemplate).context.client) :
    EveryChannel TargetBounded (context.withTemplate wait handler).context.client := by
  unfold withTemplate
  split
  · exact hhandler _
  · exact h

theorem bounded_resume (env : TurnEnv) (wait : Wait)
    (hfits : TurnFits host config context (.wait wait)) :
    EveryChannel TargetBounded (context.resume host config env wait).context.client := by
  cases wait with
  | targetFrame targetDiff channelId => exact bounded_nextTarget h targetDiff channelId hfits
  | reply thenClose =>
    simp only [resume]
    split
    · exact bounded_closeSocket h
    · exact h
  | openReply channelId isFirstChannel =>
    simp only [resume, afterOpenReply]
    split
    · exact h
    · exact h
  | firstTemplate channelId isFirstChannel =>
    exact bounded_withTemplate h fun _ => bounded_sendJob h _ _ _ _ _
  | extendedJobFrame channelId push after =>
    exact h.modify (fun _ => id) fun old hold => h _ old hold
  | prevHashFrame after => exact bounded_afterJob h after _
  | refreshTemplate => exact bounded_withTemplate h fun _ => h
  | customTemplate message =>
    exact bounded_withTemplate h fun _ => bounded_installCustomJob h _ _ _
  | shareReply share =>
    simp only [resume, afterShareReply]
    split
    · exact h
    · exact h
    · exact h
  | _ => exact h

/-- A turn keeps the channels within their bounds if what it takes up fits. -/
theorem bounded_turn (env : TurnEnv) (handled : Handled)
    (hfits : goesOn env handled = true → TurnFits host config context handled) :
    EveryChannel TargetBounded (context.turn host config env handled).context.client := by
  cases handled with
  | frame message =>
    have hmessage := hfits rfl
    cases message with
    | setupConnection message => exact bounded_handleSetupConnection h message
    | openStandardMiningChannel message =>
      exact bounded_handleOpenStandardMiningChannel h message _ hmessage
    | openExtendedMiningChannel message =>
      exact bounded_handleOpenExtendedMiningChannel h message hmessage
    | submitSharesStandard submission =>
      simp only [turn, handleFrame, handleSubmitSharesStandard]
      split
      · exact h
      · exact bounded_submitShare h _ _ _ _ _
    | submitSharesExtended submission =>
      simp only [turn, handleFrame, handleSubmitSharesExtended]
      split
      · exact h
      · exact bounded_submitShare h _ _ _ _ _
    | setCustomMiningJob message => exact bounded_handleSetCustomMiningJob h message _
    | updateChannel message => exact bounded_handleUpdateChannel h message hmessage
    | closeChannel channelId => exact bounded_handleCloseChannel h _
    | malformed | unsupported => exact h
  | wait wait =>
    simp only [turn]
    split
    · exact h
    · rename_i hsucceeds
      refine bounded_resume h env wait (hfits ?_)
      simpa only [goesOn, Bool.not_eq_true', Bool.not_eq_true] using hsucceeds

theorem bounded_checkDifficulty (suggested : Option ℚ) :
    EveryChannel TargetBounded (context.checkDifficulty config suggested).context.client := by
  unfold checkDifficulty
  split
  · exact h
  · split
    · exact h
    · exact h

end

theorem bounded_endTurn {turn : Turn} (h : EveryChannel TargetBounded turn.context.client)
    (origin : Origin) : EveryChannel TargetBounded (endTurn origin turn).1.client := by
  unfold endTurn
  simp only
  split
  · exact bounded_closeSocket h
  · exact h

/-! ### Runs -/

/-- The handler that an input lets go on, with its connection. -/
def takenUp? (world : Sv2World) (input : Sv2Input) : Option (StratumV2Client × Handled) :=
  match input with
  | .resume id _ _ => handledBy? world id input
  | _ => none

/-- The condition: what the step takes up fits. -/
def TargetsFit (host : Externals) (config : Sv2Config) (world : Sv2World) (_ : List Sv2Output)
    (input : Sv2Input) : Prop :=
  ∀ taken ∈ takenUp? world input, TurnFits host config (world.context taken.1) taken.2

instance (host : Externals) (config : Sv2Config) (world : Sv2World) (history : List Sv2Output)
    (input : Sv2Input) : Decidable (TargetsFit host config world history input) :=
  inferInstanceAs (Decidable (∀ _ ∈ _, _))

/-- The target of every open channel is at most the largest one that its miner has declared. -/
def OpenBounded (world : Sv2World) : Prop :=
  ∀ id client channelId channel, world.clients id = some client →
    client.openChannel? channelId = some channel →
      leValue (difficultyToTarget channel.sessionDifficulty) ≤ leValue channel.declaredMaxTarget

/-- Every channel of every connection is within its bound. -/
def AllBounded (world : Sv2World) : Prop :=
  ∀ id client, world.clients id = some client → EveryChannel TargetBounded client

section
variable {host : Externals} {config : Sv2Config} {world : Sv2World} {history : List Sv2Output}

theorem AllBounded.update (h : AllBounded world) {id : ℕ} {context : Context}
    (hcontext : EveryChannel TargetBounded context.client) :
    AllBounded (world.update id context) := by
  intro id' client hclient
  by_cases hid : id' = id
  · subst hid
    rw [clients_update_self] at hclient
    obtain rfl := Option.some.inj hclient
    exact hcontext
  · rw [clients_update_other hid] at hclient
    exact h id' client hclient

/-- Every step that meets the condition keeps the channels within their bounds. -/
theorem AllBounded.step (h : AllBounded world) {input : Sv2Input}
    (hfits : TargetsFit host config world history input) :
    AllBounded (sv2Step host config world input).1 := by
  cases input with
  | connect id sessionId payoutMode =>
    simp only [sv2Step]
    split
    · refine h.update fun channelId channel hchannel => ?_
      cases hchannel
    · exact h
  | disconnect id =>
    simp only [sv2Step]
    split
    · exact h
    · rename_i client hclient
      exact h.update (bounded_closeSocket (h id client hclient))
  | template template now =>
    intro id client' hclient'
    obtain ⟨client, hclient, rfl⟩ := Option.map_eq_some_iff.mp hclient'
    unfold StratumV2Client.receiveTemplate
    split
    · exact bounded_onTemplate (h id client hclient) _ _
    · exact h id client hclient
  | data id frames =>
    simp only [sv2Step]
    split
    · exact h
    · rename_i client hclient
      refine h.update ?_
      unfold StratumV2Client.receive
      split
      · exact h id client hclient
      · exact h id client hclient
  | resume id k env =>
    simp only [sv2Step]
    split
    · exact h
    · rename_i client hclient
      split
      · exact h
      · rename_i task htask
        refine h.update (bounded_endTurn (bounded_turn ?_ env task.handled.1 fun hgoes => ?_) _)
        · exact h id client hclient
        · -- the connection without its task has the same channels
          refine hfits (client, task.handled.1) ?_
          simp only [takenUp?, handledBy?, if_true, hclient, htask, Option.bind_some,
            Option.filter_some, hgoes, Option.map_some, Option.mem_def]
  | checkDifficulty id suggested =>
    simp only [sv2Step]
    split
    · exact h
    · rename_i client hclient
      split
      · exact h.update (bounded_endTurn (bounded_checkDifficulty (h id client hclient) _) _)
      · exact h

end

namespace Sv2Sample

/-- A standard channel is opened, and its miner declares another largest target with a hash rate or
without one. -/
def redeclared (nominalHashRate : Option ℚ) (maximumTarget : Bytes) : List Sv2Input :=
  [.connect 0 "s" .solo, .template (template 7 true) 1700000000000, .data 0 [openStandard]]
    ++ turns 14
    ++ [.data 0 [.updateChannel { channelId := 1, nominalHashRate, maximumTarget }]] ++ turns 2

/-- The timer sets another difficulty. -/
def retimed (suggested : ℚ) : List Sv2Input := .checkDifficulty 0 (some suggested) :: turns 8

end Sv2Sample

/-- A channel that is found outside its bound. -/
theorem not_openBounded_of_any {world : Sv2World} {id channelId : ℕ}
    (h : ((world.clients id).any fun client => (client.openChannel? channelId).any fun channel =>
      decide (leValue channel.declaredMaxTarget
        < leValue (difficultyToTarget channel.sessionDifficulty))) = true) :
    ¬ OpenBounded world := by
  intro hbounded
  obtain ⟨client, hclient, hchannels⟩ := (Option.any_eq_true _ _).mp h
  obtain ⟨channel, hchannel, hlt⟩ := (Option.any_eq_true _ _).mp hchannels
  exact absurd (hbounded id client channelId channel hclient hchannel)
    (not_le.mpr (of_decide_eq_true hlt))

end PublicPool.Proofs
