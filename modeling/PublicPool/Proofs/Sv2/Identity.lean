import PublicPool.Proofs.Sv2.JobFrames

/-!
# `PublicPool.Proofs.Sv2.Identity`: the identity of a connection

A connection has one address and one worker name. They are written when a channel is asked for
while no channel is open, and by nothing else: `identity_turn`. An `Opening` is such a request
that passes the checks, with the identity that it names and the id that its channel takes.
-/

set_option autoImplicit false

namespace PublicPool.Sv2

/-- A request for a channel that passes the checks: the id it takes, the identity it names, and
whether it came while no channel was open. -/
structure Opening where
  channelId : ℕ
  identity : UserIdentity
  isFirst : Bool
  deriving DecidableEq

/-- The user identity and the target of a message that asks for a channel. -/
def Sv2Message.request? : Sv2Message → Option (String × Bytes)
  | .openStandardMiningChannel message => some (message.userIdentity, message.maxTarget)
  | .openExtendedMiningChannel message => some (message.userIdentity, message.maxTarget)
  | _ => none

/-- The opening that a request is, unless a check refuses it. -/
def Context.opening? (host : Externals) (context : Context) (userIdentity : String)
    (maxTarget : Bytes) : Option Opening :=
  let identity := parseUserIdentity StratumV2Client.normalizeAddress userIdentity
  match context.openError? host identity.address maxTarget with
  | some _ => none
  | none =>
    some
      { channelId := context.stratumV2Service.channelIdCounter
        identity
        isFirst := context.client.hasNoChannel }

/-- The opening that a handler begins with. -/
def Context.handledOpening? (host : Externals) (context : Context) : Handled → Option Opening
  | .frame message => message.request?.bind fun request =>
      context.opening? host request.1 request.2
  | .wait _ => none

end PublicPool.Sv2

namespace PublicPool.Proofs

open Sv2
open Sv2.Context

/-- The address and the worker name of a connection. -/
def identityOf (client : StratumV2Client) : Option String × String :=
  (client.address, client.workerName)

/-- The identity after an opening: the first one's is taken. -/
def identityAfter (client : StratumV2Client) : Option Opening → Option String × String
  | some opening =>
    if opening.isFirst then (some opening.identity.address, opening.identity.workerName)
    else identityOf client
  | none => identityOf client

section
variable {host : Externals} {config : Sv2Config} {context : Context}

theorem identityOf_closeSocket (context : Context) :
    identityOf context.closeSocket.client = identityOf context.client := by
  unfold closeSocket
  split
  · rfl
  · rfl

theorem identityOf_onTemplate (client : StratumV2Client) (jobTemplate : JobTemplate) (now : ℕ) :
    identityOf (client.onTemplate jobTemplate now) = identityOf client := by
  simp only [StratumV2Client.onTemplate, StratumV2Client.clearChannels]
  split
  · rfl
  · rfl

theorem identityOf_beginOpen (identity : UserIdentity) :
    identityOf (context.beginOpen identity).client
      = if context.client.hasNoChannel then (some identity.address, identity.workerName)
        else identityOf context.client := by
  unfold beginOpen
  split
  · rfl
  · rfl

/-! ### One case for each handler -/

theorem identity_handleSetupConnection (message : Sv2SetupConnection) :
    identityOf (context.handleSetupConnection message).context.client
      = identityOf context.client := by
  unfold handleSetupConnection
  split
  · rfl
  · split
    · rfl
    · simp only
      split
      · rfl
      · rfl

variable {userIdentity : String} {maxTarget : Bytes} {input : Sv2Input}

/-- A request that is refused changes nothing. -/
theorem identityAfter_refused {error : String × Bool} (h : context.openError? host
      (parseUserIdentity StratumV2Client.normalizeAddress userIdentity).address maxTarget
        = some error) :
    identityAfter context.client (context.opening? host userIdentity maxTarget)
      = identityOf context.client := by
  simp only [opening?, h, identityAfter]

/-- A request that passes is written by `beginOpen`. -/
theorem identityAfter_passed (h : context.openError? host
      (parseUserIdentity StratumV2Client.normalizeAddress userIdentity).address maxTarget = none) :
    identityAfter context.client (context.opening? host userIdentity maxTarget)
      = identityOf (context.beginOpen
          (parseUserIdentity StratumV2Client.normalizeAddress userIdentity)).client := by
  rw [identityOf_beginOpen]
  simp only [opening?, h, identityAfter]

theorem identity_handleOpenStandardMiningChannel (message : Sv2OpenStandardMiningChannel)
    (random : UInt8 × UInt8) :
    identityOf (context.handleOpenStandardMiningChannel host config message random).context.client
      = identityAfter context.client
          (context.opening? host message.userIdentity message.maxTarget) := by
  unfold handleOpenStandardMiningChannel
  simp only
  split
  · rename_i herror
    exact (identityAfter_refused herror).symm
  · rename_i herror
    exact (identityAfter_passed herror).symm

/-- The identity is written before the prefix is allocated and the size is checked. -/
theorem identity_handleOpenExtendedMiningChannel (message : Sv2OpenExtendedMiningChannel) :
    identityOf (context.handleOpenExtendedMiningChannel host config message).context.client
      = identityAfter context.client
          (context.opening? host message.userIdentity message.maxTarget) := by
  unfold handleOpenExtendedMiningChannel
  simp only
  split
  · rename_i herror
    exact (identityAfter_refused herror).symm
  · rename_i herror
    rw [identityAfter_passed herror]
    split
    · rfl
    · split
      · rfl
      · rfl

theorem identity_submitShare (channelId sequenceNumber : ℕ) (channel : ChannelState)
    (tuple : ShareTuple) (verdict : ShareVerdict) :
    identityOf
        (context.submitShare channelId sequenceNumber channel tuple verdict).context.client
      = identityOf context.client := by
  unfold submitShare
  split
  · rfl
  · cases verdict with
    | rejected | threw | accepted => rfl

variable (message : Sv2SetCustomMiningJob) (channelId : ℕ) (after : AfterJob) (now : ℕ)
  (env : TurnEnv)

theorem identity_handleSetCustomMiningJob (declaredJob : Option Sv2DeclaredMiningJob) :
    identityOf (context.handleSetCustomMiningJob message declaredJob).context.client
      = identityOf context.client := by
  unfold handleSetCustomMiningJob
  simp only
  split
  · rfl
  · split
    · rfl
    · split
      · rfl
      · split
        · rfl
        · split
          · rfl
          · split
            · rfl
            · rfl

theorem identity_handleUpdateChannel (message : Sv2UpdateChannel) :
    identityOf (context.handleUpdateChannel config message).context.client
      = identityOf context.client := by
  unfold handleUpdateChannel
  split
  · rfl
  · simp only
    split
    · rfl
    · rfl

theorem identity_handleCloseChannel :
    identityOf (context.handleCloseChannel channelId).context.client
      = identityOf context.client := by
  unfold handleCloseChannel
  simp only
  split
  · exact identityOf_closeSocket _
  · rfl

theorem identity_sendJob (jobTemplate : JobTemplate) (sendPrevHash : Bool) (after : AfterJob)
    (now : ℕ) :
    identityOf
        (context.sendJob host config channelId jobTemplate sendPrevHash after now).context.client
      = identityOf context.client := by
  unfold sendJob
  split
  · split
    · unfold sendNewMiningJob
      split
      · rfl
      · simp only
        split
        · rfl
        · rfl
    · unfold sendNewExtendedMiningJob
      split
      · rfl
      · rfl
  · rfl

theorem identity_afterJob :
    identityOf (context.afterJob host config after now).context.client
      = identityOf context.client := by
  cases after with
  | opening isFirstChannel =>
    simp only [afterJob]
    split
    · show identityOf (context.subscribeToJobs now).client = _
      unfold subscribeToJobs
      split
      · rfl
      · simp only
        split
        · exact identityOf_onTemplate ..
        · rfl
    · rfl
  | loop jobTemplate sendPrevHash channelId =>
    simp only [afterJob]
    split
    · rfl
    · exact identity_sendJob ..

theorem identity_nextTarget (targetDiff : ℚ) (channelId : ℕ) :
    identityOf (context.nextTarget config targetDiff channelId).context.client
      = identityOf context.client := by
  unfold nextTarget
  split
  · rfl
  · rfl

theorem identity_installCustomJob (latestTemplate : JobTemplate) (now : ℕ) :
    identityOf (context.installCustomJob host config message latestTemplate now).context.client
      = identityOf context.client := by
  unfold installCustomJob
  split
  · simp only
    split
    · rfl
    · rfl
    · split
      · rfl
      · rfl
  · rfl

theorem identity_withTemplate {wait : Wait} {handler : JobTemplate → Turn}
    (h : ∀ jobTemplate, identityOf (handler jobTemplate).context.client
      = identityOf context.client) :
    identityOf (context.withTemplate wait handler).context.client = identityOf context.client := by
  unfold withTemplate
  split
  · exact h _
  · rfl

theorem identity_resume (wait : Wait) :
    identityOf (context.resume host config env wait).context.client
      = identityOf context.client := by
  cases wait with
  | reply thenClose =>
    show identityOf (if thenClose then context.closeSocket else context).client = _
    split
    · exact identityOf_closeSocket context
    · rfl
  | openReply channelId isFirstChannel =>
    simp only [resume, afterOpenReply]
    split
    · rfl
    · rfl
  | firstTemplate channelId isFirstChannel =>
    exact identity_withTemplate fun _ => identity_sendJob ..
  | prevHashFrame after => exact identity_afterJob after _
  | targetFrame targetDiff channelId => exact identity_nextTarget targetDiff channelId
  | refreshTemplate => exact identity_withTemplate fun _ => rfl
  | customTemplate message => exact identity_withTemplate fun _ => identity_installCustomJob ..
  | shareReply share =>
    simp only [resume, afterShareReply]
    split
    · rfl
    · rfl
    · rfl
  | nextFrame | recordShare | openEntity | standardJobFrame | extendedJobFrame | submitBlock
  | saveBlock | finalizeSnapshot | notifyBlock => rfl

/-- A turn takes the identity of an opening, or leaves the identity alone. -/
theorem identity_turn (handled : Handled) :
    identityOf (context.turn host config env handled).context.client
      = identityAfter context.client (context.handledOpening? host handled) := by
  cases handled with
  | frame message =>
    cases message with
    | setupConnection message => exact identity_handleSetupConnection message
    | openStandardMiningChannel message =>
      exact identity_handleOpenStandardMiningChannel message env.random
    | openExtendedMiningChannel message => exact identity_handleOpenExtendedMiningChannel message
    | submitSharesStandard submission =>
      simp only [turn, handleFrame, handleSubmitSharesStandard]
      split
      · rfl
      · exact identity_submitShare ..
    | submitSharesExtended submission =>
      simp only [turn, handleFrame, handleSubmitSharesExtended]
      split
      · rfl
      · exact identity_submitShare ..
    | setCustomMiningJob message => exact identity_handleSetCustomMiningJob message _
    | updateChannel message => exact identity_handleUpdateChannel message
    | closeChannel channelId => exact identity_handleCloseChannel _
    | malformed | unsupported => rfl
  | wait wait =>
    simp only [turn]
    split
    · rfl
    · exact identity_resume env wait

theorem identity_checkDifficulty (suggested : Option ℚ) :
    identityOf (context.checkDifficulty config suggested).context.client
      = identityOf context.client := by
  unfold checkDifficulty
  split
  · rfl
  · split
    · rfl
    · rfl

theorem identity_endTurn (origin : Origin) (turn : Turn) :
    identityOf (endTurn origin turn).1.client = identityOf turn.context.client := by
  simp only [endTurn]
  split
  · exact identityOf_closeSocket _
  · rfl

theorem RunsTurn.identity {handled : Handled} {turn : Turn}
    (h : RunsTurn host config context input handled turn) :
    identityOf turn.context.client
      = identityAfter context.client (context.handledOpening? host handled) := by
  cases h with
  | resumes id k env handled => exact identity_turn env handled
  | checks id suggested => exact identity_checkDifficulty suggested

/-- A connection that has no turn keeps its identity. -/
theorem Moved.identity {world : Sv2World} {client client' : StratumV2Client}
    (h : Moved world input client client') : identityOf client' = identityOf client := by
  cases h with
  | stays => rfl
  | closes => exact identityOf_closeSocket _
  | template =>
    unfold StratumV2Client.receiveTemplate
    split
    · exact identityOf_onTemplate ..
    · rfl
  | data =>
    unfold StratumV2Client.receive
    split
    · rfl
    · rfl

end

end PublicPool.Proofs
