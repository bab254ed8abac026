import PublicPool.Proofs.MerklePaths
import PublicPool.Proofs.Sv2.CurrentWork
import PublicPool.Proofs.Sv2.Identity
import PublicPool.Proofs.Sv2.PushedSolutions
import PublicPool.Proofs.Sv2.ValidatedJobs
import PublicPool.Sv2.WorkSelection

/-!
# `PublicPool.Proofs.Sv2.DeclaredWork`: custom jobs and declared jobs

A custom job is looked up under its token when its frame is handled, and installed when the handler
has the latest template. Of the declared job only the version is compared: the merkle path, the parts
of the coinbase and the user are what the message and its connection say. So the job on the channel
is the declared one when the message restates it, and then every credited share on it commits to the
coinbase and to the transactions that were declared and validated: `installs_declared`.

The jobs that were declared are read off the events of the run. What connects them with a message
that waits for its template is the registry, which has only declared jobs, each under its token
(`DeclarationsInv`). A share is judged on a job of its channel, so what is true of the jobs when they
are installed is true of the shares that are recorded (`CustomInv`).
-/

set_option autoImplicit false

namespace PublicPool.Sv2

/-! ### Declared jobs -/

namespace Sv2DeclaredMiningJob

variable (host : Externals) (declared : Sv2DeclaredMiningJob)

/-- The transactions of a declared job in the order of its witness ids. -/
def transactionList : Option (List Bytes) := do
  let map ← buildDeclaredTransactionMap host (← declared.template) declared.providedTransactions
  declared.job.wtxidList.mapM (lookupTransaction map)

/-- The merkle path of the coinbase of a declared job. -/
def merklePath : Option (List Bytes) := do
  buildCoinbaseMerklePath host (← declared.transactionList host)

/-- The user that the token of a declared job was allocated to, as a channel names its user. -/
def identity : UserIdentity :=
  parseUserIdentity StratumV2Client.normalizeAddress declared.userIdentifier

/-- The declared job is restated by a merkle path and the parts of a coinbase. -/
structure RestatedBy (merklePath : List Bytes) (coinbaseParts : Bytes × Bytes) : Prop where
  merklePath : declared.merklePath host = some merklePath
  coinbaseTxPrefix : declared.job.coinbaseTxPrefix = coinbaseParts.1
  coinbaseTxSuffix : declared.job.coinbaseTxSuffix = coinbaseParts.2

instance (merklePath : List Bytes) (coinbaseParts : Bytes × Bytes) :
    Decidable (declared.RestatedBy host merklePath coinbaseParts) :=
  decidable_of_iff (declared.merklePath host = some merklePath ∧
      declared.job.coinbaseTxPrefix = coinbaseParts.1 ∧
      declared.job.coinbaseTxSuffix = coinbaseParts.2)
    ⟨fun h => ⟨h.1, h.2.1, h.2.2⟩,
      fun h => ⟨h.merklePath, h.coinbaseTxPrefix, h.coinbaseTxSuffix⟩⟩

end Sv2DeclaredMiningJob

/-- The job that an output declares. -/
def WorkSelectionOutput.declared? : WorkSelectionOutput → Option Sv2DeclaredMiningJob
  | .declaration _ event => event.declared?
  | .mining _ => none

/-- The jobs that were declared in a run. -/
def declaredIn (history : List WorkSelectionOutput) : List Sv2DeclaredMiningJob :=
  history.filterMap WorkSelectionOutput.declared?

/-! ### Custom jobs -/

/-- The custom job that a handler waits to install. -/
def Wait.custom? : Wait → Option Sv2SetCustomMiningJob
  | .customTemplate message => some message
  | _ => none

/-- The job under which a custom job is accepted, with its channel. -/
def Sv2Event.accepted? : Sv2Event → Option (ℕ × ℕ)
  | .setCustomMiningJobSuccess channelId _ jobId => some (channelId, jobId)
  | _ => none

end PublicPool.Sv2

namespace PublicPool.Proofs

open Sv2
open Sv2.Context
open Lib

/-- The custom job that an input lets go on, with its connection. -/
def customJob? (world : Sv2World) : Sv2Input → Option (ℕ × StratumV2Client × Sv2SetCustomMiningJob)
  | .resume id k env =>
    (handledBy? world id (.resume id k env)).bind fun taken =>
      (Handled.carried? Wait.custom? taken.2).map fun message => (id, taken.1, message)
  | _ => none

/-- An extended job of a channel. -/
def extendedJob? (world : Sv2World) (id channelId jobId : ℕ) : Option ExtendedJobData :=
  (world.clients id).bind fun client =>
    (client.channels.get? channelId).bind fun channel => channel.extendedJobs jobId

section
variable (host : Externals) (jdpConfig : JdpConfig) (config : Sv2Config)

/-- The parts of the coinbase that a channel makes of a custom job. -/
def coinbaseParts (channel : ChannelState) (message : Sv2SetCustomMiningJob) : Bytes × Bytes :=
  buildSv2CoinbaseSplit message (channel.extranoncePrefix.length + channel.extranonceSize)

/-- A custom job that is about to be installed, and whose coinbase passes the check of its payouts,
restates every job that was declared under its token, and comes from the user of that token. -/
def RestatesDeclared (world : WorkSelectionWorld) (history : List WorkSelectionOutput) :
    WorkSelectionInput → Prop
  | .declaration _ => True
  | .mining input =>
    ∀ taken ∈ customJob? world.mining input,
      ∀ jobTemplate ∈ world.mining.jobs.latestTemplate,
        ∀ channel ∈ taken.2.1.channels.get? taken.2.2.channelId.toNat,
          ∀ address ∈ taken.2.1.address,
            ValidatesCustomJob host config (world.mining.context taken.2.1) taken.2.2 jobTemplate
                channel address →
              ∀ declared ∈ declaredIn history, declared.token = taken.2.2.token →
                declared.RestatedBy host taken.2.2.merklePath (coinbaseParts channel taken.2.2) ∧
                  identityOf taken.2.1
                    = (some declared.identity.address, declared.identity.workerName)

/-- A custom job that is accepted is the job that was declared under its token: the job on the
channel has the declared coinbase and the merkle path of the declared transactions, and the token is
one of the connection's user. -/
def InstallsDeclared (world : WorkSelectionWorld) (history : List WorkSelectionOutput) :
    WorkSelectionInput → Prop
  | .declaration _ => True
  | .mining input =>
    let step := workSelectionStep host jdpConfig config world (.mining input)
    ∀ id event, .mining (.client id event) ∈ step.2 → ∀ accepted ∈ event.accepted?,
      ∃ client message, customJob? world.mining input = some (id, client, message) ∧
        ∃ declared ∈ declaredIn history, declared.token = message.token ∧
          identityOf client = (some declared.identity.address, declared.identity.workerName) ∧
          ∃ job, extendedJob? step.1.mining id accepted.1 accepted.2 = some job ∧
            declared.RestatedBy host job.merklePath (job.coinbasePrefix, job.coinbaseSuffix)

/-- A share commits to the coinbase and the transactions of a declared job: the merkle root in its
header is the root over a coinbase with the declared parts and over the declared transactions. -/
def CommitsTo (declared : Sv2DeclaredMiningJob) (share : AcceptedShare) : Prop :=
  ∃ transactionList transactions extranonce root,
    declared.transactionList host = some transactionList ∧
    transactionList.mapM host.fromBuffer = some transactions ∧
    MerkleTree.root (merkleNode host)
        (host.hash256 (declared.job.coinbaseTxPrefix ++ extranonce
          ++ declared.job.coinbaseTxSuffix) :: txids host transactions) = some root ∧
    (share.header.drop 36).take 32 = root.bytes

/-- Every share that is credited on a custom job commits to a declared job that was validated. -/
def CreditsDeclared (world : WorkSelectionWorld) (history : List WorkSelectionOutput)
    (input : WorkSelectionInput) : Prop :=
  ∀ id record share, .mining (.client id (.shareRecorded record share))
      ∈ (workSelectionStep host jdpConfig config world input).2 →
    share.workProtocol = .sv2Jdp →
      ∃ declared ∈ declaredIn history, Validated host declared ∧ CommitsTo host declared share

end

/-! ### Handlers of other messages -/

/-- A turn that neither accepts a custom job nor waits to install one. -/
structure NoCustom (turn : Turn) : Prop where
  events : ∀ event ∈ turn.events, event.accepted? = none
  next : Next.carried? Wait.custom? turn.next = none

section
variable {host : Externals} {config : Sv2Config} {context : Context}

variable {event : Sv2Event} {context : Context} {next : Next}

theorem accepted?_send (h : event.accepted? = none) :
    ∀ sent ∈ context.send event, sent.accepted? = none := by
  intro sent hsent
  unfold send at hsent
  split at hsent
  · cases hsent
  · rwa [List.mem_singleton.mp hsent]

theorem noCustom_silent (h : Next.carried? Wait.custom? next = none) : NoCustom { context, next } :=
  ⟨fun _ hevent => (List.not_mem_nil hevent).elim, h⟩

variable {context' : Context} {wait : Wait}

theorem noCustom_sends (hevent : event.accepted? = none)
    (h : Next.carried? Wait.custom? next = none) :
    NoCustom { context := context', events := context.send event, next } :=
  ⟨accepted?_send hevent, h⟩

theorem noCustom_handleSetupConnection (message : Sv2SetupConnection) :
    NoCustom (context.handleSetupConnection message) := by
  unfold handleSetupConnection
  split
  · exact noCustom_sends rfl rfl
  · split
    · exact noCustom_sends rfl rfl
    · simp only
      split
      · exact noCustom_sends rfl rfl
      · exact noCustom_sends rfl rfl

theorem noCustom_handleOpenStandardMiningChannel (message : Sv2OpenStandardMiningChannel)
    (random : UInt8 × UInt8) :
    NoCustom (context.handleOpenStandardMiningChannel host config message random) := by
  unfold handleOpenStandardMiningChannel
  simp only
  split
  · exact noCustom_sends rfl rfl
  · exact noCustom_silent rfl

theorem noCustom_handleOpenExtendedMiningChannel (message : Sv2OpenExtendedMiningChannel) :
    NoCustom (context.handleOpenExtendedMiningChannel host config message) := by
  unfold handleOpenExtendedMiningChannel
  simp only
  split
  · exact noCustom_sends rfl rfl
  · split
    · exact noCustom_silent rfl
    · split
      · exact noCustom_sends rfl rfl
      · exact noCustom_silent rfl

theorem noCustom_submitShare (channelId sequenceNumber : ℕ) (channel : ChannelState)
    (tuple : ShareTuple) (verdict : ShareVerdict) :
    NoCustom (context.submitShare channelId sequenceNumber channel tuple verdict) := by
  unfold submitShare
  split
  · exact noCustom_sends rfl rfl
  · cases verdict with
    | rejected => exact noCustom_sends rfl rfl
    | threw => exact noCustom_silent rfl
    | accepted => exact noCustom_sends rfl rfl

theorem noCustom_handleUpdateChannel (message : Sv2UpdateChannel) :
    NoCustom (context.handleUpdateChannel config message) := by
  unfold handleUpdateChannel
  split
  · exact noCustom_silent rfl
  · simp only
    split
    · exact noCustom_silent rfl
    · exact noCustom_sends rfl rfl

theorem noCustom_sendJob (channelId : ℕ) (jobTemplate : JobTemplate) (sendPrevHash : Bool)
    (after : AfterJob) (now : ℕ) :
    NoCustom (context.sendJob host config channelId jobTemplate sendPrevHash after now) := by
  unfold sendJob
  split
  · split
    · unfold sendNewMiningJob
      split
      · exact noCustom_silent rfl
      · simp only
        split
        · exact noCustom_silent rfl
        · exact noCustom_sends rfl rfl
    · unfold sendNewExtendedMiningJob
      split
      · exact noCustom_silent rfl
      · exact noCustom_sends rfl rfl
  · exact noCustom_silent rfl

theorem noCustom_afterJob (after : AfterJob) (now : ℕ) :
    NoCustom (context.afterJob host config after now) := by
  cases after with
  | opening isFirstChannel =>
    simp only [afterJob]
    split
    · exact noCustom_silent rfl
    · exact noCustom_silent rfl
  | loop jobTemplate sendPrevHash channelId =>
    simp only [afterJob]
    split
    · exact noCustom_silent rfl
    · exact noCustom_sendJob ..

theorem noCustom_nextTarget (targetDiff : ℚ) (channelId : ℕ) :
    NoCustom (context.nextTarget config targetDiff channelId) := by
  unfold nextTarget
  split
  · exact noCustom_silent rfl
  · exact noCustom_sends rfl rfl

theorem noCustom_checkDifficulty (suggested : Option ℚ) :
    NoCustom (context.checkDifficulty config suggested) := by
  unfold checkDifficulty
  split
  · exact noCustom_silent rfl
  · split
    · exact noCustom_silent rfl
    · exact noCustom_silent rfl

theorem noCustom_withTemplate {handler : JobTemplate → Turn} (hwait : wait.custom? = none)
    (h : ∀ jobTemplate, NoCustom (handler jobTemplate)) :
    NoCustom (context.withTemplate wait handler) := by
  unfold withTemplate
  split
  · exact h _
  · exact noCustom_silent hwait

/-- The frames that a handler writes only if it has something to say. -/
theorem noCustom_optional {sends : Prop} [Decidable sends] (hevent : event.accepted? = none)
    (h : Next.carried? Wait.custom? next = none) :
    NoCustom { context := context', events := if sends then context.send event else [], next } := by
  split
  · exact noCustom_sends hevent h
  · exact noCustom_silent h

theorem noCustom_resume (env : TurnEnv) (hwait : wait.custom? = none) :
    NoCustom (context.resume host config env wait) := by
  cases wait with
  | openEntity channelId requestId isFirstChannel =>
    simp only [resume, afterOpenEntity]
    split
    · exact noCustom_silent rfl
    · split
      · exact noCustom_sends rfl rfl
      · exact noCustom_sends rfl rfl
  | openReply channelId isFirstChannel =>
    simp only [resume, afterOpenReply]
    split
    · exact noCustom_silent rfl
    · exact noCustom_silent rfl
  | firstTemplate channelId isFirstChannel =>
    exact noCustom_withTemplate rfl fun _ => noCustom_sendJob ..
  | standardJobFrame => exact noCustom_optional rfl rfl
  | extendedJobFrame => exact noCustom_optional rfl rfl
  | prevHashFrame after => exact noCustom_afterJob after _
  | targetFrame targetDiff channelId => exact noCustom_nextTarget targetDiff channelId
  | refreshTemplate => exact noCustom_withTemplate rfl fun _ => noCustom_silent rfl
  | customTemplate => cases hwait
  | shareReply share =>
    simp only [resume, afterShareReply]
    split
    · exact ⟨fun event hevent => by rw [List.mem_singleton.mp hevent]; rfl, rfl⟩
    · exact noCustom_silent rfl
    · exact noCustom_silent rfl
  | saveBlock share coinbase blockSubmissionResult =>
    simp only [resume, afterSaveBlock]
    split
    · exact ⟨fun event hevent => by rw [List.mem_singleton.mp hevent]; rfl, rfl⟩
    · exact noCustom_silent rfl
  | submitBlock | notifyBlock =>
    exact ⟨fun event hevent => by rw [List.mem_singleton.mp hevent]; rfl, rfl⟩
  | nextFrame | reply | recordShare | finalizeSnapshot => exact noCustom_silent rfl

/-- What concerns custom jobs is done by the two handlers for them. -/
theorem noCustom_turn (env : TurnEnv) {handled : Handled}
    (hframe : ∀ message, handled ≠ .frame (.setCustomMiningJob message))
    (hwait : Handled.carried? Wait.custom? handled = none) :
    NoCustom (context.turn host config env handled) := by
  cases handled with
  | frame message =>
    cases message with
    | setupConnection message => exact noCustom_handleSetupConnection message
    | openStandardMiningChannel message =>
      exact noCustom_handleOpenStandardMiningChannel message env.random
    | openExtendedMiningChannel message => exact noCustom_handleOpenExtendedMiningChannel message
    | submitSharesStandard submission =>
      simp only [turn, handleFrame, handleSubmitSharesStandard]
      split
      · exact noCustom_sends rfl rfl
      · exact noCustom_submitShare ..
    | submitSharesExtended submission =>
      simp only [turn, handleFrame, handleSubmitSharesExtended]
      split
      · exact noCustom_sends rfl rfl
      · exact noCustom_submitShare ..
    | setCustomMiningJob message => exact absurd rfl (hframe message)
    | updateChannel message => exact noCustom_handleUpdateChannel message
    | closeChannel | malformed | unsupported => exact noCustom_silent rfl
  | wait wait =>
    simp only [turn]
    split
    · exact noCustom_silent rfl
    · exact noCustom_resume env hwait

end

/-! ### The two handlers of custom jobs -/

section
variable {host : Externals} {config : Sv2Config} {context : Context}
  {message : Sv2SetCustomMiningJob}

/-- A custom job that goes on to wait for its template was found under its token. -/
theorem handleSetCustomMiningJob_cases (declaredJob : Option Sv2DeclaredMiningJob) :
    NoCustom (context.handleSetCustomMiningJob message declaredJob) ∨
      (declaredJob.isSome = true ∧ context.handleSetCustomMiningJob message declaredJob
        = { context, next := .waits (.customTemplate message) }) := by
  unfold handleSetCustomMiningJob
  simp only
  split
  · exact Or.inl (noCustom_sends rfl rfl)
  · split
    · exact Or.inl (noCustom_sends rfl rfl)
    · split
      · exact Or.inl (noCustom_sends rfl rfl)
      · split
        · exact Or.inl (noCustom_sends rfl rfl)
        · split
          · exact Or.inl (noCustom_sends rfl rfl)
          · split
            · exact Or.inl (noCustom_sends rfl rfl)
            · exact Or.inr ⟨rfl, rfl⟩

/-- What the handler of a custom job does when it goes on: it goes on waiting, it leaves the
connection alone, or it installs the job on the channel and says so. -/
inductive InstallCase (host : Externals) (config : Sv2Config) (context : Context)
    (message : Sv2SetCustomMiningJob) : Turn → Prop
  | waits : InstallCase host config context message
      { context, next := .waits (.customTemplate message) }
  | refused {turn : Turn} (hsame : turn.context = context) (hnone : NoCustom turn) :
      InstallCase host config context message turn
  | installs {channel : ChannelState} {address : String} {jobTemplate : JobTemplate}
      {job : MiningJob}
      (hlatest : context.jobs.latestTemplate = some jobTemplate)
      (hfound : context.client.channels.get? message.channelId.toNat = some channel)
      (haddress : context.client.address = some address)
      (hvalid : ValidatesCustomJob host config context message jobTemplate channel address) :
      InstallCase host config context message
        { context :=
            { context with
              jobs := context.jobs.addJob job
              client := context.client.modifyChannel message.channelId.toNat
                (ChannelState.setExtendedJob · context.nextJobId
                  (customJob message (coinbaseParts channel message) jobTemplate job)) }
          events := context.send (.setCustomMiningJobSuccess message.channelId.toNat
            message.requestId.toNat context.nextJobId)
          next := .waits (.reply false) }

theorem installCase_turn (env : TurnEnv) :
    InstallCase host config context message
      (context.turn host config env (.wait (.customTemplate message))) := by
  simp only [turn]
  split
  · exact .refused rfl (noCustom_silent rfl)
  · simp only [resume, withTemplate]
    split
    · rename_i jobTemplate hlatest
      unfold installCustomJob
      split
      · rename_i channel address hfound haddress
        simp only
        split
        · exact .refused rfl (noCustom_silent rfl)
        · exact .refused rfl (noCustom_sends rfl rfl)
        · rename_i hvalid
          split
          · exact .refused rfl (noCustom_silent rfl)
          · exact .installs hlatest hfound haddress hvalid
      · exact .refused rfl (noCustom_silent rfl)
    · exact .waits

end

/-! ### Shares on a custom job -/

section
variable {host : Externals} {declared : Sv2DeclaredMiningJob}

variable {channel : ChannelState} {tuple : ShareTuple} {share : AcceptedShare}

variable {channelId sum : ℕ} {extranonce : Bytes}

/-- The merkle root of an extended share is made of the coinbase and the path of its job. -/
theorem root_of_judgeExtended
    (h : judgeExtended host channelId channel tuple extranonce = .accepted share sum) :
    ∃ job, channel.extendedJobs tuple.jobId = some job ∧ share.workProtocol = job.workProtocol ∧
      shareHeader job.prevHash job.nBits (merkleRootOfPath host
        (host.hash256 (job.coinbaseTxBytes channel.extranoncePrefix extranonce)) job.merklePath)
        tuple = some share.header := by
  unfold judgeExtended at h
  split at h
  · cases h
  · rename_i job hjob
    split at h
    · cases h
    · split at h
      · cases h
      · obtain ⟨header, hheader, rfl⟩ := judgeHeader_eq_accepted h
        exact ⟨job, hjob, rfl, hheader⟩

theorem workProtocol_of_judgeStandard {jobs : StratumV1JobsService}
    (h : judgeStandard host jobs channelId channel tuple = .accepted share sum) :
    share.workProtocol = .pool := by
  unfold judgeStandard at h
  split at h
  · split at h
    · cases h
    · obtain ⟨header, -, rfl⟩ := judgeHeader_eq_accepted h
      rfl
  · cases h

/-- The merkle root is the third field of a header. -/
theorem merkleRoot_bytes (fields : HeaderFields) :
    (fields.bytes.drop 36).take 32 = fields.merkleRoot.bytes := by
  simp only [HeaderFields.bytes, List.append_assoc]
  rw [show (36 : ℕ) = 4 + 32 from rfl, ← List.drop_drop, List.drop_left' (length_le32 _),
    List.drop_left' fields.prevHash.length_eq, List.take_left' fields.merkleRoot.length_eq]

/-- The merkle path of a declared job leads to the root over its transactions. -/
theorem root_of_merklePath {path : List Bytes} (h : declared.merklePath host = some path) :
    ∃ transactionList transactions, declared.transactionList host = some transactionList ∧
      transactionList.mapM host.fromBuffer = some transactions ∧
      ∀ leaf, MerkleTree.root (merkleNode host) (leaf :: txids host transactions)
        = some (merkleRootOfPath host leaf path) := by
  obtain ⟨transactionList, hlist, hpath⟩ := Option.bind_eq_some_iff.mp h
  have hdecoded : ∃ transactions, transactionList.mapM host.fromBuffer = some transactions := by
    rw [buildCoinbaseMerklePath, Option.bind_eq_bind, Option.bind_eq_some_iff] at hpath
    obtain ⟨transactions, hdecoded, -⟩ := hpath
    exact ⟨transactions, hdecoded⟩
  obtain ⟨transactions, hdecoded⟩ := hdecoded
  refine ⟨transactionList, transactions, hlist, hdecoded, fun leaf => ?_⟩
  rw [buildCoinbaseMerklePath_eq host hdecoded, merklePathFrom_placeholder host _ leaf] at hpath
  rw [← Option.some.inj hpath]
  exact root_eq_merkleRootOfPath host leaf _

/-- A share that is accepted on a job that restates a declared one commits to it. -/
theorem commitsTo_of_judgeExtended {job : ExtendedJobData}
    (hrestated : declared.RestatedBy host job.merklePath (job.coinbasePrefix, job.coinbaseSuffix))
    (hheader : shareHeader job.prevHash job.nBits (merkleRootOfPath host
      (host.hash256 (job.coinbaseTxBytes channel.extranoncePrefix extranonce)) job.merklePath)
      tuple = some share.header) : CommitsTo host declared share := by
  obtain ⟨transactionList, transactions, hlist, hdecoded, hroot⟩ :=
    root_of_merklePath hrestated.merklePath
  refine ⟨transactionList, transactions, channel.extranoncePrefix ++ extranonce, _, hlist, hdecoded,
    hroot _, ?_⟩
  rw [← buildHeader_eq_some hheader, merkleRoot_bytes, hrestated.coinbaseTxPrefix,
    hrestated.coinbaseTxSuffix]
  simp only [headerFieldsOf, ExtendedJobData.coinbaseTxBytes, List.append_assoc]

end

/-! ### One turn -/

/-- What a turn is for custom jobs: nothing, the frame of one that was found under its token, or the
handler that installs one. -/
inductive CustomCase (host : Externals) (config : Sv2Config) (context : Context) (input : Sv2Input)
    (handled : Handled) : Turn → Prop
  | other {turn : Turn} (hother : Handled.carried? Wait.custom? handled = none)
      (hnone : NoCustom turn) : CustomCase host config context input handled turn
  | found {message : Sv2SetCustomMiningJob} {id k : ℕ} {env : TurnEnv}
      (hinput : input = .resume id k env) (hhandled : handled = .frame (.setCustomMiningJob message))
      (hfound : env.declaredJob.isSome = true) :
      CustomCase host config context input handled
        { context, next := .waits (.customTemplate message) }
  | installs {message : Sv2SetCustomMiningJob} {turn : Turn}
      (hhandled : handled = .wait (.customTemplate message))
      (hinstalls : InstallCase host config context message turn) :
      CustomCase host config context input handled turn

/-- The custom jobs of a channel are declared jobs. -/
def DeclaredJobs (host : Externals) (declared : List Sv2DeclaredMiningJob)
    (channel : ChannelState) : Prop :=
  ∀ jobId job, channel.extendedJobs jobId = some job → job.workProtocol = .sv2Jdp →
    ∃ restated ∈ declared,
      restated.RestatedBy host job.merklePath (job.coinbasePrefix, job.coinbaseSuffix)

/-- A share on a custom job commits to a declared job. -/
def DeclaredShare (host : Externals) (declared : List Sv2DeclaredMiningJob)
    (share : AcceptedShare) : Prop :=
  share.workProtocol = .sv2Jdp → ∃ restated ∈ declared, CommitsTo host restated share

/-- A custom job that passes the check of its payouts restates a declared job with its token, which
is one of the user of the connection. -/
def RestatesOne (host : Externals) (config : Sv2Config) (context : Context)
    (declared : List Sv2DeclaredMiningJob) (message : Sv2SetCustomMiningJob) : Prop :=
  ∀ jobTemplate ∈ context.jobs.latestTemplate,
    ∀ channel ∈ context.client.channels.get? message.channelId.toNat,
      ∀ address ∈ context.client.address,
        ValidatesCustomJob host config context message jobTemplate channel address →
          ∃ restated ∈ declared, restated.token = message.token ∧
            identityOf context.client
              = (some restated.identity.address, restated.identity.workerName) ∧
            restated.RestatedBy host message.merklePath (coinbaseParts channel message)

section
variable {host : Externals} {config : Sv2Config} {context : Context} {input : Sv2Input}
  {handled : Handled} {turn : Turn} {declared : List Sv2DeclaredMiningJob}

theorem RunsTurn.customCase (h : RunsTurn host config context input handled turn) :
    CustomCase host config context input handled turn := by
  cases h with
  | checks id suggested => exact .other rfl (noCustom_checkDifficulty suggested)
  | resumes id k env =>
    by_cases hframe : ∃ message, handled = .frame (.setCustomMiningJob message)
    · obtain ⟨message, rfl⟩ := hframe
      have hcases := @handleSetCustomMiningJob_cases context message env.declaredJob
      show CustomCase host config context _ _ (context.handleSetCustomMiningJob message _)
      rcases hcases with hnone | ⟨hfound, hturn⟩
      · exact .other rfl hnone
      · rw [hturn]
        exact .found rfl rfl hfound
    · cases hcustom : Handled.carried? Wait.custom? handled with
      | none =>
        exact .other hcustom
          (noCustom_turn env (fun message heq => hframe ⟨message, heq⟩) hcustom)
      | some message =>
        cases handled with
        | frame => cases hcustom
        | wait wait =>
          cases wait with
          | customTemplate message => exact .installs rfl (installCase_turn env)
          | _ => cases hcustom

variable {channel : ChannelState} {message : Sv2SetCustomMiningJob}

theorem DeclaredJobs.forgets {channel' : ChannelState} (h : DeclaredJobs host declared channel)
    (hforgets : Forgets channel channel') : DeclaredJobs host declared channel' := by
  intro jobId job' hjob' hprotocol
  obtain ⟨job, retiredAt, hjob, rfl, -⟩ := hforgets.extendedJobs jobId job' hjob'
  exact h jobId job hjob hprotocol

theorem DeclaredJobs.setExtendedJob (h : DeclaredJobs host declared channel) {jobId : ℕ}
    {data : ExtendedJobData} (hdata : data.workProtocol = .sv2Jdp → ∃ restated ∈ declared,
      restated.RestatedBy host data.merklePath (data.coinbasePrefix, data.coinbaseSuffix)) :
    DeclaredJobs host declared (channel.setExtendedJob jobId data) := by
  intro id job hjob hprotocol
  simp only [ChannelState.setExtendedJob] at hjob
  split at hjob
  · cases hjob
    exact hdata hprotocol
  · exact h id job hjob hprotocol

/-- A turn gives channels no other custom jobs. -/
theorem declaredJobs_turn {env : TurnEnv} (hturn : TurnCase host config env context handled turn)
    (hcase : CustomCase host config context input handled turn)
    (h : EveryChannel (DeclaredJobs host declared) context.client)
    (hrestates : ∀ message, handled = .wait (.customTemplate message) → turn.next ≠ .throws →
      RestatesOne host config context declared message) :
    EveryChannel (DeclaredJobs host declared) turn.context.client := by
  cases hcase with
  | found => exact h
  | other hother =>
    refine channels_turn hturn h (fun _ _ hP hforgets => hP.forgets hforgets) ?_ ?_
    · intro channel hnew jobId job hjob
      rw [hnew.extendedJobs] at hjob
      cases hjob
    · intro channel channel' hP _ hgives
      generalize turn.context.jobs = jobs' at hgives
      cases hgives with
      | standard => exact hP
      | extended => exact hP.setExtendedJob fun hprotocol => by cases hprotocol
      | custom hhandled =>
        rw [hhandled] at hother
        cases hother
  | @installs message _ hhandled hinstalls =>
    have hrestates := hrestates message hhandled
    cases hinstalls with
    | waits => exact h
    | refused hsame =>
      rw [hsame]
      exact h
    | @installs channel address jobTemplate job hlatest hfound haddress hvalid =>
      refine h.modify (fun _ hP => hP) fun channel' hchannel' => ?_
      cases hfound.symm.trans hchannel'
      obtain ⟨restated, hmem, -, -, hrestated⟩ := hrestates Next.noConfusion jobTemplate hlatest
        channel hfound address haddress hvalid
      exact (h _ channel hfound).setExtendedJob fun _ => ⟨restated, hmem, hrestated⟩

/-- A share that is accepted on such a channel commits to a declared job. -/
theorem declaredShare_of_acceptsTuple {jobs : StratumV1JobsService} {channelId : ℕ}
    {tuple : ShareTuple} {share : AcceptedShare} (h : DeclaredJobs host declared channel)
    (haccepts : AcceptsTuple host jobs channelId channel tuple share) :
    DeclaredShare host declared share := by
  intro hprotocol
  obtain ⟨sum, hstandard | ⟨extranonce, -, hextended⟩⟩ := haccepts.cases
  · rw [workProtocol_of_judgeStandard hstandard] at hprotocol
    cases hprotocol
  · obtain ⟨job, hjob, hsame, hheader⟩ := root_of_judgeExtended hextended
    obtain ⟨restated, hmem, hrestated⟩ := h _ job hjob (hsame ▸ hprotocol)
    exact ⟨restated, hmem, commitsTo_of_judgeExtended hrestated hheader⟩

/-- A custom job that waits for its template after a turn waited before, or was just found. -/
theorem CustomCase.carried?_next (h : CustomCase host config context input handled turn)
    (hnext : Next.carried? Wait.custom? turn.next = some message) :
    Handled.carried? Wait.custom? handled = some message ∨
      ∃ id k env, input = .resume id k env ∧ handled = .frame (.setCustomMiningJob message) ∧
        env.declaredJob.isSome = true := by
  cases h with
  | other _ hnone => cases hnone.next.symm.trans hnext
  | found hinput hhandled hfound =>
    cases hnext
    exact Or.inr ⟨_, _, _, hinput, hhandled, hfound⟩
  | installs hhandled hinstalls =>
    cases hinstalls with
    | waits =>
      cases hnext
      exact Or.inl (by rw [hhandled]; rfl)
    | refused _ hnone => cases hnone.next.symm.trans hnext
    | installs => cases hnext

variable {event : Sv2Event} {accepted : ℕ × ℕ}

/-- A turn that throws accepts no custom job. -/
theorem InstallCase.next_ne_throws (h : InstallCase host config context message turn)
    (hevent : event ∈ turn.events) (haccepted : event.accepted? = some accepted) :
    turn.next ≠ .throws := by
  cases h with
  | waits => cases hevent
  | refused _ hnone =>
    rw [hnone.events event hevent] at haccepted
    cases haccepted
  | installs => exact Next.noConfusion

/-- The job that is accepted is on its channel after the turn. -/
theorem extendedJob?_accepted {world : Sv2World} {id : ℕ} {origin : Origin}
    (hinstalls : InstallCase host config context message turn)
    (hrestates : RestatesOne host config context declared message) (hevent : event ∈ turn.events)
    (haccepted : event.accepted? = some accepted) :
    ∃ restated ∈ declared, restated.token = message.token ∧
      identityOf context.client = (some restated.identity.address, restated.identity.workerName) ∧
      ∃ job, extendedJob? (world.update id (endTurn origin turn).1) id accepted.1 accepted.2
          = some job ∧
        restated.RestatedBy host job.merklePath (job.coinbasePrefix, job.coinbaseSuffix) := by
  cases hinstalls with
  | waits => cases hevent
  | refused hsame hnone =>
    rw [hnone.events event hevent] at haccepted
    cases haccepted
  | @installs channel address jobTemplate job hlatest hfound haddress hvalid =>
    obtain ⟨restated, hmem, htoken, hidentity, hrestated⟩ := hrestates jobTemplate hlatest
      channel hfound address haddress hvalid
    have haccepted' : accepted = (message.channelId.toNat, context.nextJobId) := by
      simp only [send] at hevent
      split at hevent
      · cases hevent
      · rw [List.mem_singleton.mp hevent] at haccepted
        exact (Option.some.inj haccepted).symm
    rw [haccepted']
    refine ⟨restated, hmem, htoken, hidentity,
      customJob message (coinbaseParts channel message) jobTemplate job, ?_, hrestated⟩
    simp only [extendedJob?, clients_update_self, Option.bind_some, endTurn, closesOn,
      Bool.false_eq_true, if_false, StratumV2Client.modifyChannel, OrdMap.get?_modify, hfound,
      Option.map_some, if_true, ChannelState.setExtendedJob]

end

/-! ### One connection -/

/-- A connection and the jobs that were declared so far. -/
structure CustomInv (host : Externals) (declared : List Sv2DeclaredMiningJob)
    (client : StratumV2Client) : Prop where
  waits : ∀ message ∈ carried Wait.custom? client, ∃ found ∈ declared, found.token = message.token
  channels : EveryChannel (DeclaredJobs host declared) client
  shares : EveryShare (DeclaredShare host declared) client

section
variable {host : Externals} {config : Sv2Config} {world : Sv2World}
  {registry : Sv2JobDeclarationRegistry} {declared declared' : List Sv2DeclaredMiningJob}

theorem customInv_initial (sessionId : String) (payoutMode : PayoutMode) :
    CustomInv host declared (.initial config sessionId payoutMode) where
  waits := List.forall_mem_nil _
  channels id channel hchannel := by cases hchannel
  shares := List.forall_mem_nil _

variable {client : StratumV2Client} {input : Sv2Input} {id : ℕ} {message : Sv2SetCustomMiningJob}

/-- More jobs are declared. -/
theorem CustomInv.mono (h : CustomInv host declared client) (hmono : declared ⊆ declared') :
    CustomInv host declared' client where
  waits message hmessage := by
    obtain ⟨found, hmem, htoken⟩ := h.waits message hmessage
    exact ⟨found, hmono hmem, htoken⟩
  channels id channel hchannel jobId job hjob hprotocol := by
    obtain ⟨restated, hmem, hrestated⟩ := h.channels id channel hchannel jobId job hjob hprotocol
    exact ⟨restated, hmono hmem, hrestated⟩
  shares share hshare hprotocol := by
    obtain ⟨restated, hmem, hcommits⟩ := h.shares share hshare hprotocol
    exact ⟨restated, hmono hmem, hcommits⟩

/-- The registry's answer to the frame of a custom job. -/
theorem declaredJob_withRegistry {id' k : ℕ} {env : TurnEnv} {taken : StratumV2Client}
    {origin : Origin} (hinput : world.withRegistry registry input = .resume id' k env)
    (htakes : Takes world (.resume id' k env) id client taken
      (.frame (.setCustomMiningJob message)) origin) :
    env.declaredJob = registry.getDeclaredJob message.token env.now := by
  cases input with
  | resume id'' k' env' =>
    generalize hhandled : Handled.frame (.setCustomMiningJob message) = handled at htakes
    cases htakes with
    | @task _ _ _ _ task hclient htask =>
      cases hinput
      simp only [hclient, htask, Option.bind_some, Task.customFrame?, ← hhandled]
  | _ => cases hinput

/-- The registry does not decide which handler goes on. -/
theorem customJob?_withRegistry {handled : Handled}
    (htaken : handledBy? world id (world.withRegistry registry input) = some (client, handled))
    (hcustom : Handled.carried? Wait.custom? handled = some message) :
    customJob? world input = some (id, client, message) := by
  cases input with
  | resume id' k env =>
    have hsame : handledBy? world id (.resume id' k env) = some (client, handled) := htaken
    have hid : id' = id := by
      by_contra hne
      rw [handledBy?, if_neg hne] at hsame
      cases hsame
    rw [hid] at hsame ⊢
    rw [customJob?, hsame, Option.bind_some, hcustom, Option.map_some]
  | _ => cases htaken

/-- The custom job that an input lets go on was waiting. -/
theorem mem_carried_of_customJob? (h : customJob? world input = some (id, client, message)) :
    message ∈ carried Wait.custom? client := by
  cases input with
  | resume id' k env =>
    rw [customJob?, Option.bind_eq_some_iff] at h
    obtain ⟨taken, htaken, hcustom⟩ := h
    obtain ⟨message', hcustom, heq⟩ := Option.map_eq_some_iff.mp hcustom
    cases heq
    rw [handledBy?, if_pos rfl, Option.bind_eq_some_iff] at htaken
    obtain ⟨client, -, htaken⟩ := htaken
    obtain ⟨task, htask, rfl⟩ := Option.map_eq_some_iff.mp htaken
    have hmem := List.mem_of_getElem? (Option.filter_eq_some_iff.mp htask).1
    rw [Task.handled_carried? rfl] at hcustom
    exact List.mem_filterMap.mpr ⟨task, hmem, hcustom⟩
  | _ => cases h

/-- What a step does for one connection, if the custom job that it installs restates a declared
one. -/
theorem customInv_step (hregistry : ∀ token now job, registry.getDeclaredJob token now = some job →
      job.token = token ∧ job ∈ declared)
    (h : ∀ id client, world.clients id = some client → CustomInv host declared client)
    (hrestates : ∀ id client message, customJob? world input = some (id, client, message) →
      CustomInv host declared client →
        RestatesOne host config (world.context client) declared message) (id : ℕ) :
    let step := sv2Step host config world (world.withRegistry registry input)
    (∀ client, step.1.clients id = some client → CustomInv host declared client) ∧
      (∀ record share, .client id (.shareRecorded record share) ∈ step.2 →
        DeclaredShare host declared share) ∧
      ∀ event, .client id event ∈ step.2 → ∀ accepted ∈ event.accepted?,
        ∃ client message, customJob? world input = some (id, client, message) ∧
          ∃ restated ∈ declared, restated.token = message.token ∧
            identityOf client
              = (some restated.identity.address, restated.identity.workerName) ∧
            ∃ job, extendedJob? step.1 id accepted.1 accepted.2 = some job ∧
              restated.RestatedBy host job.merklePath (job.coinbasePrefix, job.coinbaseSuffix) := by
  intro step
  have hclient := sv2Step_client host config world (world.withRegistry registry input) id
  cases hclient with
  | absent hbefore hafter hevents =>
    refine ⟨fun client hclient => ?_, fun record share hevent => absurd hevent (hevents _),
      fun event hevent => absurd hevent (hevents event)⟩
    cases hafter.symm.trans hclient
  | connects hbefore hafter hevents =>
    refine ⟨fun client hclient => ?_, fun record share hevent => absurd hevent (hevents _),
      fun event hevent => absurd hevent (hevents event)⟩
    cases hafter.symm.trans hclient
    exact customInv_initial ..
  | @moves client client' hbefore hafter hmoved hevents =>
    refine ⟨fun client'' hclient => ?_, fun record share hevent => absurd hevent (hevents _),
      fun event hevent => absurd hevent (hevents event)⟩
    cases hafter.symm.trans hclient
    have hmoves := hmoved.moves
    have hinv := h id client hbefore
    refine ⟨fun message hmessage => hinv.waits message ?_,
      hinv.channels.via hmoves.forgets fun _ _ hP hforgets => hP.forgets hforgets,
      fun share hshare => hinv.shares share ?_⟩
    · rwa [hmoves.carries _ _ rfl fun _ => rfl] at hmessage
    · rwa [hmoves.carries _ _ rfl fun _ => rfl] at hshare
  | @turns client taken handled origin env turn htakes hruns hturn hgoes hworld hevents =>
    obtain ⟨hcustom, hchannels, hshares⟩ := h id client htakes.client_eq
    have hcase := hruns.customCase
    have htaken : EveryChannel (DeclaredJobs host declared) taken := by
      rw [htakes.taken_eq]
      exact hchannels
    -- the handler that installs a job is the one that the input lets go on
    have hinstalled (message : Sv2SetCustomMiningJob)
        (hhandled : handled = .wait (.customTemplate message)) (hnext : turn.next ≠ .throws) :
        customJob? world input = some (id, client, message) ∧
          RestatesOne host config (world.context taken) declared message := by
      rw [htakes.taken_eq]
      rcases hgoes with htaken | ⟨wait, hwait, rfl | hthrows⟩
      · have hjob := customJob?_withRegistry htaken (by rw [hhandled]; rfl)
        exact ⟨hjob, hrestates id client message hjob ⟨hcustom, hchannels, hshares⟩⟩
      · cases hhandled.symm.trans hwait
      · exact absurd hthrows hnext
    have hleaves := shares_turn (R := DeclaredShare host declared) hturn
      (fun share hshare => hshares share (htakes.mem_carried rfl rfl (Or.inl hshare)))
      fun channelId channel tuple share _ hfresh =>
        declaredShare_of_acceptsTuple (htaken channelId channel hfresh.found)
    refine ⟨fun client' hclient' => ?_, ?_, ?_⟩
    · rw [show step.1 = _ from hworld] at hclient'
      cases (clients_update_self id _).symm.trans hclient'
      refine ⟨fun message hmessage => ?_, ?_, fun share hshare => ?_⟩
      · rcases mem_carried_endTurn hturn origin rfl (fun _ => rfl) hmessage with hold | hnew
        · exact hcustom message (htakes.mem_carried rfl rfl (Or.inr hold))
        · rcases hcase.carried?_next hnew with hwaited | ⟨id', k, env', hinput, rfl, hfound⟩
          · exact hcustom message (htakes.mem_carried rfl rfl (Or.inl hwaited))
          · -- the registry has it under the token of the message
            obtain ⟨found, hsome⟩ := Option.isSome_iff_exists.mp hfound
            rw [hinput] at htakes
            rw [declaredJob_withRegistry hinput htakes] at hsome
            obtain ⟨htoken, hmem⟩ := hregistry _ _ _ hsome
            exact ⟨found, hmem, htoken⟩
      · have hturned := declaredJobs_turn hturn hcase htaken fun message hhandled hnext =>
          (hinstalled message hhandled hnext).2
        exact hturned.via (quiet_endTurn origin turn).2.2.forgets
          fun _ _ hP hforgets => hP.forgets hforgets
      · rcases mem_carried_endTurn hturn origin rfl (fun _ => rfl) hshare with hold | hnew
        · exact hshares share (htakes.mem_carried rfl rfl (Or.inr hold))
        · exact hleaves.1 share hnew
    · intro record share hevent
      rw [show step.2 = _ from hevents] at hevent
      obtain ⟨event, hmem, heq⟩ := List.mem_map.mp hevent
      cases heq
      exact hleaves.2 record share hmem
    · intro event hevent accepted haccepted
      rw [show step.2 = _ from hevents] at hevent
      obtain ⟨event', hmem, heq⟩ := List.mem_map.mp hevent
      cases heq
      rw [show step.1 = _ from hworld]
      cases hcase with
      | other _ hnone => cases (hnone.events event hmem).symm.trans haccepted
      | found => cases hmem
      | @installs message _ hhandled hinstalls =>
        obtain ⟨hjob, hone⟩ :=
          hinstalled message hhandled (hinstalls.next_ne_throws hmem haccepted)
        obtain ⟨restated, hrestated, htoken, hidentity, hinstalled⟩ :=
          extendedJob?_accepted hinstalls hone hmem haccepted
        rw [htakes.taken_eq] at hidentity
        exact ⟨client, message, hjob, restated, hrestated, htoken, hidentity, hinstalled⟩

end

/-! ### Runs of the two servers -/

/-- The two servers and what was declared so far. -/
structure WorkInv (host : Externals) (world : WorkSelectionWorld)
    (history : List WorkSelectionOutput) : Prop where
  declarations : DeclarationsInv host world.declarations (declaredIn history)
  clients : ∀ id client, world.mining.clients id = some client →
    CustomInv host (declaredIn history) client

section
variable {host : Externals} {jdpConfig : JdpConfig} {config : Sv2Config} {world : WorkSelectionWorld}
  {history : List WorkSelectionOutput}

theorem declaredIn_declaration (input : JdpInput) :
    declaredIn (history ++ (workSelectionStep host jdpConfig config world (.declaration input)).2)
      = declaredIn history ++ (jdpStep host jdpConfig world.declarations input).2.filterMap
          fun event => event.2.declared? := by
  rw [declaredIn, List.filterMap_append]
  exact congrArg (_ ++ ·) List.filterMap_map

/-- The mining server declares nothing. -/
theorem declaredIn_mining (input : Sv2Input) :
    declaredIn (history ++ (workSelectionStep host jdpConfig config world (.mining input)).2)
      = declaredIn history := by
  rw [declaredIn, List.filterMap_append]
  refine (congrArg (_ ++ ·) (List.filterMap_eq_nil_iff.mpr fun output houtput => ?_)).trans
    (List.append_nil _)
  obtain ⟨mined, -, rfl⟩ := List.mem_map.mp houtput
  rfl

theorem workInv_initial (tokenTtlMs retentionMs : ℕ) :
    WorkInv host (.initial tokenTtlMs retentionMs) [] where
  declarations := declarationsInv_initial tokenTtlMs retentionMs
  clients id client hclient := by cases hclient

/-- A custom job that waits for its template has a declared job under its token, and restates it
under the condition. -/
theorem WorkInv.restatesOne {input : Sv2Input}
    (hrestates : RestatesDeclared host config world history (.mining input)) {id : ℕ}
    {client : StratumV2Client} {message : Sv2SetCustomMiningJob}
    (hjob : customJob? world.mining input = some (id, client, message))
    (hclient : CustomInv host (declaredIn history) client) :
    RestatesOne host config (world.mining.context client) (declaredIn history) message := by
  intro jobTemplate hlatest channel hfound address haddress hvalid
  obtain ⟨found, hmem, htoken⟩ := hclient.waits message (mem_carried_of_customJob? hjob)
  obtain ⟨hrestated, hidentity⟩ := hrestates (id, client, message) hjob jobTemplate hlatest channel
    hfound address haddress hvalid found hmem htoken
  exact ⟨found, hmem, htoken, hidentity, hrestated⟩

/-- One step of the two servers. -/
theorem WorkInv.step (h : WorkInv host world history) (input : WorkSelectionInput)
    (hrestates : RestatesDeclared host config world history input) :
    (InstallsDeclared host jdpConfig config world history input ∧
        CreditsDeclared host jdpConfig config world history input) ∧
      WorkInv host (workSelectionStep host jdpConfig config world input).1
        (history ++ (workSelectionStep host jdpConfig config world input).2) := by
  cases input with
  | declaration input =>
    refine ⟨⟨trivial, fun id record share hevent => ?_⟩, ?_⟩
    · obtain ⟨event, -, heq⟩ := List.mem_map.mp hevent
      cases heq
    · constructor
      · rw [declaredIn_declaration]
        exact h.declarations.step input
      · intro id client hclient
        rw [declaredIn_declaration]
        exact (h.clients id client hclient).mono (List.subset_append_left _ _)
  | mining input =>
    have hregistry (token : Bytes) (now : ℕ) (job : Sv2DeclaredMiningJob)
        (hjob : world.declarations.registry.getDeclaredJob token now = some job) :
        job.token = token ∧ job ∈ declaredIn history := h.declarations.mem_cleanup hjob
    have hconnection := customInv_step hregistry h.clients
      fun id client message hjob hclient => WorkInv.restatesOne hrestates hjob hclient
    have hmined {output : Sv2Output} (houtput : .mining output
        ∈ (workSelectionStep host jdpConfig config world (.mining input)).2) :
        output ∈ (sv2Step host config world.mining
          (world.mining.withRegistry world.declarations.registry input)).2 := by
      obtain ⟨output', hmem, heq⟩ := List.mem_map.mp houtput
      cases heq
      exact hmem
    refine ⟨⟨fun id event hevent => (hconnection id).2.2 event (hmined hevent), ?_⟩, ?_⟩
    · intro id record share hevent hprotocol
      obtain ⟨restated, hmem, hcommits⟩ :=
        (hconnection id).2.1 record share (hmined hevent) hprotocol
      exact ⟨restated, hmem, h.declarations.validated restated hmem, hcommits⟩
    · constructor
      · rw [declaredIn_mining]
        exact h.declarations
      · intro id client hclient
        rw [declaredIn_mining]
        exact (hconnection id).1 client hclient

end

/-- Custom jobs and declared jobs. In every run of the two servers in which a custom job that is
installed restates the job that was declared under its token, for the user of that token, every
custom job that is accepted is the declared one, and every share that is credited on a custom job
commits to a declared and validated list of transactions. -/
theorem installs_declared (host : Externals) (jdpConfig : JdpConfig) (config : Sv2Config)
    (tokenTtlMs retentionMs : ℕ) (inputs : List WorkSelectionInput)
    (hrestates : (workSelectionMachine host jdpConfig config).Along
      (RestatesDeclared host config) (.initial tokenTtlMs retentionMs) [] inputs) :
    (workSelectionMachine host jdpConfig config).Along
      (fun world history input => InstallsDeclared host jdpConfig config world history input ∧
        CreditsDeclared host jdpConfig config world history input)
      (.initial tokenTtlMs retentionMs) [] inputs := by
  have hstep (world : WorkSelectionWorld) (history : List WorkSelectionOutput)
      (input : WorkSelectionInput) (h : WorkInv host world history)
      (hrestates : RestatesDeclared host config world history input) :
      (InstallsDeclared host jdpConfig config world history input ∧
          CreditsDeclared host jdpConfig config world history input) ∧
        WorkInv host ((workSelectionMachine host jdpConfig config).step world input).1
          (history ++ ((workSelectionMachine host jdpConfig config).step world input).2) :=
    h.step input hrestates
  exact Machine.along_of_invariant _ hstep (workInv_initial tokenTtlMs retentionMs) hrestates

/-! ### A custom job with another merkle path -/

instance (host : Externals) (config : Sv2Config) (world : WorkSelectionWorld)
    (history : List WorkSelectionOutput) (input : WorkSelectionInput) :
    Decidable (RestatesDeclared host config world history input) := by
  unfold RestatesDeclared
  cases input with
  | declaration => exact isTrue trivial
  | mining => infer_instance

namespace DeclaredWorkSample

open Sv2Sample (host config env turns selecting extendedSubmission template)

/-- A transaction that the pool does not know. -/
def transaction : Transaction := MerkleSample.transaction 1

/-- A custom job. Its coinbase pays the whole reward to `A`. -/
def message (merklePath : List Bytes) : Sv2SetCustomMiningJob where
  channelId := 1
  requestId := 1
  token := [4]
  version := 0x20000000
  prevHash := List.replicate 32 7
  minNtime := 1700000000
  nBits := 0x17034219
  coinbaseTxVersion := 2
  coinbasePrefix := 3 :: putLE 3 800000
  coinbaseTxInputNSequence := 0xffffffff
  coinbaseTxOutputs := 1 :: TxCodec.putOutput
    { value := 5000000000, script := 0x00 :: 0x14 :: List.replicate 20 1 }
  coinbaseTxLocktime := 0
  merklePath := merklePath

/-- The declared job has the coinbase of the custom job, and one transaction. -/
def job : Sv2DeclareMiningJob where
  requestId := 1
  miningJobToken := [1]
  version := 0x20000000
  coinbaseTxPrefix := (buildSv2CoinbaseSplit (message []) 14).1
  coinbaseTxSuffix := (buildSv2CoinbaseSplit (message []) 14).2
  wtxidList := [transaction.witnessHash host]

/-- The job is declared under token 4, after its transaction was asked for and tested by the node. -/
def declarations : List JdpInput :=
  [.template (template 7 true) 1700000000000, .connect 0 .solo,
    .data 0 [.setupConnection { protocol := 1, minVersion := 2, maxVersion := 2, flags := 1 },
      .allocateMiningJobToken { userIdentifier := "A.rig", requestId := 0 }, .declareMiningJob job,
      .provideMissingTransactionsSuccess
        { requestId := 1, transactionList := [host.toLegacyBuffer transaction] }]]
    ++ (List.range 5).map fun n =>
      .resume 0 0 { PushSample.env (UInt8.ofNat n) with now := 1700000000000 }

/-- A connection of the mining server is told to work on the job. -/
def mined (merklePath : List Bytes) : List Sv2Input :=
  selecting ++ [.data 0 [.setCustomMiningJob (message merklePath)]] ++ turns 1

def before (merklePath : List Bytes) : List WorkSelectionInput :=
  declarations.map .declaration ++ (mined merklePath).map .mining

/-- The handler of the custom job has the latest template. -/
def installing : WorkSelectionInput := .mining (.resume 0 0 env)

/-- A share on the custom job is judged, answered and recorded. -/
def shareOnJob : List Sv2Input := turns 1 ++ [.data 0 [extendedSubmission 1 1]] ++ turns 3

/-- The custom job is accepted as job 1 of channel 1. -/
def acceptsJob : WorkSelectionOutput → Bool
  | .mining (.client 0 event) => event.accepted? = some (1, 1)
  | _ => false

/-- A share on a custom job is credited. -/
def creditsJob : WorkSelectionOutput → Bool
  | .mining (.client 0 (.shareRecorded _ share)) => share.workProtocol = .sv2Jdp
  | _ => false

/-- A job that is accepted with the merkle path of no declared job. -/
theorem not_installsDeclared {host : Externals} {jdpConfig : JdpConfig} {config : Sv2Config}
    {world : WorkSelectionWorld} {history : List WorkSelectionOutput} {input : Sv2Input}
    (haccepts : (workSelectionStep host jdpConfig config world (.mining input)).2.any acceptsJob
      = true)
    (hother : ∀ declared ∈ declaredIn history,
      ∀ job ∈ extendedJob? (workSelectionStep host jdpConfig config world (.mining input)).1.mining
          0 1 1, declared.merklePath host ≠ some job.merklePath) :
    ¬ InstallsDeclared host jdpConfig config world history (.mining input) := by
  intro h
  obtain ⟨output, hmem, haccepts⟩ := List.any_eq_true.mp haccepts
  unfold acceptsJob at haccepts
  split at haccepts
  · obtain ⟨client, message, -, declared, hdeclared, -, -, job, hjob, hrestated⟩ :=
      h 0 _ hmem (1, 1) (of_decide_eq_true haccepts)
    exact hother declared hdeclared job hjob hrestated.merklePath
  · cases haccepts

/-- The whole run. -/
def run (merklePath : List Bytes) : List WorkSelectionInput :=
  before merklePath ++ installing :: shareOnJob.map .mining

end DeclaredWorkSample

open DeclaredWorkSample Sv2Sample in
/-- The custom job leaves out the declared transaction. It is accepted, and a share on it is
credited. -/
theorem not_installs_declared :
    ((workSelectionMachine host PushSample.config config).history (.initial 600000 600000)
        (run [])).any creditsJob = true ∧
      ¬ (workSelectionMachine host PushSample.config config).Along
        (fun world history input =>
          InstallsDeclared host PushSample.config config world history input ∧
            CreditsDeclared host PushSample.config config world history input)
        (.initial 600000 600000) [] (run []) := by
  refine ⟨by decide +kernel, fun h => ?_⟩
  obtain ⟨-, hinstalling, -⟩ := (Machine.along_append _).mp h
  exact not_installsDeclared (by decide +kernel) (by decide +kernel) hinstalling.1

open DeclaredWorkSample Sv2Sample in
/-- The custom job has the declared transaction. -/
theorem installs_declared_sample :
    ((workSelectionMachine host PushSample.config config).history (.initial 600000 600000)
        (run [(transaction.txHash host).bytes])).any creditsJob = true ∧
      (workSelectionMachine host PushSample.config config).Along
        (fun world history input =>
          InstallsDeclared host PushSample.config config world history input ∧
            CreditsDeclared host PushSample.config config world history input)
        (.initial 600000 600000) [] (run [(transaction.txHash host).bytes]) :=
  ⟨by decide +kernel,
    installs_declared host PushSample.config config 600000 600000 _ (by decide +kernel)⟩

end PublicPool.Proofs
