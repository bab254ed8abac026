import PublicPool.BlockReport
import PublicPool.Lib.Runs
import PublicPool.TemplateBlocks

/-!
# `PublicPool.Sv2.TemplateDistribution`: the template distribution server

The model of `services/sv2-template-distribution.service.ts`. A connection is sent the templates of
the pool, and remembers them. A solution brings a coinbase of the miner's: it is compared with the
template, a block is made of the two and handed to the node.

The handlers that answer a request change the connection before their first `await`, so each of
them is one step of `tdpMachine`. An error in one of them closes the connection.
-/

set_option autoImplicit false

namespace PublicPool.Sv2

open Lib (Machine)

/-- `Sv2TemplateDistributionConnection`. -/
structure TdpConnection where
  payoutMode : PayoutMode
  destroyed : Bool
  subscription : Bool
  submittedSolutions : List (List Char)
  servedTemplates : ℕ → Option TemplateProviderTemplate

/-- A new connection. -/
def TdpConnection.initial (payoutMode : PayoutMode) : TdpConnection where
  payoutMode := payoutMode
  destroyed := false
  subscription := false
  submittedSolutions := []
  servedTemplates _ := none

/-- The settings of the connections. -/
structure TdpConfig where
  network : Network
  /-- `getPoolPayoutAddress()`. -/
  poolPayoutAddress : String

/-- What `handleSubmitSolution` finds out before it submits a block. -/
inductive SolutionVerdict
  | templateNotFound
  | rejected (errorCode : String)
  | threw
  | duplicate
  | accepted (template : TemplateProviderTemplate) (block : SolvedBlock) (blockHex : Bytes)
      (solutionKey : List Char)

/-- The key under which a solution is remembered, given the header of its block. -/
def tdpSolutionKey (host : Externals) (templateId : ℕ) (header : Bytes) : List Char :=
  Js.join ':' [Js.toString10 templateId, Js.toHex (host.hash256 header).bytes.reverse]

/-- `templateId.toString(16).slice(-8).padStart(8, '0')`. -/
def tdpSessionId (templateId : ℕ) : String :=
  let digits := (Js.toString16 templateId).toList
  let last := digits.drop (digits.length - 8)
  String.ofList (List.replicate (8 - last.length) '0' ++ last)

namespace TdpConnection

variable (host : Externals) (config : TdpConfig) (templates : TemplateProviderService)
  (connection : TdpConnection)

/-- `getServedOrProviderTemplate`. -/
def getServedOrProviderTemplate (templateId now : ℕ) : Option TemplateProviderTemplate :=
  (connection.servedTemplates templateId).or (templates.getTemplate templateId now)

/-- A solution whose coinbase fits its template. -/
def judgeSolutionBlock (template : TemplateProviderTemplate) (solution : Sv2TdpSubmitSolution) :
    SolutionVerdict :=
  match buildBlockFromSolution host template solution with
  | none => .threw
  | some block =>
    match block.header host with
    | none => .threw
    | some header =>
      let solutionKey := tdpSolutionKey host solution.templateId.toNat header
      if solutionKey ∈ connection.submittedSolutions then .duplicate
      else .accepted template block (blockBytes host header block.transactions) solutionKey

/-- `handleSubmitSolution` up to the submission. -/
def judgeSubmitSolution (solution : Sv2TdpSubmitSolution) (now : ℕ) : SolutionVerdict :=
  match connection.getServedOrProviderTemplate templates solution.templateId.toNat now with
  | none => .templateNotFound
  | some template =>
    match validateCoinbaseTransactionHeight host solution.coinbaseTx template.height with
    | some errorCode => .rejected errorCode
    | none =>
      match validateCoinbaseTransactionPayoutOutputs host config.network solution.coinbaseTx
          (getPayoutInformation connection.payoutMode template.jobTemplate
            config.poolPayoutAddress) template.coinbaseValue with
      | none => .threw
      | some (some errorCode) => .rejected errorCode
      | some none => connection.judgeSolutionBlock host template solution

/-- What is reported of the block of a solution. -/
def tdpFoundBlock (template : TemplateProviderTemplate) (templateId : ℕ) (blockHex : Bytes) :
    FoundBlock where
  blockHex := blockHex
  height := template.height
  minerAddress := if config.poolPayoutAddress = "" then "sv2-tdp" else config.poolPayoutAddress
  worker := "tdp"
  sessionId := tdpSessionId templateId
  payoutMode := connection.payoutMode
  payoutSnapshotId := template.jobTemplate.blockData.payoutSnapshotId

/-- `handleSubmitSolution`, with the answer of the node. -/
def handleSubmitSolution (solution : Sv2TdpSubmitSolution) (now : ℕ) (result : Option String) :
    SubmitHandler Unit :=
  match connection.judgeSubmitSolution host config templates solution now with
  | .accepted template _ blockHex _ =>
    reportBlock (connection.tdpFoundBlock config template solution.templateId.toNat blockHex) result
  | _ => pure ()

/-- The connection after a solution: it remembers one that it submits, and is closed by an
error. -/
def afterSolution (fails : SideEffect → Bool) (handler : SubmitHandler Unit) :
    SolutionVerdict → TdpConnection
  | .accepted _ _ _ solutionKey =>
    { connection with
      submittedSolutions := connection.submittedSolutions ++ [solutionKey]
      destroyed := connection.destroyed || (handler.value fails).isNone }
  | .threw => { connection with destroyed := true }
  | _ => connection

/-- A template is sent to the connection, which remembers it. -/
def serveTemplate (templateId : ℕ) (template : TemplateProviderTemplate) : TdpConnection :=
  { connection with
    servedTemplates := fun id =>
      if id = templateId then some template else connection.servedTemplates id }

end TdpConnection

/-! ### The server -/

structure TdpWorld where
  templates : TemplateProviderService
  /-- What `newMiningJob$` has emitted last. -/
  latestTemplate : Option JobTemplate
  connections : ℕ → Option TdpConnection

/-- The server at its start. -/
def TdpWorld.initial (retentionMs : ℕ) : TdpWorld where
  templates := .initial retentionMs
  latestTemplate := none
  connections _ := none

/-- What happens: a connection opens or closes, a template comes, or a frame is handled. The frames
that change nothing are left out. -/
inductive TdpInput
  | connect (id : ℕ) (payoutMode : PayoutMode)
  | disconnect (id : ℕ)
  | template (jobTemplate : JobTemplate) (now : ℕ)
  | coinbaseOutputConstraints (id now : ℕ)
  | requestTransactionData (id templateId now : ℕ)
  | submitSolution (id : ℕ) (solution : Sv2TdpSubmitSolution) (now : ℕ) (result : Option String)
      (fails : SideEffect → Bool)

/-- What a connection sends and calls. A call comes with the solution and the template of the
block. -/
inductive TdpEvent
  | newTemplate (templateId : ℕ)
  | requestTransactionDataSuccess (templateId : ℕ) (transactionList : List Bytes)
  | requestTransactionDataError (templateId : ℕ) (errorCode : String)
  | submitted (solution : Sv2TdpSubmitSolution) (template : TemplateProviderTemplate)
      (call : SubmitCall)

namespace TdpWorld

variable (host : Externals) (config : TdpConfig) (world : TdpWorld)

def setConnection (id : ℕ) (connection : TdpConnection) : TdpWorld :=
  { world with
    connections := fun id' => if id' = id then some connection else world.connections id' }

/-- What `upsert` gives back of a job template, which throws on transactions that do not decode. -/
def cachedTemplate (jobTemplate : JobTemplate) : Option (ℕ × TemplateProviderTemplate) :=
  let templateId := Js.readHex jobTemplate.blockData.id.toList
  (buildTransactions host jobTemplate.blockData.transactions).map fun _ =>
    (templateId, .ofJobTemplate templateId jobTemplate)

/-- `sendTemplate` on every subscribed connection. -/
def publish (jobTemplate : JobTemplate) (now : ℕ) : TdpWorld where
  templates := world.templates.upsert host jobTemplate now
  latestTemplate := some jobTemplate
  connections id := (world.connections id).map fun connection =>
    match cachedTemplate host jobTemplate with
    | some (templateId, template) =>
      if connection.subscription then connection.serveTemplate templateId template
      else connection
    | none => connection

/-- `subscribeTemplates`: the latest template comes at once. -/
def subscribe (id : ℕ) (connection : TdpConnection) (now : ℕ) : TdpWorld × List TdpEvent :=
  if connection.subscription then (world, [])
  else
    let connection := { connection with subscription := true }
    match world.latestTemplate with
    | none => (world.setConnection id connection, [])
    | some jobTemplate =>
      let world := { world with templates := world.templates.upsert host jobTemplate now }
      match cachedTemplate host jobTemplate with
      | none => (world.setConnection id connection, [])
      | some (templateId, template) =>
        (world.setConnection id (connection.serveTemplate templateId template),
          [.newTemplate templateId])

/-- `handleRequestTransactionData`. -/
def requestTransactionData (id : ℕ) (connection : TdpConnection) (templateId now : ℕ) :
    TdpWorld × List TdpEvent :=
  match connection.getServedOrProviderTemplate world.templates templateId now with
  | none => (world, [.requestTransactionDataError templateId "template-not-found"])
  | some template =>
    (world.setConnection id (connection.serveTemplate templateId template),
      [.requestTransactionDataSuccess templateId
        ((template.transactions host).map (·.data))])

/-- `handleSubmitSolution`. -/
def submitSolution (id : ℕ) (connection : TdpConnection) (solution : Sv2TdpSubmitSolution)
    (now : ℕ) (result : Option String) (fails : SideEffect → Bool) :
    TdpWorld × List TdpEvent :=
  let verdict := connection.judgeSubmitSolution host config world.templates solution now
  let handler := connection.handleSubmitSolution host config world.templates solution now result
  let events : List TdpEvent := match verdict with
    | .templateNotFound =>
      [.requestTransactionDataError solution.templateId.toNat "template-not-found"]
    | .accepted template .. => (handler.calls fails).map (.submitted solution template)
    | _ => []
  (world.setConnection id (connection.afterSolution fails handler verdict), events)

end TdpWorld

/-- One step of the server. A connection keeps its number for good. -/
def tdpStep (host : Externals) (config : TdpConfig) (world : TdpWorld) :
    TdpInput → TdpWorld × List (ℕ × TdpEvent)
  | .connect id payoutMode =>
    match world.connections id with
    | none => (world.setConnection id (.initial payoutMode), [])
    | some _ => (world, [])
  | .disconnect id =>
    match world.connections id with
    | none => (world, [])
    | some connection =>
      (world.setConnection id { connection with destroyed := true, subscription := false }, [])
  | .template jobTemplate now => (world.publish host jobTemplate now, [])
  | .coinbaseOutputConstraints id now =>
    match world.connections id with
    | none => (world, [])
    | some connection =>
      let (world, events) := world.subscribe host id connection now
      (world, events.map (id, ·))
  | .requestTransactionData id templateId now =>
    match world.connections id with
    | none => (world, [])
    | some connection =>
      let (world, events) := world.requestTransactionData host id connection templateId now
      (world, events.map (id, ·))
  | .submitSolution id solution now result fails =>
    match world.connections id with
    | none => (world, [])
    | some connection =>
      let (world, events) :=
        world.submitSolution host config id connection solution now result fails
      (world, events.map (id, ·))

/-- The template connections as a state machine. -/
def tdpMachine (host : Externals) (config : TdpConfig) :
    Machine TdpWorld TdpInput (ℕ × TdpEvent) :=
  ⟨tdpStep host config⟩

end PublicPool.Sv2
