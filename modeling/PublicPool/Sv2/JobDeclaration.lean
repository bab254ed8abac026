import PublicPool.BlockReport
import PublicPool.Lib.Runs
import PublicPool.Sv2.Registry
import PublicPool.TemplateBlocks

/-!
# `PublicPool.Sv2.JobDeclaration`: the job declaration server

The model of `services/sv2-job-declaration.service.ts`. A declarator allocates a token, declares
jobs of its own under it, provides the transactions the pool does not know, and pushes the
solutions it finds. A solution names no job: the connection takes it for one of the job that was
declared last.

The frames of a chunk are handled one after the other, those of different chunks in any order. A
handler changes the connection before its first `await`, with one exception: the provided
transactions are tested by the node, and the job is declared when the answer comes. The chunk waits
for it, as `chunks` says. A chunk whose handler fails to write a frame is one that is not taken up
again. The connections share the registry and the template provider, and a run of `jdpMachine` is
an interleaving of what happens to them.
-/

set_option autoImplicit false

namespace PublicPool.Sv2

open Lib (Machine)

/-- An entry of `pendingDeclarations`. -/
structure PendingDeclaration where
  job : Sv2DeclareMiningJob
  template : TemplateProviderTemplate
  unknownTxPositionList : List ℕ

/-- A call of `handleProvideMissingTransactionsSuccess` that waits for the node, with the error it
has found before. -/
structure MempoolTest where
  requestId : UInt32
  pending : PendingDeclaration
  transactionList : List Bytes
  checked : Option String

/-- A frame of a declaration connection. -/
inductive JdpMessage
  | setupConnection (message : Sv2SetupConnection)
  | allocateMiningJobToken (message : Sv2AllocateMiningJobToken)
  | declareMiningJob (message : Sv2DeclareMiningJob)
  | provideMissingTransactionsSuccess (message : Sv2ProvideMissingTransactionsSuccess)
  | pushSolution (solution : Sv2PushSolution)
  /-- A frame whose payload does not decode. -/
  | malformed

/-- A chunk with the frames that are left of it, and the call it waits for. -/
structure JdpChunk where
  test : Option MempoolTest
  frames : List JdpMessage

/-- `Sv2JobDeclarationConnection`. -/
structure JdpConnection where
  payoutMode : PayoutMode
  destroyed : Bool
  declareTxData : Bool
  latestDeclaredJob : Option Sv2DeclaredMiningJob
  submittedSolutions : List (List Char)
  pendingDeclarations : UInt32 → Option PendingDeclaration
  chunks : List JdpChunk

/-- The settings of the connections. -/
structure JdpConfig where
  network : Network
  /-- `getPoolPayoutAddress()`. -/
  poolPayoutAddress : String

/-- What a connection sends and calls. A push comes with the job it was taken for. -/
inductive JdpEvent
  | setupConnectionSuccess
  | setupConnectionError (errorCode : String)
  | allocateMiningJobTokenSuccess (requestId : UInt32) (token coinbaseOutputs : Bytes)
  | declareMiningJobSuccess (requestId : UInt32) (declared : Sv2DeclaredMiningJob)
  | declareMiningJobError (requestId : UInt32) (errorCode : String)
  | provideMissingTransactions (requestId : UInt32) (unknownTxPositionList : List ℕ)
  | pushed (solution : Sv2PushSolution) (declared : Sv2DeclaredMiningJob) (call : SubmitCall)

/-! ### Solutions -/

/-- The key under which a solution is remembered. -/
def Sv2PushSolution.solutionKey (solution : Sv2PushSolution) : List Char :=
  Js.join ':' [Js.toHex solution.prevHash, Js.toHex solution.extranonce,
    (Js.toString16 solution.nonce.toNat).toList, (Js.toString16 solution.ntime.toNat).toList,
    (Js.toString16 solution.nBits.toNat).toList, (Js.toString16 solution.version.toNat).toList]

/-- `parseUserIdentifier`. -/
def parseUserIdentifier (userIdentifier : String) : UserIdentity :=
  let parts := Js.split '.' userIdentifier.toList
  let address := parts.headD []
  let worker := Js.join '.' parts.tail
  { address := if address = [] then userIdentifier else String.ofList address
    workerName := if worker = [] then "jdp" else String.ofList worker }

/-- What `handlePushSolution` finds out before it submits a block. -/
inductive PushVerdict
  | noDeclaredJob
  | duplicate
  | noTemplate
  | threw
  | rejected (errorCode : String)
  | accepted (declared : Sv2DeclaredMiningJob) (template : TemplateProviderTemplate)
      (block : SolvedBlock) (blockHex : Bytes)

section
variable (host : Externals) (config : JdpConfig) (templates : TemplateProviderService)

/-- The template of a declared job. -/
def Sv2DeclaredMiningJob.templateOr (declared : Sv2DeclaredMiningJob) (now : ℕ) :
    Option TemplateProviderTemplate :=
  declared.template.or <| match declared.templateId with
    | none => templates.getLatestTemplate now
    | some templateId => templates.getTemplate templateId now

/-- The block of a solution on a declared job. -/
def judgeSolvedBlock (declared : Sv2DeclaredMiningJob) (template : TemplateProviderTemplate)
    (solution : Sv2PushSolution) : PushVerdict :=
  match buildBlockFromDeclaredJobSolution host template declared.job
      declared.providedTransactions solution with
  | none => .threw
  | some block =>
    let coinbase := (block.transactions.head?.map host.toBuffer).getD []
    match validateCoinbaseTransactionHeight host coinbase template.height with
    | some errorCode => .rejected errorCode
    | none =>
      match block.toHex host with
      | none => .threw
      | some blockHex => .accepted declared template block blockHex

/-- `handlePushSolution` up to the submission. -/
def JdpConnection.judgePushSolution (connection : JdpConnection) (solution : Sv2PushSolution)
    (now : ℕ) : PushVerdict :=
  match connection.latestDeclaredJob with
  | none => .noDeclaredJob
  | some declared =>
    if solution.solutionKey ∈ connection.submittedSolutions then .duplicate
    else match declared.templateOr templates now with
      | none => .noTemplate
      | some template => judgeSolvedBlock host declared template solution

/-- What is reported of the block of a declared job. -/
def jdpFoundBlock (payoutMode : PayoutMode) (declared : Sv2DeclaredMiningJob)
    (template : TemplateProviderTemplate) (blockHex : Bytes) : FoundBlock :=
  let identity := parseUserIdentifier declared.userIdentifier
  { blockHex
    height := template.height
    minerAddress := identity.address
    worker := identity.workerName
    sessionId := String.ofList ((Js.toHex declared.token).take 8)
    payoutMode
    payoutSnapshotId := template.jobTemplate.blockData.payoutSnapshotId }

/-- `handlePushSolution`, with the answer of the node. Whatever fails is caught. -/
def JdpConnection.handlePushSolution (connection : JdpConnection) (solution : Sv2PushSolution)
    (now : ℕ) (result : Option String) : SubmitHandler Unit :=
  match connection.judgePushSolution host templates solution now with
  | .accepted declared template _ blockHex =>
    reportBlock (jdpFoundBlock connection.payoutMode declared template blockHex) result
  | _ => pure ()

/-- A solution is remembered once its block is there. -/
def JdpConnection.rememberSolution (connection : JdpConnection) (solution : Sv2PushSolution)
    (now : ℕ) : JdpConnection :=
  match connection.judgePushSolution host templates solution now with
  | .accepted .. =>
    { connection with
      submittedSolutions := connection.submittedSolutions ++ [solution.solutionKey] }
  | _ => connection

/-! ### Tokens -/

/-- `serializeCoinbaseOutputs` on scripts whose outputs have no value. -/
def serializeCoinbaseOutputs (scripts : List Bytes) : Bytes :=
  putVarInt scripts.length ++ scripts.flatMap fun script =>
    putLE 8 0 ++ putVarInt script.length ++ script

/-- `buildPoolCoinbaseOutputs`, which throws on an address of another network. -/
def buildPoolCoinbaseOutputs (payoutMode : PayoutMode) (userIdentifier : String) (now : ℕ) :
    Option Bytes := do
  let snapshotOutputs := if payoutMode = .pplns then
    ((templates.getLatestTemplate now).bind (·.jobTemplate.blockData.payoutOutputs)).getD []
    else []
  let scripts ← if snapshotOutputs ≠ [] then
      snapshotOutputs.mapM fun output => host.toOutputScript output.address config.network
    else
      let address := if config.poolPayoutAddress ≠ "" then config.poolPayoutAddress
        else String.ofList ((Js.split '.' userIdentifier.toList).headD [])
      [address].mapM fun address => host.toOutputScript address config.network
  return serializeCoinbaseOutputs scripts

end

/-! ### The server -/

structure JdpWorld where
  registry : Sv2JobDeclarationRegistry
  templates : TemplateProviderService
  connections : ℕ → Option JdpConnection

/-- The server at its start. -/
def JdpWorld.initial (tokenTtlMs retentionMs : ℕ) : JdpWorld where
  registry := .initial tokenTtlMs
  templates := .initial retentionMs
  connections _ := none

/-- A new connection. -/
def JdpConnection.initial (payoutMode : PayoutMode) : JdpConnection where
  payoutMode := payoutMode
  destroyed := false
  declareTxData := false
  latestDeclaredJob := none
  submittedSolutions := []
  pendingDeclarations _ := none
  chunks := []

/-- What a step takes from outside: the time, the random bytes of a token, the error code of the
mempool test, the answer of the node to a block and the side effects that fail. -/
structure JdpEnv where
  now : ℕ
  token : Bytes
  mempoolError : Option String
  result : Option String
  fails : SideEffect → Bool

/-- What happens: a connection opens or closes, a template comes, a chunk arrives, or the `k`-th
chunk of a connection goes on. -/
inductive JdpInput
  | connect (id : ℕ) (payoutMode : PayoutMode)
  | disconnect (id : ℕ)
  | template (jobTemplate : JobTemplate) (now : ℕ)
  | data (id : ℕ) (frames : List JdpMessage)
  | resume (id k : ℕ) (env : JdpEnv)

/-- How a handler ends. -/
inductive JdpNext
  | returns
  | waits (test : MempoolTest)
  | throws

namespace JdpNext

/-- What is left of the chunk of a handler. -/
def chunk (frames : List JdpMessage) : JdpNext → Option JdpChunk
  | .returns => if frames = [] then none else some { test := none, frames }
  | .waits test => some { test := some test, frames }
  | .throws => none

/-- An error closes the connection. -/
def closes : JdpNext → Bool
  | .throws => true
  | _ => false

end JdpNext

namespace JdpConnection

/-- `handleSetupConnection`. -/
def handleSetupConnection (connection : JdpConnection) (message : Sv2SetupConnection) :
    JdpConnection × List JdpEvent :=
  if message.protocol ≠ 1 then
    ({ connection with destroyed := true }, [.setupConnectionError "unsupported-protocol"])
  else
    ({ connection with declareTxData := message.flags &&& 1 ≠ 0 }, [.setupConnectionSuccess])

/-- `pendingDeclarations` with another entry for a request, or with none. -/
def setPending (connection : JdpConnection) (requestId : UInt32)
    (pending : Option PendingDeclaration) : JdpConnection :=
  { connection with
    pendingDeclarations := fun requestId' =>
      if requestId' = requestId then pending else connection.pendingDeclarations requestId' }

end JdpConnection

namespace JdpWorld

variable (world : JdpWorld) (host : Externals) (config : JdpConfig) (id : ℕ)
  (connection : JdpConnection) (env : JdpEnv)

def setConnection : JdpWorld :=
  { world with
    connections := fun id' => if id' = id then some connection else world.connections id' }

/-- `handleAllocateMiningJobToken`. -/
def allocateMiningJobToken (message : Sv2AllocateMiningJobToken) :
    JdpWorld × JdpNext × List JdpEvent :=
  match buildPoolCoinbaseOutputs host config world.templates connection.payoutMode
      message.userIdentifier env.now with
  | none => (world, .throws, [])
  | some coinbaseOutputs =>
    let (registry, entry) :=
      world.registry.allocateToken message.userIdentifier coinbaseOutputs env.token env.now
    ({ world with registry }, .returns,
      [.allocateMiningJobTokenSuccess message.requestId entry.token entry.coinbaseOutputs])

/-- A job is declared, and the connection remembers it, or its registration throws. -/
def declareJob (job : Sv2DeclareMiningJob) (template : TemplateProviderTemplate)
    (providedTransactions : List Bytes) : JdpWorld × List JdpEvent :=
  match world.registry.declareJob job (some template.templateId) (some template) .fullTemplate
      providedTransactions env.token env.now with
  | .error errorCode =>
    ({ world with registry := world.registry.cleanup env.now }.setConnection id connection,
      [.declareMiningJobError job.requestId errorCode])
  | .ok (registry, declared) =>
    ({ world with registry }.setConnection id
        { connection with latestDeclaredJob := some declared },
      [.declareMiningJobSuccess job.requestId declared])

/-- `handleDeclareMiningJob`. -/
def declareMiningJob (job : Sv2DeclareMiningJob) : JdpWorld × List JdpEvent :=
  if !connection.declareTxData then
    (world, [.declareMiningJobError job.requestId "declare-tx-data-not-negotiated"])
  else match validateDeclaredWtxids host (world.templates.getLatestTemplate env.now)
      job.version.toNat job.wtxidList job.coinbaseTxPrefix with
    | .invalid errorCode => (world, [.declareMiningJobError job.requestId errorCode])
    | .missing template unknownTxPositionList =>
      (world.setConnection id (connection.setPending job.requestId
          (some { job, template, unknownTxPositionList })),
        [.provideMissingTransactions job.requestId unknownTxPositionList])
    | .valid template => world.declareJob id connection env job template []

/-- `handleProvideMissingTransactionsSuccess` up to the answer of the node. -/
def provideMissingTransactions (message : Sv2ProvideMissingTransactionsSuccess) :
    JdpNext × List JdpEvent :=
  match connection.pendingDeclarations message.requestId with
  | none =>
    (.returns, [.declareMiningJobError message.requestId "unknown-missing-transaction-request"])
  | some pending =>
    (.waits
      { requestId := message.requestId
        pending
        transactionList := message.transactionList
        checked := checkProvidedTransactions host pending.job.wtxidList
          pending.unknownTxPositionList message.transactionList }, [])

/-- `handleProvideMissingTransactionsSuccess` with the answer of the node. -/
def resumeProvided (test : MempoolTest) : JdpWorld × List JdpEvent :=
  let connection := connection.setPending test.requestId none
  match test.checked.or env.mempoolError with
  | some errorCode =>
    (world.setConnection id connection, [.declareMiningJobError test.requestId errorCode])
  | none =>
    world.declareJob id connection env test.pending.job test.pending.template
      test.transactionList

/-- `handlePushSolution`. -/
def pushSolution (solution : Sv2PushSolution) : JdpWorld × List JdpEvent :=
  let calls := (connection.handlePushSolution host world.templates solution env.now
    env.result).calls env.fails
  (world.setConnection id (connection.rememberSolution host world.templates solution env.now),
    calls.flatMap fun call =>
      (connection.latestDeclaredJob.map (JdpEvent.pushed solution · call)).toList)

/-- `handleEncryptedData`, on one frame. -/
def handleFrame : JdpMessage → JdpWorld × JdpNext × List JdpEvent
  | .setupConnection message =>
    let (connection, events) := connection.handleSetupConnection message
    (world.setConnection id connection, .returns, events)
  | .allocateMiningJobToken message => world.allocateMiningJobToken host config connection env message
  | .declareMiningJob message =>
    let (world, events) := world.declareMiningJob host id connection env message
    (world, .returns, events)
  | .provideMissingTransactionsSuccess message =>
    let (next, events) := provideMissingTransactions host connection message
    (world, next, events)
  | .pushSolution solution =>
    let (world, events) := world.pushSolution host id connection env solution
    (world, .returns, events)
  | .malformed => (world, .throws, [])

/-- The end of a handler: its chunk goes on, or an error closes the connection. -/
def endTurn (next : JdpNext) (frames : List JdpMessage) : JdpWorld :=
  match world.connections id with
  | none => world
  | some connection =>
    world.setConnection id
      { connection with
        destroyed := connection.destroyed || next.closes
        chunks := connection.chunks ++ (next.chunk frames).toList }

/-- A chunk goes on, which is the connection's no more while it does. -/
def runChunk (chunk : JdpChunk) : JdpWorld × List JdpEvent :=
  match chunk.test with
  | some test =>
    let (world, events) := world.resumeProvided id connection env test
    (world.endTurn id .returns chunk.frames, events)
  | none =>
    match chunk.frames with
    | [] => (world, [])
    | message :: frames =>
      let (world, next, events) := world.handleFrame host config id connection env message
      (world.endTurn id next frames, events)

end JdpWorld

/-- One step of the server. A connection keeps its number for good. -/
def jdpStep (host : Externals) (config : JdpConfig) (world : JdpWorld) :
    JdpInput → JdpWorld × List (ℕ × JdpEvent)
  | .connect id payoutMode =>
    match world.connections id with
    | none => (world.setConnection id (.initial payoutMode), [])
    | some _ => (world, [])
  | .disconnect id =>
    match world.connections id with
    | none => (world, [])
    | some connection => (world.setConnection id { connection with destroyed := true }, [])
  | .template jobTemplate now =>
    ({ world with templates := world.templates.upsert host jobTemplate now }, [])
  | .data id frames =>
    match world.connections id with
    | none => (world, [])
    | some connection =>
      if connection.destroyed then (world, [])
      else
        (world.setConnection id
          { connection with chunks := connection.chunks ++ [{ test := none, frames }] }, [])
  | .resume id k env =>
    match world.connections id with
    | none => (world, [])
    | some connection =>
      match connection.chunks[k]? with
      | none => (world, [])
      | some chunk =>
        let connection := { connection with chunks := connection.chunks.eraseIdx k }
        let (world, events) :=
          (world.setConnection id connection).runChunk host config id connection env chunk
        (world, events.map (id, ·))

/-- The declaration connections as a state machine. -/
def jdpMachine (host : Externals) (config : JdpConfig) :
    Machine JdpWorld JdpInput (ℕ × JdpEvent) :=
  ⟨jdpStep host config⟩

end PublicPool.Sv2
