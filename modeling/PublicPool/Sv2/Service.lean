import PublicPool.Lib.Runs
import PublicPool.Sv2.Client

/-!
# `PublicPool.Sv2.Service`: all Stratum V2 connections over one jobs service

The connections share the jobs service and the numbers of `StratumV2Service`. `sv2Step` is one
step of any of them: a chunk of frames arrives, a suspended handler goes on, the difficulty timer
fires, or a template reaches all subscribed connections. A run of `sv2Machine` is an interleaving
of these.
-/

set_option autoImplicit false

namespace PublicPool.Sv2

open Lib (Machine)

structure Sv2World where
  jobs : StratumV1JobsService
  stratumV2Service : StratumV2Service
  clients : ℕ → Option StratumV2Client

/-- The service at its start. -/
def Sv2World.initial : Sv2World where
  jobs := .initial
  stratumV2Service := .initial
  clients _ := none

/-- What happens to the connections. -/
inductive Sv2Input
  | connect (client : ℕ) (sessionId : String) (payoutMode : PayoutMode)
  | disconnect (client : ℕ)
  | template (template : JobTemplate) (now : ℕ)
  | data (client : ℕ) (frames : List Sv2Message)
  | resume (client k : ℕ) (env : TurnEnv)
  | checkDifficulty (client : ℕ) (suggested : Option ℚ)

/-- What the service emits: a template, or an event of a connection. -/
inductive Sv2Output
  | published (template : JobTemplate)
  | client (id : ℕ) (event : Sv2Event)

namespace Sv2World

variable (world : Sv2World)

/-- The view of one connection. -/
def context (client : StratumV2Client) : Context where
  jobs := world.jobs
  stratumV2Service := world.stratumV2Service
  client := client

/-- The world after a step of one connection. -/
def update (id : ℕ) (context : Context) : Sv2World where
  jobs := context.jobs
  stratumV2Service := context.stratumV2Service
  clients id' := if id' = id then some context.client else world.clients id'

end Sv2World

namespace StratumV2Client

/-- A chunk of frames arrives; a connection that is destroyed does not read it. -/
def receive (client : StratumV2Client) (frames : List Sv2Message) : StratumV2Client :=
  if client.destroyed || frames.isEmpty then client
  else
    { client with tasks := client.tasks ++ [{ wait := .nextFrame, origin := .socket frames }] }

/-- A template reaches the connection's subscription, if it has one. -/
def receiveTemplate (client : StratumV2Client) (jobTemplate : JobTemplate) (now : ℕ) :
    StratumV2Client :=
  if client.stratumSubscription then client.onTemplate jobTemplate now else client

/-- The connection without its `k`-th task. -/
def dropTask (client : StratumV2Client) (k : ℕ) : StratumV2Client :=
  { client with tasks := client.tasks.eraseIdx k }

end StratumV2Client

/-- One step of the service. A connection keeps its number for good. -/
def sv2Step (host : Externals) (config : Sv2Config) (world : Sv2World) :
    Sv2Input → Sv2World × List Sv2Output
  | .connect id sessionId payoutMode =>
    match world.clients id with
    | none => (world.update id (world.context (.initial config sessionId payoutMode)), [])
    | some _ => (world, [])
  | .disconnect id =>
    match world.clients id with
    | none => (world, [])
    | some client => (world.update id (world.context client).closeSocket, [])
  | .template template now =>
    let data := world.jobs.numberTemplate template now
    ({ world with
        jobs := world.jobs.publish template now
        clients := fun id => (world.clients id).map fun client =>
          client.receiveTemplate data now },
      [.published data])
  | .data id frames =>
    match world.clients id with
    | none => (world, [])
    | some client => (world.update id (world.context (client.receive frames)), [])
  | .resume id k env =>
    match world.clients id with
    | none => (world, [])
    | some client =>
      match client.tasks[k]? with
      | none => (world, [])
      | some task =>
        let (context, events) := (world.context (client.dropTask k)).runTask host config env task
        (world.update id context, events.map (.client id))
  | .checkDifficulty id suggested =>
    match world.clients id with
    | none => (world, [])
    | some client =>
      if client.difficultyTimer then
        let (context, events) :=
          Context.endTurn .timer ((world.context client).checkDifficulty config suggested)
        (world.update id context, events.map (.client id))
      else (world, [])

/-- The Stratum V2 connections as a state machine. -/
def sv2Machine (host : Externals) (config : Sv2Config) : Machine Sv2World Sv2Input Sv2Output :=
  ⟨sv2Step host config⟩

end PublicPool.Sv2
