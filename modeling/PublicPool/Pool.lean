import PublicPool.Sv1.Awaits
import PublicPool.Sv2.Service

/-!
# `PublicPool.Pool`: the connections of both protocols over one jobs service

There is one `StratumV1JobsService`, and every connection of the pool adds its jobs to it: the
Stratum V1 connections and the channels of the Stratum V2 connections. `poolStep` is one step of
any of them, from one `await` to the next, so that a run of `poolMachine` is an interleaving of all
handlers of both protocols. A template reaches the subscriptions of both.

The source does not write down for whom a job was created. The event `jobAdded` does: the owner is
the connection whose `sendNewMiningJob` runs, for Stratum V2 with the channel that the handler is
at.
-/

set_option autoImplicit false

namespace PublicPool

open Lib (Machine)
open Sv1 (StratumV1Client Sv1Config Sv1Event Suspended AwaitWorld AwaitInput awaitStep)
open Sv2 (StratumV2Client StratumV2Service Sv2Config Sv2Input Sv2Output Sv2World sv2Step
  Handled)

/-- For whom a job is created. -/
inductive JobOwner
  | sv1 (client : ℕ)
  | sv2 (client channelId : ℕ)
  deriving DecidableEq, Repr

/-- What the connections send and store, and the jobs that they add. -/
inductive PoolEvent
  | sv1 (client : ℕ) (event : Sv1Event)
  | sv2 (output : Sv2Output)
  | jobAdded (owner : JobOwner) (job : MiningJob)

/-- The connections of the pool and what they share. -/
structure Pool where
  jobs : StratumV1JobsService
  stratumV2Service : StratumV2Service
  sv1Clients : ℕ → Option StratumV1Client
  suspended : ℕ → List Suspended
  sv2Clients : ℕ → Option StratumV2Client

/-- What happens to the connections. -/
inductive PoolInput
  | sv1 (input : AwaitInput)
  | sv2 (input : Sv2Input)

/-- The connection that may create a job in a step. -/
def Sv1.AwaitInput.jobOwner? : AwaitInput → Option JobOwner
  | .begin (.sendJob id ..) => some (.sv1 id)
  | _ => none

namespace Sv2

/-- The channel that a handler may create a job for in its next turn. -/
def StratumV2Client.jobChannel? (client : StratumV2Client) : Handled → Option ℕ
  | .wait (.firstTemplate channelId _) => some channelId
  | .wait (.prevHashFrame (.loop _ _ channelId)) => (client.channelAfter? channelId).map Prod.fst
  | .wait (.customTemplate message) => some message.channelId.toNat
  | _ => none

/-- The channel that a step may create a job for. -/
def Sv2World.jobOwner? (world : Sv2World) : Sv2Input → Option JobOwner
  | .resume id k _ => do
    let client ← world.clients id
    let task ← client.tasks[k]?
    let channelId ← client.jobChannel? task.handled.1
    return .sv2 id channelId
  | _ => none

end Sv2

namespace Pool

/-- The pool at its start. -/
def initial : Pool where
  jobs := .initial
  stratumV2Service := .initial
  sv1Clients _ := none
  suspended _ := []
  sv2Clients _ := none

variable (pool : Pool)

/-- What the Stratum V1 connections see. -/
def sv1World : AwaitWorld where
  pool := { service := pool.jobs, clients := pool.sv1Clients }
  suspended := pool.suspended

/-- What the Stratum V2 connections see. -/
def sv2World : Sv2World where
  jobs := pool.jobs
  stratumV2Service := pool.stratumV2Service
  clients := pool.sv2Clients

/-- The job that was added under the next id, if the service has counted one more. -/
def addedJob? (jobs : StratumV1JobsService) : Option MiningJob :=
  if jobs.latestJobId = pool.jobs.latestJobId then none
  else jobs.getJobById pool.jobs.getNextId

/-- The event of the job that was added. -/
def jobEvents (owner : Option JobOwner) (jobs : StratumV1JobsService) : List PoolEvent :=
  match owner, pool.addedJob? jobs with
  | some owner, some job => [.jobAdded owner job]
  | _, _ => []

/-- `newMiningJob$` emits a template. -/
def receiveTemplate (template : JobTemplate) (now : ℕ) : Pool × List PoolEvent :=
  let data := pool.jobs.numberTemplate template now
  ({ pool with
      jobs := pool.jobs.publish template now
      sv1Clients := fun id => (pool.sv1Clients id).map fun client =>
        client.receiveTemplate data now
      sv2Clients := fun id => (pool.sv2Clients id).map fun client =>
        client.receiveTemplate data now },
    [.sv2 (.published data)])

/-- A step of the Stratum V1 connections. -/
def stepSv1 (host : Externals) (config : Sv1Config) (input : AwaitInput) :
    Pool × List PoolEvent :=
  let (world, events) := awaitStep host config pool.sv1World input
  ({ pool with
      jobs := world.pool.service
      sv1Clients := world.pool.clients
      suspended := world.suspended },
    events.map (fun event => .sv1 event.1 event.2)
      ++ pool.jobEvents input.jobOwner? world.pool.service)

/-- A step of the Stratum V2 connections. -/
def stepSv2 (host : Externals) (config : Sv2Config) (input : Sv2Input) :
    Pool × List PoolEvent :=
  let (world, outputs) := sv2Step host config pool.sv2World input
  ({ pool with
      jobs := world.jobs
      stratumV2Service := world.stratumV2Service
      sv2Clients := world.clients },
    outputs.map .sv2 ++ pool.jobEvents (pool.sv2World.jobOwner? input) world.jobs)

end Pool

/-- One step of the pool. -/
def poolStep (host : Externals) (sv1Config : Sv1Config) (sv2Config : Sv2Config) (pool : Pool) :
    PoolInput → Pool × List PoolEvent
  | .sv1 (.begin (.template template now)) => pool.receiveTemplate template now
  | .sv2 (.template template now) => pool.receiveTemplate template now
  | .sv1 input => pool.stepSv1 host sv1Config input
  | .sv2 input => pool.stepSv2 host sv2Config input

/-- The connections of both protocols as a state machine. -/
def poolMachine (host : Externals) (sv1Config : Sv1Config) (sv2Config : Sv2Config) :
    Machine Pool PoolInput PoolEvent :=
  ⟨poolStep host sv1Config sv2Config⟩

end PublicPool
