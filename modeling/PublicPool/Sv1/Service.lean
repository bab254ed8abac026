import PublicPool.Lib.Runs
import PublicPool.Sv1.Client

/-!
# `PublicPool.Sv1.Service`: all Stratum V1 connections over one jobs service

The connections of the pool share the jobs service and nothing else. `sv1Step` is one step of
any of them; a run of `sv1Machine` is an interleaving of their steps.

A connection that is closed reads no more messages. The jobs it had under way are still built.
-/

set_option autoImplicit false

namespace PublicPool.Sv1

open Lib (Machine)

structure Sv1World where
  service : StratumV1JobsService
  clients : ℕ → Option StratumV1Client

/-- The pool at its start. -/
def Sv1World.initial : Sv1World where
  service := .initial
  clients _ := none

/-- What happens to the connections. -/
inductive Sv1Input
  | connect (client : ℕ) (payoutMode : PayoutMode) (accountingProtocol : ShareProtocol)
  | disconnect (client : ℕ)
  | template (template : JobTemplate) (now : ℕ)
  | subscribe (client : ℕ) (randomHex : String)
  | authorize (client : ℕ) (user : String) (startingDiff : Option ℚ)
  | suggestDifficulty (client : ℕ) (suggestedDifficulty : ℚ)
  | setPayout (client : ℕ) (address : String) (worker : Option String) (now : ℕ)
  | subscribeTemplates (client : ℕ)
  | checkDifficulty (client : ℕ) (suggested : Option ℚ) (now : ℕ)
  | sendJob (client k : ℕ) (inserted sent : Bool) (now : ℕ)
  | submit (client : ℕ) (params : List JsonValue) (blockSubmissionResult : Option String)
      (fault : Option StratumV1Client.SubmitFault)

def Sv1World.setClient (world : Sv1World) (id : ℕ) (client : StratumV1Client) : Sv1World :=
  { world with clients := fun id' => if id' = id then some client else world.clients id' }

/-- A step of one connection. -/
def Sv1World.update (world : Sv1World) (id : ℕ)
    (handler : StratumV1Client → StratumV1Client × List Sv1Event) :
    Sv1World × List (ℕ × Sv1Event) :=
  match world.clients id with
  | none => (world, [])
  | some client =>
    let (client, events) := handler client
    (world.setClient id client, events.map (id, ·))

/-- A step of a connection that still reads messages. -/
def Sv1World.handle (world : Sv1World) (id : ℕ)
    (handler : StratumV1Client → StratumV1Client × List Sv1Event) :
    Sv1World × List (ℕ × Sv1Event) :=
  world.update id fun client => if client.connectionClosed then (client, []) else handler client

open StratumV1Client in
/-- One step of the pool. A connection keeps its number for good: a number is connected once. -/
def sv1Step (host : Externals) (config : Sv1Config) (world : Sv1World) :
    Sv1Input → Sv1World × List (ℕ × Sv1Event)
  | .connect id payoutMode accountingProtocol =>
    match world.clients id with
    | none => (world.setClient id (.initial payoutMode accountingProtocol), [])
    | some _ => (world, [])
  | .disconnect id => world.update id fun client => (client.destroy, [])
  | .template template now =>
    let data := world.service.numberTemplate template now
    ({ service := world.service.publish template now
       clients := fun id => (world.clients id).map fun client =>
         client.receiveTemplate data now }, [])
  | .subscribe id randomHex => world.handle id (handleSubscribe · randomHex)
  | .authorize id user startingDiff =>
    world.handle id (handleAuthorize host config · user startingDiff)
  | .suggestDifficulty id suggestedDifficulty =>
    world.handle id (handleSuggestDifficulty config · suggestedDifficulty)
  | .setPayout id address worker now =>
    world.handle id (handleSetPayout host config world.service.latestTemplate · address worker now)
  | .subscribeTemplates id =>
    world.update id fun client => (client.subscribeTemplates world.service.latestTemplate, [])
  | .checkDifficulty id suggested now =>
    world.update id (difficultyTimer config world.service.latestTemplate · suggested now)
  | .sendJob id k inserted sent now =>
    match world.clients id with
    | none => (world, [])
    | some client =>
      let (service, client, events) :=
        client.sendNewMiningJob host config world.service k inserted sent now
      ({ world.setClient id client with service }, events.map (id, ·))
  | .submit id params blockSubmissionResult fault =>
    world.handle id (handleSubmit host world.service · params blockSubmissionResult fault)

/-- The Stratum V1 connections as a state machine. -/
def sv1Machine (host : Externals) (config : Sv1Config) :
    Machine Sv1World Sv1Input (ℕ × Sv1Event) :=
  ⟨sv1Step host config⟩

end PublicPool.Sv1
