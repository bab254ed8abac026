import PublicPool.Sv2.JobDeclaration
import PublicPool.Sv2.Service

/-!
# `PublicPool.Sv2.WorkSelection`: declared jobs and the jobs that miners work on

A miner that selects its work declares a job on a connection of the job declaration server, and
then tells the mining server on another connection which job it works on (`SetCustomMiningJob`).
The second message brings all fields of the job once more, with the token of the declaration. The
two servers share the registry of declared jobs, where the mining server looks the token up.

A run of `workSelectionMachine` is an interleaving of runs of the two servers. What the registry
answers comes from its state, and no more from outside.
-/

set_option autoImplicit false

namespace PublicPool.Sv2

open Lib (Machine)

/-- The declaration connections and the mining connections. -/
structure WorkSelectionWorld where
  declarations : JdpWorld
  mining : Sv2World

/-- Both servers at their start. -/
def WorkSelectionWorld.initial (tokenTtlMs retentionMs : ℕ) : WorkSelectionWorld where
  declarations := .initial tokenTtlMs retentionMs
  mining := .initial

/-- What happens to one of the servers. -/
inductive WorkSelectionInput
  | declaration (input : JdpInput)
  | mining (input : Sv2Input)

/-- What one of them emits. -/
inductive WorkSelectionOutput
  | declaration (id : ℕ) (event : JdpEvent)
  | mining (output : Sv2Output)

/-- The `SetCustomMiningJob` that a task takes up, if it takes one up. -/
def Task.customFrame? (task : Task) : Option Sv2SetCustomMiningJob :=
  match task.handled.1 with
  | .frame (.setCustomMiningJob message) => some message
  | _ => none

/-- The registry's answer to the token of a `SetCustomMiningJob`, for the handler that takes it. -/
def Sv2World.withRegistry (world : Sv2World) (registry : Sv2JobDeclarationRegistry) :
    Sv2Input → Sv2Input
  | .resume id k env =>
    let task := (world.clients id).bind fun client => client.tasks[k]?
    .resume id k
      { env with
        declaredJob := (task.bind Task.customFrame?).bind fun message =>
          registry.getDeclaredJob message.token env.now }
  | input => input

/-- One step of one of the servers. -/
def workSelectionStep (host : Externals) (jdpConfig : JdpConfig) (config : Sv2Config)
    (world : WorkSelectionWorld) :
    WorkSelectionInput → WorkSelectionWorld × List WorkSelectionOutput
  | .declaration input =>
    let (declarations, events) := jdpStep host jdpConfig world.declarations input
    ({ world with declarations }, events.map fun event => .declaration event.1 event.2)
  | .mining input =>
    let (mining, outputs) := sv2Step host config world.mining
      (world.mining.withRegistry world.declarations.registry input)
    ({ world with mining }, outputs.map .mining)

/-- The two servers as a state machine. -/
def workSelectionMachine (host : Externals) (jdpConfig : JdpConfig) (config : Sv2Config) :
    Machine WorkSelectionWorld WorkSelectionInput WorkSelectionOutput :=
  ⟨workSelectionStep host jdpConfig config⟩

end PublicPool.Sv2
