import PublicPool.Sv1.Awaits

/-!
# `PublicPool.Sv1.Authorizing`: authorizations that are suspended

In `Sv1.Awaits` a `mining.authorize` is still one step. Here it stops at its two awaits as well,
the validation and the reply. A run of `sessionMachine` interleaves its pieces with everything
that `awaitMachine` interleaves; whatever writes the difficulty of a connection is a piece of its
own: an authorization, a suggestion, a tick of the minute timer.
-/

set_option autoImplicit false

namespace PublicPool.Sv1

open DifficultyUtils
open Lib (Machine)

/-- A call of `mining.authorize` that is suspended. -/
inductive Authorizing
  | validation (user : String) (startingDiff : Option ℚ)
  | reply

namespace StratumV1Client

variable (host : Externals) (config : Sv1Config) (client : StratumV1Client)

/-- `mining.authorize` after the validation. The starting difficulty can only raise the
difficulty, and only while the client suggested none. -/
def resumeAuthorizeValidation (user : String) (startingDiff : Option ℚ) :
    StratumV1Client × List Sv1Event :=
  match parseAuthorization host config.network user with
  | none => (client, [.errorResponse .otherUnknown "Authorization validation error"])
  | some authorization =>
    let client :=
      { client with
        clientAuthorization := some authorization
        currentPayoutAddress := some authorization.address
        currentPayoutWorker := some authorization.workerName }
    let client := match client.clientSuggestedDifficulty, startingDiff with
      | none, some startingDiff =>
        if client.sessionDifficulty.getD 0 < startingDiff then
          { client with
            sessionDifficulty := some startingDiff
            sessionDifficultyTarget := difficultyToTarget (some startingDiff) }
        else client
      | _, _ => client
    (client, [.response])

/-- `mining.authorize` after its reply. -/
def resumeAuthorizeReply (succeeded : Bool) : StratumV1Client × List Sv1Event :=
  if !succeeded then (client.destroy, []) else client.maybeInitStratum []

/-- A suspended authorization goes on to its next `await`, or to its end. -/
def resumeAuthorize (succeeded : Bool) :
    Authorizing → StratumV1Client × Option Authorizing × List Sv1Event
  | .validation user startingDiff =>
    let (client, events) := client.resumeAuthorizeValidation host config user startingDiff
    (client, some .reply, events)
  | .reply =>
    let (client, events) := client.resumeAuthorizeReply succeeded
    (client, none, events)

/-- Nothing in between, `mining.authorize` is the one step of `Sv1.Client`. -/
theorem handleAuthorize_eq (user : String) (startingDiff : Option ℚ) :
    client.handleAuthorize host config user startingDiff =
      let validated := client.resumeAuthorizeValidation host config user startingDiff
      let replied := validated.1.resumeAuthorizeReply true
      (replied.1, validated.2 ++ replied.2) := by
  have hinit (client : StratumV1Client) (events : List Sv1Event) :
      client.maybeInitStratum events =
        ((client.maybeInitStratum []).1, events ++ (client.maybeInitStratum []).2) := by
    unfold maybeInitStratum
    split
    · cases client.clientSuggestedDifficulty <;> simp
    · simp
  unfold handleAuthorize resumeAuthorizeValidation resumeAuthorizeReply
  cases parseAuthorization host config.network user with
  | none => exact hinit _ _
  | some authorization => exact hinit _ _

end StratumV1Client

/-- The connections, and their suspended authorizations. -/
structure SessionWorld where
  awaits : AwaitWorld
  authorizing : ℕ → List Authorizing

/-- The pool at its start. -/
def SessionWorld.initial : SessionWorld where
  awaits := .initial
  authorizing _ := []

/-- What happens: an input of `awaitMachine`, or the `await` of the `k`-th suspended
authorization of a connection comes to its end. -/
inductive SessionInput
  | awaits (input : AwaitInput)
  | resumeAuthorize (client k : ℕ) (succeeded : Bool)

namespace SessionWorld

variable (world : SessionWorld)

/-- The connections that the sessions belong to. -/
def clients (id : ℕ) : Option StratumV1Client := world.awaits.pool.clients id

def setAuthorizing (id : ℕ) (authorizing : List Authorizing) : SessionWorld :=
  { world with
    authorizing := fun id' => if id' = id then authorizing else world.authorizing id' }

/-- `mining.authorize` up to the validation. -/
def beginAuthorize (id : ℕ) (user : String) (startingDiff : Option ℚ) : SessionWorld :=
  match world.clients id with
  | some client =>
    if client.connectionClosed then world
    else world.setAuthorizing id (world.authorizing id ++ [.validation user startingDiff])
  | none => world

/-- A suspended authorization goes on, also when the connection was closed meanwhile. -/
def resumeAuthorize (host : Externals) (config : Sv1Config) (id k : ℕ) (succeeded : Bool) :
    SessionWorld × List (ℕ × Sv1Event) :=
  match world.clients id, (world.authorizing id)[k]? with
  | some client, some call =>
    let (client, next, events) := client.resumeAuthorize host config succeeded call
    let pool := world.awaits.pool.setClient id client
    ({ world with awaits := { world.awaits with pool } }.setAuthorizing id
        ((world.authorizing id).eraseIdx k ++ next.toList), events.map (id, ·))
  | _, _ => (world, [])

end SessionWorld

/-- One step of the pool, in which authorizations stop at every `await` as well. -/
def sessionStep (host : Externals) (config : Sv1Config) (world : SessionWorld) :
    SessionInput → SessionWorld × List (ℕ × Sv1Event)
  | .awaits (.begin (.authorize id user startingDiff)) =>
    (world.beginAuthorize id user startingDiff, [])
  | .awaits input =>
    let (awaits, events) := awaitStep host config world.awaits input
    ({ world with awaits }, events)
  | .resumeAuthorize id k succeeded => world.resumeAuthorize host config id k succeeded

/-- The Stratum V1 sessions as a state machine. -/
def sessionMachine (host : Externals) (config : Sv1Config) :
    Machine SessionWorld SessionInput (ℕ × Sv1Event) :=
  ⟨sessionStep host config⟩

end PublicPool.Sv1
