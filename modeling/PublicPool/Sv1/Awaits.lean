import PublicPool.Sv1.Service

/-!
# `PublicPool.Sv1.Awaits`: submissions and suggestions that are suspended

A closer look at two handlers of `models/StratumV1Client.ts`, `mining.submit` and
`mining.suggest_difficulty`. In `Sv1.Client` each of them is one step. Here they stop at every
`await`, and whatever else happens to the connections may come in between: `suspended` holds the
calls that have not come to an end, with their local variables, and a run of `awaitMachine` is an
interleaving of their pieces with the steps of `sv1Step`.

The data of a connection is read in a piece where the source reads it. The target is compared in
the piece after the validation, and the difficulty that is recorded is read in the last one.
-/

set_option autoImplicit false

namespace PublicPool.Sv1

open DifficultyUtils
open Lib (Machine)

/-- What `handleMiningSubmission` knows of a submission whose hash met the target. -/
structure AcceptedWork where
  submission : MiningSubmitMessage
  job : MiningJob
  jobTemplate : JobTemplate
  header : Bytes

/-- What it knows once the reply is written. -/
structure RepliedWork extends AcceptedWork where
  identity : UserIdentity
  /-- The coinbase and the serialized block, if the submission makes up one. -/
  found : Option (Transaction × Bytes)
  blockSubmissionResult : Option String

/-- The awaits of `handleMiningSubmission` after its reply. -/
inductive SubmitAwait
  | submitBlock
  | saveBlock
  | finalizeSnapshot
  | notifySubscribers
  | resetBestDifficulty
  | clientRow
  | virtualRow

/-- A call of `handleMessage` that is suspended. -/
inductive Suspended
  | submitValidation (params : List JsonValue)
  | submitReply (work : AcceptedWork)
  | submitting (work : RepliedWork) (await : SubmitAwait)
  | suggestValidation (suggestedDifficulty : ℚ)
  | suggestReply

/-- The work of a submission that was accepted and is not recorded yet. -/
def Suspended.accepted : Suspended → Option AcceptedWork
  | .submitReply work => some work
  | .submitting work _ => some work.toAcceptedWork
  | _ => none

namespace StratumV1Client

variable (host : Externals) (config : Sv1Config) (service : StratumV1JobsService)
  (client : StratumV1Client)

/-- `mining.submit` after the validation. A refused submission is over with its reply. -/
def resumeSubmitValidation (params : List JsonValue) (succeeded : Bool) :
    StratumV1Client × Option Suspended × List Sv1Event :=
  match MiningSubmitMessage.ofParams params with
  | none =>
    (client.endSocket, none,
      [.errorResponse .otherUnknown "Mining Submit validation error"])
  | some submission =>
    let verdict := client.judgeSubmission host service submission
    let client := client.remember submission verdict
    let reject (code : StratumErrorCode) (message : String) :
        StratumV1Client × Option Suspended × List Sv1Event :=
      if succeeded then (client, none, [.errorResponse code message])
      else (client.destroy, none, [])
    match verdict with
    | .jobNotFound message => reject .jobNotFound message
    | .duplicate => reject .duplicateShare "Duplicate share"
    | .lowDifficulty => reject .lowDifficultyShare "Difficulty too low"
    | .threw => (client.endSocket, none, [])
    | .accepted job jobTemplate header =>
      (client, some (.submitReply { submission, job, jobTemplate, header }), [])

/-- An accepted submission after its reply: whoever the job pays is fixed, and a block candidate
is handed to the node. -/
def resumeSubmitReply (work : AcceptedWork) (succeeded : Bool) :
    StratumV1Client × Option Suspended × List Sv1Event :=
  if !succeeded then (client.destroy, none, [])
  else
    let identity := recordedIdentity (client.clientAuthorization.getD ⟨"", ""⟩) work.job
    let replied (found : Option (Transaction × Bytes)) : RepliedWork :=
      { work with identity, found, blockSubmissionResult := none }
    if isBlockCandidate host work.jobTemplate work.header then
      match work.job.copyAndUpdateBlock host work.jobTemplate
          (Js.parseInt16 work.submission.versionMask) (Js.parseInt16 work.submission.nonce)
          (client.extraNonceAndSessionId.getD "undefined").toList
          work.submission.extraNonce2.toList (Js.parseInt16 work.submission.ntime) with
      | none => (client.endSocket, none, [.response])
      | some block =>
        (client, some (.submitting (replied (some block)) .submitBlock), [.response])
    else (client, some (.submitting (replied none) .clientRow), [.response])

/-- The events of the saved row and of the finalized snapshot, for a block. -/
def foundEvents (work : RepliedWork) (events : Transaction → Bytes → List Sv1Event) :
    List Sv1Event :=
  match work.found with
  | some (coinbase, blockHex) => events coinbase blockHex
  | none => []

/-- An accepted submission after one of its later awaits, with the answer of the node if that is
what it waited for. `virtualWorkerEntity` never fails; the accounting call comes right after
it. -/
def resumeSubmitting (work : RepliedWork) (await : SubmitAwait) (succeeded : Bool)
    (answer : Option String) : StratumV1Client × Option Suspended × List Sv1Event :=
  match await, succeeded with
  | .virtualRow, _ =>
    (client, none, [.shareRecorded (client.shareRecord host work.identity work.job
      work.jobTemplate work.submission work.header work.blockSubmissionResult)
      work.submission work.job work.header])
  | _, false => (client.endSocket, none, [])
  | .submitBlock, true =>
    (client, some (.submitting { work with blockSubmissionResult := answer } .saveBlock), [])
  | .saveBlock, true =>
    (client, some (.submitting work
        (if client.payoutMode = .pplns then .finalizeSnapshot else .notifySubscribers)),
      foundEvents work fun _ blockHex => [.blockSaved (client.blockRecord work.identity
        work.jobTemplate blockHex work.blockSubmissionResult) work.job])
  | .finalizeSnapshot, true =>
    (client, some (.submitting work .notifySubscribers),
      foundEvents work fun coinbase _ => client.finalizeEvents work.jobTemplate coinbase
        work.blockSubmissionResult)
  | .notifySubscribers, true =>
    (client, some (.submitting work (if isSuccessfulBlockSubmission work.blockSubmissionResult
      then .resetBestDifficulty else .clientRow)), [])
  | .resetBestDifficulty, true => (client, some (.submitting work .clientRow), [])
  | .clientRow, true => (client, some (.submitting work .virtualRow), [])

/-- `mining.suggest_difficulty` after the validation. -/
def resumeSuggestValidation (suggestedDifficulty : ℚ) :
    StratumV1Client × Option Suspended × List Sv1Event :=
  let sessionDifficulty := clampDifficulty config (some suggestedDifficulty)
  ({ client with
      clientSuggestedDifficulty := some suggestedDifficulty
      sessionDifficulty
      sessionDifficultyTarget := difficultyToTarget sessionDifficulty },
    some .suggestReply, [.setDifficulty sessionDifficulty])

/-- Only a suggestion whose reply was written counts as used. -/
def resumeSuggestReply (succeeded : Bool) :
    StratumV1Client × Option Suspended × List Sv1Event :=
  if !succeeded then (client.destroy, none, [])
  else
    let (client, events) := { client with usedSuggestedDifficulty := true }.maybeInitStratum []
    (client, none, events)

/-- A suspended call goes on to its next `await`, or to its end. -/
def resume (succeeded : Bool) (answer : Option String) :
    Suspended → StratumV1Client × Option Suspended × List Sv1Event
  | .submitValidation params => client.resumeSubmitValidation host service params succeeded
  | .submitReply work => client.resumeSubmitReply host work succeeded
  | .submitting work await => client.resumeSubmitting host work await succeeded answer
  | .suggestValidation suggestedDifficulty =>
    client.resumeSuggestValidation config suggestedDifficulty
  | .suggestReply => client.resumeSuggestReply succeeded

end StratumV1Client

/-- The connections and their suspended calls. -/
structure AwaitWorld where
  pool : Sv1World
  suspended : ℕ → List Suspended

/-- The pool at its start. -/
def AwaitWorld.initial : AwaitWorld where
  pool := .initial
  suspended _ := []

/-- What happens: something new, or the `await` of the `k`-th suspended call of a connection comes
to its end. -/
inductive AwaitInput
  | begin (input : Sv1Input)
  | resume (client k : ℕ) (succeeded : Bool) (answer : Option String)

namespace AwaitWorld

variable (world : AwaitWorld)

def setSuspended (id : ℕ) (suspended : List Suspended) : AwaitWorld :=
  { world with suspended := fun id' => if id' = id then suspended else world.suspended id' }

/-- A call of a connection is suspended, the first time or again. -/
def suspend (id : ℕ) (suspended : Suspended) : AwaitWorld :=
  world.setSuspended id (world.suspended id ++ [suspended])

/-- `mining.submit` up to the validation. -/
def beginSubmit (id : ℕ) (params : List JsonValue) : AwaitWorld :=
  match world.pool.clients id with
  | some client =>
    if client.connectionClosed then world
    else if !client.stratumInitialized then
      { world with pool := world.pool.setClient id client.endSocket }
    else world.suspend id (.submitValidation params)
  | none => world

/-- `mining.suggest_difficulty` up to the validation. -/
def beginSuggestDifficulty (id : ℕ) (suggestedDifficulty : ℚ) : AwaitWorld :=
  match world.pool.clients id with
  | some client =>
    if client.connectionClosed || client.usedSuggestedDifficulty then world
    else world.suspend id (.suggestValidation suggestedDifficulty)
  | none => world

/-- A suspended call goes on. -/
def resume (host : Externals) (config : Sv1Config) (id k : ℕ) (succeeded : Bool)
    (answer : Option String) : AwaitWorld × List (ℕ × Sv1Event) :=
  match world.pool.clients id, (world.suspended id)[k]? with
  | some client, some call =>
    let (client, next, events) :=
      client.resume host config world.pool.service succeeded answer call
    let rest := (world.suspended id).eraseIdx k
    ({ world with pool := world.pool.setClient id client }.setSuspended id
        (rest ++ next.toList), events.map (id, ·))
  | _, _ => (world, [])

end AwaitWorld

/-- One step of the pool, in which submissions and suggestions stop at every `await`. -/
def awaitStep (host : Externals) (config : Sv1Config) (world : AwaitWorld) :
    AwaitInput → AwaitWorld × List (ℕ × Sv1Event)
  | .begin (.submit id params _ _) => (world.beginSubmit id params, [])
  | .begin (.suggestDifficulty id suggestedDifficulty) =>
    (world.beginSuggestDifficulty id suggestedDifficulty, [])
  | .begin input =>
    let (pool, events) := sv1Step host config world.pool input
    ({ world with pool }, events)
  | .resume id k succeeded answer => world.resume host config id k succeeded answer

/-- The Stratum V1 connections as a state machine, at the level of awaits. -/
def awaitMachine (host : Externals) (config : Sv1Config) :
    Machine AwaitWorld AwaitInput (ℕ × Sv1Event) :=
  ⟨awaitStep host config⟩

end PublicPool.Sv1
