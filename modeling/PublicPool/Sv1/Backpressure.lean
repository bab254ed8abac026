import PublicPool.Lib.Runs
import PublicPool.Types

/-!
# `PublicPool.Sv1.Backpressure`: listeners that stop accepting under load

The listeners of `services/stratum-v1.service.ts`: `listen`, `checkBackpressure`,
`pauseAccepting` and `resumeAccepting`, as a machine whose inputs are the timer that starts the
listeners and the checks with what they read of the event loop and of the memory.

A server is the number of servers created before it. Creating a secure server reads the key and
the certificate; when that throws, nothing catches it, and the process is over.
-/

set_option autoImplicit false

namespace PublicPool.Sv1

open Lib

/-! ### Thresholds -/

/-- `getPositiveIntegerEnv`, of what `parseInt` gives if it is finite. -/
def getPositiveIntegerEnv (configured : Option ℤ) (fallback : ℤ) : ℤ :=
  match configured with
  | some n => if 0 < n then n else fallback
  | none => fallback

/-- The thresholds as they are configured. -/
structure BackpressureEnv where
  eventLoopP95Ms : Option ℤ := none
  eventLoopResumeP95Ms : Option ℤ := none
  rssMb : Option ℤ := none
  resumeRssMb : Option ℤ := none
  healthyChecks : Option ℤ := none

namespace BackpressureEnv

variable (env : BackpressureEnv)

def getBackpressureEventLoopP95Ms : ℤ := getPositiveIntegerEnv env.eventLoopP95Ms 2000

def getBackpressureResumeEventLoopP95Ms : ℤ := getPositiveIntegerEnv env.eventLoopResumeP95Ms 250

def getBackpressureRssMb : ℤ := getPositiveIntegerEnv env.rssMb 2500

def getBackpressureResumeRssMb : ℤ := getPositiveIntegerEnv env.resumeRssMb 2000

def getBackpressureHealthyChecks : ℤ := getPositiveIntegerEnv env.healthyChecks 3

end BackpressureEnv

/-- What a check reads: `getEventLoopP95Ms()` and the memory in megabytes, both rounded. -/
structure LoadReading where
  eventLoopP95Ms : ℤ
  rssMb : ℤ
  deriving DecidableEq

/-- `overloaded` of `checkBackpressure`. -/
def LoadReading.overloaded (env : BackpressureEnv) (reading : LoadReading) : Bool :=
  reading.eventLoopP95Ms ≥ env.getBackpressureEventLoopP95Ms
    || reading.rssMb ≥ env.getBackpressureRssMb

/-- `healthy` of `checkBackpressure`, which is only looked at when there is no overload. -/
def LoadReading.healthy (env : BackpressureEnv) (reading : LoadReading) : Bool :=
  reading.eventLoopP95Ms ≤ env.getBackpressureResumeEventLoopP95Ms
    && reading.rssMb ≤ env.getBackpressureResumeRssMb

/-! ### Listeners -/

structure StratumListenerState where
  port : ℕ
  secure : Bool
  payoutMode : PayoutMode
  server : Option ℕ
  paused : Bool
  deriving DecidableEq

inductive ListenerEvent
  | listening (server port : ℕ)
  | closed (server : ℕ)
  /-- The process ends with an exception. -/
  | exception
  deriving DecidableEq

/-- `StratumV1Service`, as far as its listeners go. -/
structure StratumListeners where
  listeners : List StratumListenerState := []
  healthyBackpressureChecks : ℤ := 0
  /-- How many servers were created. -/
  created : ℕ := 0
  /-- The timer of `onModuleInit` has run. -/
  started : Bool := false
  /-- The process is over. -/
  ended : Bool := false
  deriving DecidableEq

namespace StratumListenerState

/-- `listen(listener)`, with the number of the server that it creates. `keys` says whether the
files of a secure server can be read. -/
def listen (keys : Bool) (created : ℕ) (listener : StratumListenerState) :
    Option (StratumListenerState × ℕ × List ListenerEvent) :=
  if listener.server.isSome then some (listener, created, [])
  else if listener.secure ∧ ¬ keys then none
  else some ({ listener with server := some created, paused := false }, created + 1,
    [.listening created listener.port])

/-- The body of the loop of `pauseAccepting`. -/
def pause (listener : StratumListenerState) : StratumListenerState × List ListenerEvent :=
  if listener.paused then (listener, [])
  else
    match listener.server with
    | none => (listener, [])
    | some server => ({ listener with server := none, paused := true }, [.closed server])

/-- The body of the loop of `resumeAccepting`. -/
def resume (keys : Bool) (created : ℕ) (listener : StratumListenerState) :
    Option (StratumListenerState × ℕ × List ListenerEvent) :=
  if ¬ listener.paused ∨ listener.server.isSome then some (listener, created, [])
  else listener.listen keys created

end StratumListenerState

/-- A loop over listeners, each of which may create a server. -/
def forListeners
    (body : ℕ → StratumListenerState → Option (StratumListenerState × ℕ × List ListenerEvent)) :
    ℕ → List StratumListenerState → Option (List StratumListenerState × ℕ × List ListenerEvent)
  | created, [] => some ([], created, [])
  | created, listener :: listeners => do
    let (listener, created, events) ← body created listener
    let (listeners, created, more) ← forListeners body created listeners
    return (listener :: listeners, created, events ++ more)

namespace StratumListeners

/-- What is left when a timer throws. -/
def exception (s : StratumListeners) : StratumListeners × List ListenerEvent :=
  ({ s with ended := true }, [.exception])

/-- `startSocketServer` and `startSecureSocketServer` for every configured port. -/
def start (s : StratumListeners) (ports : List (ℕ × Bool × PayoutMode)) (keys : Bool) :
    StratumListeners × List ListenerEvent :=
  let added := ports.map fun (port, secure, payoutMode) =>
    { port, secure, payoutMode, server := none, paused := false : StratumListenerState }
  match forListeners (StratumListenerState.listen keys) s.created added with
  | some (listeners, created, events) =>
    ({ s with listeners := s.listeners ++ listeners, created, started := true }, events)
  | none => s.exception

def pauseAccepting (s : StratumListeners) : StratumListeners × List ListenerEvent :=
  ({ s with listeners := s.listeners.map fun listener => listener.pause.1 },
    s.listeners.flatMap fun listener => listener.pause.2)

def checkBackpressure (env : BackpressureEnv) (s : StratumListeners) (reading : LoadReading)
    (keys : Bool) : StratumListeners × List ListenerEvent :=
  let paused := s.listeners.any (·.paused)
  if reading.overloaded env then
    let s := { s with healthyBackpressureChecks := 0 }
    if ¬ paused then s.pauseAccepting else (s, [])
  else if ¬ paused then (s, [])
  else if ¬ reading.healthy env then ({ s with healthyBackpressureChecks := 0 }, [])
  else
    let s := { s with healthyBackpressureChecks := s.healthyBackpressureChecks + 1 }
    if s.healthyBackpressureChecks ≥ env.getBackpressureHealthyChecks then
      match forListeners (StratumListenerState.resume keys) s.created s.listeners with
      | some (listeners, created, events) =>
        ({ s with listeners, created, healthyBackpressureChecks := 0 }, events)
      | none => s.exception
    else (s, [])

end StratumListeners

/-! ### Runs -/

inductive ListenerInput
  /-- The timer that starts the listeners, with the configured ports. -/
  | start (ports : List (ℕ × Bool × PayoutMode)) (keys : Bool)
  | check (reading : LoadReading) (keys : Bool)
  deriving DecidableEq

/-- The timer runs once, and nothing runs in a process that is over. -/
def listenersMachine (env : BackpressureEnv) :
    Machine StratumListeners ListenerInput ListenerEvent where
  step s input :=
    if s.ended then (s, [])
    else
      match input with
      | .start ports keys => if s.started then (s, []) else s.start ports keys
      | .check reading keys => s.checkBackpressure env reading keys

end PublicPool.Sv1
