import PublicPool.Sv2.Noise

/-!
# `PublicPool.Sv2.Handshake`: a connection before its first frame

The `handleHandshakeData` of the three kinds of SV2 connections, with the part of
`handleSocketData` that chooses it. A connection collects the bytes it receives until the
initiator's first act is complete, processes the act, writes the answer, and gives everything
after the act to the frame reader, which from then on takes the bytes itself.

A call of `handleHandshakeData` that waits is a `HandshakeCall`, and other data may come in
while it does. What the frame reader makes of its bytes is not part of this model; a connection
that fails there is closed, which an input of its own stands for.
-/

set_option autoImplicit false

namespace PublicPool.Sv2

open Lib

def sv2NoiseAct1Size : ℕ := 64

/-- The await a call waits at. -/
inductive HandshakeAwait
  /-- `noiseSession.processAct1`. -/
  | processAct1
  /-- `writeRaw(act2)`. -/
  | writeAct2
  deriving DecidableEq, Repr

structure HandshakeCall where
  await : HandshakeAwait
  /-- What came in together with the end of the first act. -/
  remainder : Bytes
  deriving DecidableEq

structure HandshakeConnection where
  handshakeBuffer : Bytes := []
  /-- Only mining connections have this flag. -/
  processingHandshake : Bool := false
  handshakeComplete : Bool := false
  destroyed : Bool := false
  /-- The calls that wait. -/
  suspended : List HandshakeCall := []
  deriving DecidableEq

inductive HandshakeEvent
  /-- The connection takes in some bytes. -/
  | arrived (data : Bytes)
  /-- `noiseSession.processAct1` is called. -/
  | act1Processed (act1 : Bytes)
  /-- `frameReader.feed` is called. -/
  | fed (data : Bytes)
  deriving DecidableEq

namespace HandshakeConnection

/-- The first act is cut off, and the call waits for its answer. -/
def beginHandshake (c : HandshakeConnection) : HandshakeConnection × List HandshakeEvent :=
  let act1 := c.handshakeBuffer.take sv2NoiseAct1Size
  let remainder := c.handshakeBuffer.drop sv2NoiseAct1Size
  ({ c with
      handshakeBuffer := []
      suspended := c.suspended ++ [{ await := .processAct1, remainder }] },
    [.act1Processed act1])

/-- The end of `handleHandshakeData`, which is the same for all of them but for the flag of the
mining connections. -/
def completeHandshake (c : HandshakeConnection) (remainder : Bytes) :
    HandshakeConnection × List HandshakeEvent :=
  ({ c with handshakeComplete := true, processingHandshake := false },
    if remainder.length > 0 then [.fed remainder] else [])

/-- `handleHandshakeData` where nothing keeps a second call from starting. -/
def handleHandshakeDataUnguarded (c : HandshakeConnection) (data : Bytes) :
    HandshakeConnection × List HandshakeEvent :=
  let c := { c with handshakeBuffer := c.handshakeBuffer ++ data }
  if c.handshakeBuffer.length < sv2NoiseAct1Size then (c, [])
  else c.beginHandshake

end HandshakeConnection

def StratumV2Client.handleHandshakeData (c : HandshakeConnection) (data : Bytes) :
    HandshakeConnection × List HandshakeEvent :=
  let c := { c with handshakeBuffer := c.handshakeBuffer ++ data }
  if c.processingHandshake || c.handshakeBuffer.length < sv2NoiseAct1Size then (c, [])
  else { c with processingHandshake := true }.beginHandshake

def Sv2JobDeclarationConnection.handleHandshakeData :
    HandshakeConnection → Bytes → HandshakeConnection × List HandshakeEvent :=
  HandshakeConnection.handleHandshakeDataUnguarded

def Sv2TemplateDistributionConnection.handleHandshakeData :
    HandshakeConnection → Bytes → HandshakeConnection × List HandshakeEvent :=
  HandshakeConnection.handleHandshakeDataUnguarded

inductive Sv2ConnectionKind
  | mining
  | jobDeclaration
  | templateDistribution
  deriving DecidableEq, Repr

def Sv2ConnectionKind.handleHandshakeData :
    Sv2ConnectionKind → HandshakeConnection → Bytes → HandshakeConnection × List HandshakeEvent
  | .mining => StratumV2Client.handleHandshakeData
  | .jobDeclaration => Sv2JobDeclarationConnection.handleHandshakeData
  | .templateDistribution => Sv2TemplateDistributionConnection.handleHandshakeData

namespace HandshakeConnection

/-- `handleSocketData`. -/
def handleSocketData (kind : Sv2ConnectionKind) (c : HandshakeConnection) (data : Bytes) :
    HandshakeConnection × List HandshakeEvent :=
  if c.destroyed then (c, [])
  else
    let (c, events) :=
      if !c.handshakeComplete then kind.handleHandshakeData c data else (c, [.fed data])
    (c, .arrived data :: events)

/-- A call goes on after the await it waits at. -/
def resume (c : HandshakeConnection) (i : ℕ) : HandshakeConnection × List HandshakeEvent :=
  match c.suspended[i]? with
  | none => (c, [])
  | some { await := .processAct1, remainder } =>
    ({ c with suspended := c.suspended.set i { await := .writeAct2, remainder } }, [])
  | some { await := .writeAct2, remainder } =>
    { c with suspended := c.suspended.eraseIdx i }.completeHandshake remainder

/-- What a call waits for fails, and the connection is closed. -/
def reject (c : HandshakeConnection) (i : ℕ) : HandshakeConnection :=
  if i < c.suspended.length then
    { c with suspended := c.suspended.eraseIdx i, destroyed := true }
  else c

end HandshakeConnection

inductive HandshakeInput
  | data (data : Bytes)
  | resumes (i : ℕ)
  | rejects (i : ℕ)
  /-- The socket closes, or the connection fails for another reason. -/
  | closes
  deriving DecidableEq

def handshakeMachine (kind : Sv2ConnectionKind) :
    Machine HandshakeConnection HandshakeInput HandshakeEvent where
  step c
    | .data data => c.handleSocketData kind data
    | .resumes i => c.resume i
    | .rejects i => (c.reject i, [])
    | .closes => ({ c with destroyed := true }, [])

end PublicPool.Sv2
