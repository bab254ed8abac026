import PublicPool.Datum.Codec
import PublicPool.Lib.Runs
import PublicPool.Lib.Utf8

/-!
# `PublicPool.Datum.Stream`: what a DATUM connection receives

`models/datum/datum-crypto.ts` as far as it opens what a client sends, and the data handler of
`handleSocket` in `services/datum.service.ts`. The frame reader and the session have a header key
each. The reader's moves on with every frame it parses, the session's with every payload it
decrypts, and the data handler copies the second over the first before it feeds the reader and
after every frame.

Each data event has a loop of its own over the frames it completes. The loop decrypts a frame,
calls its handler and waits for it; `DatumConnection.loops` has the frames that wait in these
loops. Of the handlers only the one of the handshake changes the session, and it does so before
its first await.

`DatumSodium` is what the session takes from libsodium, with the server's own keys already in
place.
-/

set_option autoImplicit false

namespace PublicPool.Datum

open Lib

/-! ### The session -/

structure DatumSodium where
  /-- `crypto_box_seal_open` with the identity keys. -/
  sealOpen : Bytes → Option Bytes
  /-- `crypto_sign_verify_detached` of a signature, a message and a public key. -/
  signVerifyDetached : Bytes → Bytes → Bytes → Bool
  /-- `crypto_box_beforenm` of a public key, with the session's secret key. -/
  boxBeforenm : Bytes → Bytes
  /-- `crypto_box_open_easy_afternm` of a payload, a nonce and a shared secret. -/
  boxOpenEasyAfternm : Bytes → Bytes → Bytes → Option Bytes

/-- `crypto_sign_BYTES`. -/
def cryptoSignBytes : ℕ := 64

structure DatumHello where
  identityEdPublicKey : Bytes
  identityXPublicKey : Bytes
  sessionEdPublicKey : Bytes
  sessionXPublicKey : Bytes
  userAgent : List Char
  nextHeaderKey : UInt32
  deriving DecidableEq

/-- A nonce is written as numbers of four bytes each. -/
abbrev DatumNonce := List UInt32

def DatumNonce.bytes (nonce : DatumNonce) : Bytes :=
  nonce.flatMap fun word => putLE 4 word.toNat

structure DatumCryptoSession where
  initialized : Bool := false
  sharedSecret : Option Bytes := none
  receiveNonce : Option DatumNonce := none
  sendNonce : Option DatumNonce := none
  receiveHeaderKey : UInt32 := datumInitialHeaderKey
  sendHeaderKey : UInt32 := datumInitialHeaderKey
  clientIdentityXPublicKey : Option Bytes := none
  deriving DecidableEq

/-- The numbers of the receiver's nonce, from a key that is carried along. -/
def receiverNonce : ℕ → UInt32 → DatumNonce
  | 0, _ => []
  | n + 1, key =>
    let word := datumHeaderXorFeedback (key - 42)
    word :: receiverNonce n (~~~word)

/-- Add one, with carry. -/
def incrementNonce : DatumNonce → DatumNonce
  | [] => []
  | word :: words => if word + 1 ≠ 0 then (word + 1) :: words else 0 :: incrementNonce words

namespace DatumCryptoSession

/-- The six numbers of each nonce. The client's `send` is the server's `receive`. -/
def initializeNonces (session : DatumCryptoSession) (nextHeaderKey : UInt32)
    (clientSessionEdPublicKey : Bytes) : DatumCryptoSession :=
  let word := UInt32.ofNat (leValue ((clientSessionEdPublicKey.drop 7).take 4))
  let receiver := receiverNonce 6 ((nextHeaderKey - 42) ^^^ word)
  let sender := receiver.map (· ^^^ 0x57575757)
  { session with sendNonce := some receiver, receiveNonce := some sender }

/-- The fields of a hello whose signature has been verified. -/
def parseHello (signedPayload : Bytes) : Option DatumHello :=
  let fields := signedPayload.drop 128
  let userAgent := fields.takeWhile (· ≠ 0)
  match (fields.dropWhile (· ≠ 0)).drop 1 with
  | [] => none
  | delimiter :: key =>
    if delimiter ≠ 0xfe then none
    else if key.length < 4 then none
    else some {
      identityEdPublicKey := signedPayload.take 32
      identityXPublicKey := (signedPayload.drop 32).take 32
      sessionEdPublicKey := (signedPayload.drop 64).take 32
      sessionXPublicKey := (signedPayload.drop 96).take 32
      userAgent := Utf8.decode userAgent
      nextHeaderKey := UInt32.ofNat (leValue (key.take 4)) }

def openHandshake (sodium : DatumSodium) (session : DatumCryptoSession) (framePayload : Bytes) :
    Option (DatumHello × DatumCryptoSession) := do
  let opened ← sodium.sealOpen framePayload
  if opened.length < 32 * 4 + 1 + 4 + cryptoSignBytes then none
  else
    let signature := opened.drop (opened.length - cryptoSignBytes)
    let signedPayload := opened.take (opened.length - cryptoSignBytes)
    if !sodium.signVerifyDetached signature signedPayload (signedPayload.take 32) then none
    else
      let hello ← parseHello signedPayload
      let session := { session with
        clientIdentityXPublicKey := some hello.identityXPublicKey
        sharedSecret := some (sodium.boxBeforenm hello.sessionXPublicKey)
        receiveHeaderKey := datumHeaderXorFeedback hello.nextHeaderKey
        sendHeaderKey := datumHeaderXorFeedback (~~~hello.nextHeaderKey) }
      return (hello, { session.initializeNonces hello.nextHeaderKey hello.sessionEdPublicKey with
        initialized := true })

def decryptChannelPayload (sodium : DatumSodium) (session : DatumCryptoSession)
    (payload : Bytes) : Option (Bytes × DatumCryptoSession) :=
  match session.initialized, session.sharedSecret, session.receiveNonce with
  | true, some sharedSecret, some receiveNonce => do
    let opened ← sodium.boxOpenEasyAfternm payload receiveNonce.bytes sharedSecret
    return (opened, { session with
      receiveNonce := some (incrementNonce receiveNonce)
      receiveHeaderKey := datumHeaderXorFeedback session.receiveHeaderKey })
  | _, _, _ => none

end DatumCryptoSession

/-! ### The connection -/

/-- `DatumProtocolCommand.HANDSHAKE_INIT`. -/
def handshakeInit : ℕ := 0x01

structure DatumConnection where
  reader : DatumFrameReader := {}
  session : DatumCryptoSession := {}
  closed : Bool := false
  /-- For each loop that waits for a handler, the frames after the one that is handled. -/
  loops : List (List DatumFrame) := []
  deriving DecidableEq

inductive DatumStreamInput
  | data (data : Bytes)
  /-- A handler ends. -/
  | resumes (i : ℕ)
  /-- A handler fails. -/
  | fails (i : ℕ)
  | closes
  deriving DecidableEq

inductive DatumStreamEvent
  | headerDecoded (xorKey : UInt32)
  | frame (frame : DatumFrame)
  /-- `openHandshake` has opened the hello. -/
  | handshakeOpened
  /-- `decryptChannelPayload` gave this. -/
  | decrypted (payload : Bytes)
  /-- A header, a payload or a handshake could not be read. -/
  | failed
  deriving DecidableEq

def ReadEvent.toStreamEvent : ReadEvent → DatumStreamEvent
  | .headerDecoded xorKey => .headerDecoded xorKey
  | .frame f => .frame f

/-- The frames of a reading. -/
def readFramesOf (events : List ReadEvent) : List DatumFrame :=
  events.filterMap fun
    | .frame frame => some frame
    | .headerDecoded _ => none

variable (sodium : DatumSodium)

/-- A loop turns to a frame: the payload is decrypted, and the handler runs to its first
await. -/
def takeUp (session : DatumCryptoSession) (frame : DatumFrame) :
    Option (DatumCryptoSession × List DatumStreamEvent) := do
  let (payload, session, events) ←
    if frame.header.isEncryptedChannel then
      (session.decryptChannelPayload sodium frame.payload).map fun (payload, session) =>
        (payload, session, [DatumStreamEvent.decrypted payload])
    else some (frame.payload, session, [])
  if frame.header.protoCmd = handshakeInit then
    let (_, session) ← session.openHandshake sodium payload
    return (session, events ++ [.handshakeOpened])
  else return (session, events)

namespace DatumConnection

/-- The data handler, up to its first await. -/
def handleData (c : DatumConnection) (data : Bytes) : DatumConnection × List DatumStreamEvent :=
  match (c.reader.setHeaderXorKey c.session.receiveHeaderKey).feed data with
  | none => ({ c with closed := true }, [.failed])
  | some (reader, events) =>
    match readFramesOf events with
    | [] => ({ c with reader }, events.map (·.toStreamEvent))
    | frame :: frames =>
      match takeUp sodium c.session frame with
      | none => ({ c with reader, closed := true }, events.map (·.toStreamEvent) ++ [.failed])
      | some (session, taken) =>
        ({ c with reader, session, loops := c.loops ++ [frames] },
          events.map (·.toStreamEvent) ++ taken)

/-- The data handler after the await of a handler. -/
def resume (c : DatumConnection) (i : ℕ) : DatumConnection × List DatumStreamEvent :=
  match c.loops[i]? with
  | none => (c, [])
  | some frames =>
    let reader := c.reader.setHeaderXorKey c.session.receiveHeaderKey
    match frames with
    | [] => ({ c with reader, loops := c.loops.eraseIdx i }, [])
    | frame :: frames =>
      match takeUp sodium c.session frame with
      | none => ({ c with reader, closed := true, loops := c.loops.eraseIdx i }, [.failed])
      | some (session, taken) => ({ c with reader, session, loops := c.loops.set i frames }, taken)

end DatumConnection

def datumStream : Machine DatumConnection DatumStreamInput DatumStreamEvent where
  step c
    | .data data => if c.closed then (c, []) else c.handleData sodium data
    | .resumes i => c.resume sodium i
    | .fails i => ({ c with closed := true, loops := c.loops.eraseIdx i }, [])
    | .closes => ({ c with closed := true }, [])

end PublicPool.Datum
