import PublicPool.Datum.Stream

/-!
# `PublicPool.Datum.Channel`: both directions of a DATUM session

The sending half of `models/datum/datum-crypto.ts` next to the receiving half in `Datum.Stream`.
Each direction has a nonce of its own, and both encrypt with the one shared secret of the
handshake. `channelMachine` is what a session does after its handshake: it sends and receives
frames in any order.

A frame that is too long for a header is refused after its payload was encrypted. Nothing of it is
sent, and its nonce is not counted.
-/

set_option autoImplicit false

namespace PublicPool.Datum

open Lib (Machine)

/-- `DatumSodium` with the part that a session sends with. -/
structure DatumChannelSodium extends DatumSodium where
  /-- `crypto_sign_detached` of a message, with the session's secret key. -/
  signDetached : Bytes → Bytes
  /-- `crypto_box_easy_afternm` of a payload, a nonce and a shared secret. -/
  boxEasyAfternm : Bytes → Bytes → Bytes → Bytes

variable (sodium : DatumChannelSodium)

def DatumCryptoSession.encryptChannelFrame (session : DatumCryptoSession) (protoCmd : ℕ)
    (payload : Bytes) (signed : Bool) : Option (Bytes × DatumCryptoSession) :=
  match session.initialized, session.sharedSecret, session.sendNonce with
  | true, some sharedSecret, some sendNonce => do
    let signedPayload := if signed then payload ++ sodium.signDetached payload else payload
    let encrypted := sodium.boxEasyAfternm signedPayload sendNonce.bytes sharedSecret
    let frame ← encodeDatumFrame
      { header := {
          cmdLen := encrypted.length
          reserved := 0
          isSigned := signed
          isEncryptedPubkey := false
          isEncryptedChannel := true
          protoCmd }
        payload := encrypted } session.sendHeaderKey
    return (frame, { session with
      sendNonce := some (incrementNonce sendNonce)
      sendHeaderKey := datumHeaderXorFeedback session.sendHeaderKey })
  | _, _, _ => none

/-- What a session does after its handshake. -/
inductive ChannelInput
  | send (protoCmd : ℕ) (payload : Bytes) (signed : Bool)
  | receive (payload : Bytes)
  deriving DecidableEq

inductive ChannelDirection
  | sent
  | received
  deriving DecidableEq, Repr

/-- A frame was encrypted or decrypted. -/
structure ChannelEvent where
  direction : ChannelDirection
  nonce : Bytes
  sharedSecret : Bytes
  deriving DecidableEq

/-- The event of a frame, with the nonce and the secret that were in place. -/
def channelEvent (direction : ChannelDirection) (nonce : Option DatumNonce)
    (sharedSecret : Option Bytes) : ChannelEvent where
  direction := direction
  nonce := (nonce.getD []).bytes
  sharedSecret := sharedSecret.getD []

/-- One frame. One that cannot be sent or decrypted throws and leaves the session as it is. -/
def channelStep (session : DatumCryptoSession) :
    ChannelInput → DatumCryptoSession × List ChannelEvent
  | .send protoCmd payload signed =>
    match session.encryptChannelFrame sodium protoCmd payload signed with
    | none => (session, [])
    | some (_, next) => (next, [channelEvent .sent session.sendNonce session.sharedSecret])
  | .receive payload =>
    match session.decryptChannelPayload sodium.toDatumSodium payload with
    | none => (session, [])
    | some (_, next) => (next, [channelEvent .received session.receiveNonce session.sharedSecret])

/-- A session as a state machine that tells which nonces it uses. -/
def channelMachine : Machine DatumCryptoSession ChannelInput ChannelEvent :=
  ⟨channelStep sodium⟩

end PublicPool.Datum
