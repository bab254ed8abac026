import PublicPool.Lib.Runs
import PublicPool.Sv2.Frame

/-!
# `PublicPool.Sv2.Noise`: the Noise NX handshake and the encrypted transport

`models/sv2/sv2-noise.ts`: the cipher state, the certificate payload, the responder that the
pool's connections use (`Sv2NoiseSession`) and the initiator beside it (`Sv2NoiseInitiator`).

`NoiseHost` is what the module takes from node's `crypto` and from the EllSwift package. A key
pair is drawn by `keygen`, whose argument stands for the entropy it draws it with. The two
classes repeat the members and the helpers of the Noise symmetric state; here both extend
`SymmetricState`.

A function that throws is an `Option`. What a failed handshake leaves behind in the session is
not modelled: the connections that use it are given up.
-/

set_option autoImplicit false

namespace PublicPool.Sv2

open Lib

def sv2EllswiftKeySize : ℕ := 64

def sv2SignatureNoiseMsgSize : ℕ := 74

inductive Sv2CipherAlgorithm
  | chacha20Poly1305
  | aes256Gcm
  deriving DecidableEq, Repr

def sv2NoiseProtocolName : String := "Noise_NX_Secp256k1+EllSwift_ChaChaPoly_SHA256"

def sv2NoiseProtocolNameAesgcm : String := "Noise_NX_Secp256k1+EllSwift_AESGCM_SHA256"

def getNoiseProtocolName : Sv2CipherAlgorithm → String
  | .aes256Gcm => sv2NoiseProtocolNameAesgcm
  | .chacha20Poly1305 => sv2NoiseProtocolName

/-- `Sv2ServerKeypair`, and what `keygen` gives: the public key is EllSwift-encoded. -/
structure Sv2ServerKeypair where
  privateKey : Bytes
  publicKey : Bytes
  publicKey_length : publicKey.length = sv2EllswiftKeySize

/-- What the handshake and the transport take from outside the repository. -/
structure NoiseHost where
  sha256 : Bytes → Digest
  /-- HMAC-SHA256 of some data under a key. -/
  hmacHash : Bytes → Bytes → Digest
  /-- `createCipheriv`, `setAAD`, `update` and `getAuthTag`: the ciphertext and its tag, for a
  key, a nonce, the associated data and a plaintext. -/
  createCipheriv : Sv2CipherAlgorithm → Bytes → Bytes → Bytes → Bytes → Bytes × Bytes
  /-- `createDecipheriv`, `setAAD`, `setAuthTag`, `update` and `final`, which throws when the
  tag is not that of the ciphertext. -/
  createDecipheriv : Sv2CipherAlgorithm → Bytes → Bytes → Bytes → Bytes → Bytes → Option Bytes
  keygen : ℕ → Sv2ServerKeypair
  /-- The shared secret of our private key, their public key, our public key and whether we
  are initiating. -/
  getSharedSecretBip324 : Bytes → Bytes → Bytes → Bool → Bytes
  /-- `process.env.SV2_NONCE_LE === 'true'`. -/
  sv2NonceLe : Bool

variable (host : NoiseHost)

/-- The two outputs of the key derivation. -/
def hkdf2 (chainingKey ikm : Bytes) : Bytes × Bytes :=
  let tempKey := (host.hmacHash chainingKey ikm).bytes
  let out1 := (host.hmacHash tempKey [0x01]).bytes
  let out2 := (host.hmacHash tempKey (out1 ++ [0x02])).bytes
  (out1, out2)

/-! ### CipherState -/

/-- Four zero bytes and the counter. The write throws on a counter of more than 64 bits. -/
def encodeNonce (n : ℕ) (algorithm : Sv2CipherAlgorithm) : Option Bytes :=
  if n < 2 ^ 64 then
    some (List.replicate 4 0 ++
      if algorithm = .aes256Gcm ∧ !host.sv2NonceLe then (putLE 8 n).reverse else putLE 8 n)
  else none

structure Sv2CipherState where
  k : Option Bytes := none
  n : ℕ := 0
  algorithm : Sv2CipherAlgorithm
  deriving DecidableEq

namespace Sv2CipherState

def initializeKey (cipher : Sv2CipherState) (key : Bytes) : Option Sv2CipherState :=
  if key.length ≠ 32 then none
  else some { cipher with k := some key, n := 0 }

/-- Without a key, the plaintext. -/
def encryptWithAd (cipher : Sv2CipherState) (ad plaintext : Bytes) :
    Option (Bytes × Sv2CipherState) :=
  match cipher.k with
  | none => some (plaintext, cipher)
  | some k => do
    let nonce ← encodeNonce host cipher.n cipher.algorithm
    let (encrypted, tag) := host.createCipheriv cipher.algorithm k nonce ad plaintext
    return (encrypted ++ tag, { cipher with n := cipher.n + 1 })

/-- Without a key, the ciphertext. -/
def decryptWithAd (cipher : Sv2CipherState) (ad ciphertext : Bytes) :
    Option (Bytes × Sv2CipherState) :=
  match cipher.k with
  | none => some (ciphertext, cipher)
  | some k =>
    if ciphertext.length < sv2MacSize then none
    else do
      let nonce ← encodeNonce host cipher.n cipher.algorithm
      let encData := ciphertext.take (ciphertext.length - sv2MacSize)
      let tag := ciphertext.drop (ciphertext.length - sv2MacSize)
      let decrypted ← host.createDecipheriv cipher.algorithm k nonce ad encData tag
      return (decrypted, { cipher with n := cipher.n + 1 })

end Sv2CipherState

/-! ### The certificate -/

structure Sv2SignatureNoiseMessage where
  version : UInt16
  /-- A unix timestamp, as is `notValidAfter`. -/
  validFrom : UInt32
  notValidAfter : UInt32
  signature : Bytes
  signature_length : signature.length = 64

theorem Sv2SignatureNoiseMessage.ext {a b : Sv2SignatureNoiseMessage}
    (hversion : a.version = b.version) (hfrom : a.validFrom = b.validFrom)
    (hafter : a.notValidAfter = b.notValidAfter) (hsig : a.signature = b.signature) : a = b := by
  cases a
  cases b
  simp_all

def serializeSignatureNoiseMessage (msg : Sv2SignatureNoiseMessage) : Bytes :=
  putLE 2 msg.version.toNat ++ putLE 4 msg.validFrom.toNat ++ putLE 4 msg.notValidAfter.toNat
    ++ msg.signature

def deserializeSignatureNoiseMessage (buf : Bytes) : Option Sv2SignatureNoiseMessage :=
  if h : buf.length < sv2SignatureNoiseMsgSize then none
  else some {
    version := UInt16.ofNat (leValue (buf.take 2))
    validFrom := UInt32.ofNat (leValue ((buf.drop 2).take 4))
    notValidAfter := UInt32.ofNat (leValue ((buf.drop 6).take 4))
    signature := (buf.drop 10).take 64
    signature_length := by
      have hlen : 74 ≤ buf.length := Nat.le_of_not_lt h
      rw [List.length_take, List.length_drop]
      omega }

/-! ### The symmetric state -/

/-- The members the two sides of the handshake have in common. -/
structure SymmetricState where
  /-- The handshake hash. -/
  h : Bytes
  /-- The chaining key. -/
  ck : Bytes
  tempCipher : Sv2CipherState
  sendCipher : Sv2CipherState
  recvCipher : Sv2CipherState
  handshakeComplete : Bool := false
  cipherAlgorithm : Sv2CipherAlgorithm
  deriving DecidableEq

namespace SymmetricState

/-- What both constructors begin with. -/
def new (cipherAlgorithm : Sv2CipherAlgorithm) (prologue : Bytes) : SymmetricState :=
  let protocolName := (getNoiseProtocolName cipherAlgorithm).toUTF8.toList
  let h := if protocolName.length ≤ 32 then fit 32 protocolName else (host.sha256 protocolName).bytes
  { h := (host.sha256 (h ++ prologue)).bytes
    ck := h
    tempCipher := { algorithm := cipherAlgorithm }
    sendCipher := { algorithm := cipherAlgorithm }
    recvCipher := { algorithm := cipherAlgorithm }
    cipherAlgorithm }

def mixHash (s : SymmetricState) (data : Bytes) : SymmetricState :=
  { s with h := (host.sha256 (s.h ++ data)).bytes }

def mixKey (s : SymmetricState) (ikm : Bytes) : Option SymmetricState := do
  let (newCk, tempK) := hkdf2 host s.ck ikm
  let tempCipher ← Sv2CipherState.initializeKey { algorithm := s.cipherAlgorithm } tempK
  return { s with ck := newCk, tempCipher }

def encryptAndHash (s : SymmetricState) (plaintext : Bytes) : Option (Bytes × SymmetricState) := do
  let (ciphertext, tempCipher) ← s.tempCipher.encryptWithAd host s.h plaintext
  return (ciphertext, mixHash host { s with tempCipher } ciphertext)

def decryptAndHash (s : SymmetricState) (ciphertext : Bytes) : Option (Bytes × SymmetricState) := do
  let (plaintext, tempCipher) ← s.tempCipher.decryptWithAd host s.h ciphertext
  return (plaintext, mixHash host { s with tempCipher } ciphertext)

def ecdh (localPriv localPub remotePub : Bytes) (weAreInitiator : Bool) : Bytes :=
  host.getSharedSecretBip324 localPriv remotePub localPub weAreInitiator

/-- `encrypt` of both sides. -/
def encrypt (s : SymmetricState) (plaintext : Bytes) : Option (Bytes × SymmetricState) :=
  if !s.handshakeComplete then none
  else (s.sendCipher.encryptWithAd host [] plaintext).map fun (ciphertext, sendCipher) =>
    (ciphertext, { s with sendCipher })

/-- `decrypt` of both sides. -/
def decrypt (s : SymmetricState) (ciphertext : Bytes) : Option (Bytes × SymmetricState) :=
  if !s.handshakeComplete then none
  else (s.recvCipher.decryptWithAd host [] ciphertext).map fun (plaintext, recvCipher) =>
    (plaintext, { s with recvCipher })

end SymmetricState

/-! ### The responder -/

structure Sv2NoiseConfig where
  staticKeypair : Sv2ServerKeypair
  certificateMessage : Sv2SignatureNoiseMessage

structure Sv2NoiseSession extends SymmetricState where
  config : Sv2NoiseConfig
  serverEphemeralPriv : Bytes := []
  serverEphemeralPub : Bytes := []

namespace Sv2NoiseSession

def new (config : Sv2NoiseConfig) (cipherAlgorithm : Sv2CipherAlgorithm) (prologue : Bytes) :
    Sv2NoiseSession :=
  { SymmetricState.new host cipherAlgorithm prologue with config }

/-- The initiator's ephemeral key comes in, Act 2 goes out. -/
def processAct1 (session : Sv2NoiseSession) (entropy : ℕ) (act1 : Bytes) :
    Option (Bytes × Sv2NoiseSession) :=
  if act1.length ≠ sv2EllswiftKeySize then none
  else do
    let remoteEphemeral := act1
    let s := session.toSymmetricState.mixHash host remoteEphemeral
    let (_, s) ← s.decryptAndHash host []
    let serverEph := host.keygen entropy
    let s := s.mixHash host serverEph.publicKey
    let s ← s.mixKey host
      (SymmetricState.ecdh host serverEph.privateKey serverEph.publicKey remoteEphemeral false)
    let staticKeypair := session.config.staticKeypair
    let (encryptedStatic, s) ← s.encryptAndHash host staticKeypair.publicKey
    let s ← s.mixKey host (SymmetricState.ecdh host staticKeypair.privateKey
      staticKeypair.publicKey remoteEphemeral false)
    let certPayload := serializeSignatureNoiseMessage session.config.certificateMessage
    let (encryptedCert, s) ← s.encryptAndHash host certPayload
    let (k1, k2) := hkdf2 host s.ck []
    let recvCipher ← s.recvCipher.initializeKey k1
    let sendCipher ← s.sendCipher.initializeKey k2
    return (serverEph.publicKey ++ encryptedStatic ++ encryptedCert,
      { session with
        toSymmetricState := { s with recvCipher, sendCipher, handshakeComplete := true }
        serverEphemeralPriv := serverEph.privateKey
        serverEphemeralPub := serverEph.publicKey })

end Sv2NoiseSession

/-! ### The initiator -/

structure Sv2NoiseInitiator extends SymmetricState where
  ephemeralPriv : Bytes := []
  ephemeralPub : Bytes := []

namespace Sv2NoiseInitiator

def new (cipherAlgorithm : Sv2CipherAlgorithm) (prologue : Bytes) : Sv2NoiseInitiator :=
  { SymmetricState.new host cipherAlgorithm prologue with }

/-- Act 1 is the ephemeral key. -/
def generateAct1 (initiator : Sv2NoiseInitiator) (entropy : ℕ) : Bytes × Sv2NoiseInitiator :=
  let kp := host.keygen entropy
  let s := initiator.toSymmetricState.mixHash host kp.publicKey
  let s := s.mixHash host []
  (kp.publicKey,
    { initiator with
      toSymmetricState := s, ephemeralPriv := kp.privateKey, ephemeralPub := kp.publicKey })

/-- Act 2 comes in; the responder's static key and certificate come out. -/
def processAct2 (initiator : Sv2NoiseInitiator) (act2 : Bytes) :
    Option ((Bytes × Sv2SignatureNoiseMessage) × Sv2NoiseInitiator) :=
  if act2.length ≠ 234 then none
  else do
    let serverEphemeral := act2.take 64
    let encryptedStatic := (act2.drop 64).take 80
    let encryptedCert := (act2.drop 144).take 90
    let s := initiator.toSymmetricState.mixHash host serverEphemeral
    let s ← s.mixKey host (SymmetricState.ecdh host initiator.ephemeralPriv
      initiator.ephemeralPub serverEphemeral true)
    let (serverStaticKey, s) ← s.decryptAndHash host encryptedStatic
    let s ← s.mixKey host (SymmetricState.ecdh host initiator.ephemeralPriv
      initiator.ephemeralPub serverStaticKey true)
    let (certPayload, s) ← s.decryptAndHash host encryptedCert
    let certificate ← deserializeSignatureNoiseMessage certPayload
    let (k1, k2) := hkdf2 host s.ck []
    let sendCipher ← s.sendCipher.initializeKey k1
    let recvCipher ← s.recvCipher.initializeKey k2
    return ((serverStaticKey, certificate),
      { initiator with
        toSymmetricState := { s with sendCipher, recvCipher, handshakeComplete := true } })

end Sv2NoiseInitiator

/-! ### Transport -/

inductive NoiseParty
  | initiator
  | responder
  deriving DecidableEq, Repr

def NoiseParty.other : NoiseParty → NoiseParty
  | .initiator => .responder
  | .responder => .initiator

@[simp] theorem NoiseParty.other_other (party : NoiseParty) : party.other.other = party := by
  cases party <;> rfl

@[simp] theorem NoiseParty.other_ne (party : NoiseParty) : party.other ≠ party := by
  cases party <;> decide

@[simp] theorem NoiseParty.ne_other (party : NoiseParty) : party ≠ party.other :=
  party.other_ne.symm

theorem NoiseParty.eq_or_eq_other (p q : NoiseParty) : p = q ∨ p = q.other := by
  cases p <;> cases q <;> decide

/-- The two sides after the handshake, each with the messages on their way to it. -/
structure NoiseTransport where
  side : NoiseParty → SymmetricState
  inbox : NoiseParty → List Bytes := fun _ => []

inductive TransportInput
  /-- A party sends a message. -/
  | sends (party : NoiseParty) (plaintext : Bytes)
  /-- The oldest message that is on its way to a party arrives. -/
  | receives (party : NoiseParty)
  deriving DecidableEq

inductive TransportEvent
  | sent (party : NoiseParty) (plaintext : Bytes)
  | received (party : NoiseParty) (plaintext : Bytes)
  /-- `decrypt` threw. -/
  | undecryptable (party : NoiseParty)
  deriving DecidableEq

/-- A message that cannot be encrypted is not sent. -/
def transportStep (t : NoiseTransport) : TransportInput → NoiseTransport × List TransportEvent
  | .sends party plaintext =>
    match (t.side party).encrypt host plaintext with
    | none => (t, [])
    | some (ciphertext, s) =>
      ({ side := Function.update t.side party s
         inbox := Function.update t.inbox party.other (t.inbox party.other ++ [ciphertext]) },
        [.sent party plaintext])
  | .receives party =>
    match t.inbox party with
    | [] => (t, [])
    | ciphertext :: queue =>
      let arrived := { t with inbox := Function.update t.inbox party queue }
      match (t.side party).decrypt host ciphertext with
      | none => (arrived, [.undecryptable party])
      | some (plaintext, s) =>
        ({ arrived with side := Function.update t.side party s }, [.received party plaintext])

def noiseTransport : Machine NoiseTransport TransportInput TransportEvent where
  step := transportStep host

end PublicPool.Sv2
