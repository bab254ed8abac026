import PublicPool.Lib.OrderedChannel
import PublicPool.Sv2.Noise

/-!
# `PublicPool.Proofs.Sv2.NoiseAgreement`: the two ends of a Noise session agree

`noise_agreement`: for every draw of the three key pairs, the handshake goes through, the
initiator learns the responder's static key and certificate, and the sessions of the two ends
fit together. From then on, whatever the two ends send and in whichever order it arrives, each
of them receives what the other one has sent.

Until the keys are split, the two ends are in the same symmetric state after every mix. So the
handshake is a walk along one state: what the responder encrypts in it, the initiator decrypts
in it (`decryptAndHash_encryptAndHash`), and both reach the same next state. The split gives
the keys out crosswise, and from there each direction is an ordered channel between two equal
cipher states (`opens_cipherChannel`).

The cryptography is an assumption: `NoiseLaws` says that both ends of an exchange get the same
secret, and that decryption inverts encryption and leaves room for the tag.
-/

set_option autoImplicit false

namespace PublicPool.Sv2

open Lib

/-- What the handshake relies on. -/
structure NoiseLaws (host : NoiseHost) : Prop where
  /-- Both parties of an exchange compute the same secret. -/
  ecdh : ∀ a b,
    SymmetricState.ecdh host (host.keygen a).privateKey (host.keygen a).publicKey
        (host.keygen b).publicKey true =
      SymmetricState.ecdh host (host.keygen b).privateKey (host.keygen b).publicKey
        (host.keygen a).publicKey false
  /-- Decryption inverts encryption under the same key, nonce and associated data. -/
  decrypts : ∀ algorithm k nonce ad plaintext,
    host.createDecipheriv algorithm k nonce ad
        (host.createCipheriv algorithm k nonce ad plaintext).1
        (host.createCipheriv algorithm k nonce ad plaintext).2 = some plaintext
  length_encrypted : ∀ algorithm k nonce ad plaintext,
    (host.createCipheriv algorithm k nonce ad plaintext).1.length = plaintext.length
  length_tag : ∀ algorithm k nonce ad plaintext,
    (host.createCipheriv algorithm k nonce ad plaintext).2.length = sv2MacSize

variable {host : NoiseHost}

/-! ### Ciphers -/

namespace Sv2CipherState

theorem initializeKey_digest (cipher : Sv2CipherState) (key : Digest) :
    cipher.initializeKey key.bytes = some { cipher with k := some key.bytes, n := 0 } :=
  if_neg (fun hne => hne key.length_eq)

section
variable {cipher next : Sv2CipherState} {k ad plaintext ciphertext : Bytes}

theorem encryptWithAd_eq_some (hkey : cipher.k = some k)
    (henc : cipher.encryptWithAd host ad plaintext = some (ciphertext, next)) :
    ∃ nonce encrypted tag, encodeNonce host cipher.n cipher.algorithm = some nonce ∧
      host.createCipheriv cipher.algorithm k nonce ad plaintext = (encrypted, tag) ∧
      ciphertext = encrypted ++ tag ∧ next = { cipher with n := cipher.n + 1 } := by
  simp only [encryptWithAd, hkey] at henc
  cases hnonce : encodeNonce host cipher.n cipher.algorithm with
  | none =>
    rw [hnonce] at henc
    cases henc
  | some nonce =>
    rw [hnonce] at henc
    cases henc
    exact ⟨nonce, _, _, rfl, rfl, rfl, by rw [hkey]⟩

/-- What a cipher state with a key encrypts, an equal one decrypts, and they stay equal. -/
theorem decryptWithAd_encryptWithAd (laws : NoiseLaws host) (hkey : cipher.k = some k)
    (henc : cipher.encryptWithAd host ad plaintext = some (ciphertext, next)) :
    cipher.decryptWithAd host ad ciphertext = some (plaintext, next) ∧
      ciphertext.length = plaintext.length + sv2MacSize ∧ next.k = some k := by
  obtain ⟨nonce, encrypted, tag, hnonce, hseal, rfl, rfl⟩ := encryptWithAd_eq_some hkey henc
  have hlength := laws.length_encrypted cipher.algorithm k nonce ad plaintext
  have htag := laws.length_tag cipher.algorithm k nonce ad plaintext
  have hopen := laws.decrypts cipher.algorithm k nonce ad plaintext
  rw [hseal] at hlength htag hopen
  have htotal : (encrypted ++ tag).length = encrypted.length + sv2MacSize := by
    rw [List.length_append, htag]
  -- The tag is the last sixteen bytes, whatever the length of the ciphertext.
  have hcut : (encrypted ++ tag).length - sv2MacSize = encrypted.length := by omega
  refine ⟨?_, by rw [htotal, hlength], hkey⟩
  simp only [decryptWithAd, hkey, hcut, List.take_left, List.drop_left, hnonce]
  rw [if_neg (by omega), Option.bind_eq_bind, Option.bind_some, hopen]
  rfl

theorem exists_encryptWithAd (host : NoiseHost) (hn : cipher.n < 2 ^ 64) (ad plaintext : Bytes) :
    ∃ read, cipher.encryptWithAd host ad plaintext = some read := by
  cases hkey : cipher.k with
  | none => exact ⟨_, by rw [encryptWithAd, hkey]⟩
  | some k =>
    rw [encryptWithAd, hkey]
    simp only [encodeNonce, if_pos hn, Option.bind_eq_bind, Option.bind_some]
    exact ⟨_, rfl⟩

end

end Sv2CipherState

/-! ### The certificate -/

theorem length_serializeSignatureNoiseMessage (msg : Sv2SignatureNoiseMessage) :
    (serializeSignatureNoiseMessage msg).length = sv2SignatureNoiseMsgSize := by
  simp only [serializeSignatureNoiseMessage, List.length_append, length_putLE,
    msg.signature_length]
  rfl

theorem deserialize_serializeSignatureNoiseMessage (msg : Sv2SignatureNoiseMessage) :
    deserializeSignatureNoiseMessage (serializeSignatureNoiseMessage msg) = some msg := by
  have hversion : msg.version.toNat < 256 ^ 2 := UInt16.toNat_lt msg.version
  have hfrom : msg.validFrom.toNat < 256 ^ 4 := UInt32.toNat_lt msg.validFrom
  have hafter : msg.notValidAfter.toNat < 256 ^ 4 := UInt32.toNat_lt msg.notValidAfter
  have hlen := length_serializeSignatureNoiseMessage msg
  rw [deserializeSignatureNoiseMessage, dif_neg (by omega)]
  refine congrArg some (Sv2SignatureNoiseMessage.ext ?_ ?_ ?_ ?_)
  · show UInt16.ofNat (leValue _) = _
    have hread : (serializeSignatureNoiseMessage msg).take 2 = putLE 2 msg.version.toNat := by
      simp [serializeSignatureNoiseMessage]
    rw [hread, leValue_putLE, Nat.mod_eq_of_lt hversion, UInt16.ofNat_toNat]
  · show UInt32.ofNat (leValue _) = _
    have hread : ((serializeSignatureNoiseMessage msg).drop 2).take 4 =
        putLE 4 msg.validFrom.toNat := by
      simp [serializeSignatureNoiseMessage]
    rw [hread, leValue_putLE, Nat.mod_eq_of_lt hfrom, UInt32.ofNat_toNat]
  · show UInt32.ofNat (leValue _) = _
    have hread : ((serializeSignatureNoiseMessage msg).drop 6).take 4 =
        putLE 4 msg.notValidAfter.toNat := by
      simp [serializeSignatureNoiseMessage, List.take_append, List.drop_append]
    rw [hread, leValue_putLE, Nat.mod_eq_of_lt hafter, UInt32.ofNat_toNat]
  · show ((serializeSignatureNoiseMessage msg).drop 10).take 64 = msg.signature
    have hread : (serializeSignatureNoiseMessage msg).drop 10 = msg.signature :=
      List.drop_left' (by simp only [List.length_append, length_putLE])
    rw [hread, ← msg.signature_length, List.take_length]

/-! ### The handshake -/

namespace SymmetricState

/-- The state after mixing a key in: the cipher starts over with it. -/
theorem exists_mixKey (host : NoiseHost) (s : SymmetricState) (ikm : Bytes) :
    ∃ k next, s.mixKey host ikm = some next ∧ next.tempCipher.k = some k ∧
      next.tempCipher.n = 0 ∧ next.sendCipher = s.sendCipher ∧ next.recvCipher = s.recvCipher := by
  simp only [mixKey, hkdf2, Sv2CipherState.initializeKey_digest, Option.bind_eq_bind,
    Option.bind_some]
  exact ⟨_, _, rfl, rfl, rfl, rfl, rfl⟩

/-- Before the first key, nothing is encrypted. -/
theorem decryptAndHash_of_keyless {s : SymmetricState} (hkey : s.tempCipher.k = none)
    (ciphertext : Bytes) :
    s.decryptAndHash host ciphertext = some (ciphertext, s.mixHash host ciphertext) := by
  simp only [decryptAndHash, Sv2CipherState.decryptWithAd, hkey, Option.bind_eq_bind,
    Option.bind_some, Option.pure_def]

/-- What one end encrypts after a key was mixed in, the other end decrypts in the same state,
and both move to the same next one. -/
theorem decryptAndHash_encryptAndHash (laws : NoiseLaws host) {s : SymmetricState} {k : Bytes}
    (hkey : s.tempCipher.k = some k) (hn : s.tempCipher.n = 0) (plaintext : Bytes) :
    ∃ ciphertext next, s.encryptAndHash host plaintext = some (ciphertext, next) ∧
      s.decryptAndHash host ciphertext = some (plaintext, next) ∧
      ciphertext.length = plaintext.length + sv2MacSize ∧
      next.sendCipher = s.sendCipher ∧ next.recvCipher = s.recvCipher := by
  have hroom : s.tempCipher.n < 2 ^ 64 := by omega
  obtain ⟨⟨ciphertext, tempCipher⟩, henc⟩ :=
    Sv2CipherState.exists_encryptWithAd host hroom s.h plaintext
  obtain ⟨hdec, hlength, -⟩ := Sv2CipherState.decryptWithAd_encryptWithAd laws hkey henc
  refine ⟨ciphertext, mixHash host { s with tempCipher } ciphertext, ?_, ?_, hlength, rfl, rfl⟩
  · simp only [encryptAndHash, henc, Option.bind_eq_bind, Option.bind_some, Option.pure_def]
  · simp only [decryptAndHash, hdec, Option.bind_eq_bind, Option.bind_some, Option.pure_def]

end SymmetricState

/-- A cipher with a key that has not been used. -/
def Sv2CipherState.Fresh (cipher : Sv2CipherState) : Prop :=
  (∃ k, cipher.k = some k) ∧ cipher.n = 0

/-- Two sessions that belong together. -/
structure Agree (initiator responder : SymmetricState) : Prop where
  h : initiator.h = responder.h
  ck : initiator.ck = responder.ck
  complete : initiator.handshakeComplete ∧ responder.handshakeComplete
  sends : initiator.sendCipher = responder.recvCipher
  receives : initiator.recvCipher = responder.sendCipher
  fresh : initiator.sendCipher.Fresh ∧ responder.sendCipher.Fresh

/-- The handshake of a responder whose static key was drawn with `staticEntropy`. -/
theorem exists_handshake (laws : NoiseLaws host) {config : Sv2NoiseConfig} {staticEntropy : ℕ}
    (hstatic : config.staticKeypair = host.keygen staticEntropy)
    (cipherAlgorithm : Sv2CipherAlgorithm) (prologue : Bytes)
    (clientEntropy serverEntropy : ℕ) {initiator : Sv2NoiseInitiator} {act1 : Bytes}
    (hact1 : (Sv2NoiseInitiator.new host cipherAlgorithm prologue).generateAct1 host
      clientEntropy = (act1, initiator)) :
    ∃ act2 session initiator',
      (Sv2NoiseSession.new host config cipherAlgorithm prologue).processAct1 host serverEntropy
        act1 = some (act2, session) ∧
      initiator.processAct2 host act2 =
        some ((config.staticKeypair.publicKey, config.certificateMessage), initiator') ∧
      Agree initiator'.toSymmetricState session.toSymmetricState := by
  obtain ⟨rfl, rfl⟩ := Prod.mk.inj hact1
  let client := host.keygen clientEntropy
  let server := host.keygen serverEntropy
  let start := ((SymmetricState.new host cipherAlgorithm prologue).mixHash host
    client.publicKey).mixHash host []
  let secret_ee := SymmetricState.ecdh host server.privateKey server.publicKey client.publicKey false
  let secret_es := SymmetricState.ecdh host config.staticKeypair.privateKey
    config.staticKeypair.publicKey client.publicKey false
  -- The states both ends go through.
  obtain ⟨k₁, s₁, hee, hkey₁, hn₁, hsend₁, hrecv₁⟩ :=
    SymmetricState.exists_mixKey host (start.mixHash host server.publicKey) secret_ee
  obtain ⟨encryptedStatic, s₂, hencStatic, hdecStatic, hlenStatic, hsend₂, hrecv₂⟩ :=
    SymmetricState.decryptAndHash_encryptAndHash laws hkey₁ hn₁ config.staticKeypair.publicKey
  obtain ⟨k₃, s₃, hes, hkey₃, hn₃, hsend₃, hrecv₃⟩ :=
    SymmetricState.exists_mixKey host s₂ secret_es
  obtain ⟨encryptedCert, s₄, hencCert, hdecCert, hlenCert, hsend₄, hrecv₄⟩ :=
    SymmetricState.decryptAndHash_encryptAndHash laws hkey₃ hn₃
      (serializeSignatureNoiseMessage config.certificateMessage)
  have hlenStatic' : encryptedStatic.length = 80 := by
    rw [hlenStatic, config.staticKeypair.publicKey_length]
    rfl
  have hlenCert' : encryptedCert.length = 90 := by
    rw [hlenCert, length_serializeSignatureNoiseMessage]
    rfl
  have hsend : s₄.sendCipher = { algorithm := cipherAlgorithm } :=
    hsend₄.trans (hsend₃.trans (hsend₂.trans hsend₁))
  have hrecv : s₄.recvCipher = { algorithm := cipherAlgorithm } :=
    hrecv₄.trans (hrecv₃.trans (hrecv₂.trans hrecv₁))
  have hsendKey (key : Digest) : s₄.sendCipher.initializeKey key.bytes =
      some { algorithm := cipherAlgorithm, k := some key.bytes } := by
    rw [Sv2CipherState.initializeKey_digest, hsend]
  have hrecvKey (key : Digest) : s₄.recvCipher.initializeKey key.bytes =
      some { algorithm := cipherAlgorithm, k := some key.bytes } := by
    rw [Sv2CipherState.initializeKey_digest, hrecv]
  have hlenServer : server.publicKey.length = 64 := server.publicKey_length
  let keys := hkdf2 host s₄.ck []
  let split (sendCipher recvCipher : Sv2CipherState) : SymmetricState :=
    { s₄ with sendCipher, recvCipher, handshakeComplete := true }
  let keyed (key : Bytes) : Sv2CipherState := { algorithm := cipherAlgorithm, k := some key }
  refine ⟨server.publicKey ++ encryptedStatic ++ encryptedCert,
    { split (keyed keys.2) (keyed keys.1) with
      config, serverEphemeralPriv := server.privateKey, serverEphemeralPub := server.publicKey },
    { split (keyed keys.1) (keyed keys.2) with
      ephemeralPriv := client.privateKey, ephemeralPub := client.publicKey }, ?_, ?_, ?_⟩
  · have hempty : ((SymmetricState.new host cipherAlgorithm prologue).mixHash host
        client.publicKey).decryptAndHash host [] = some ([], start) :=
      SymmetricState.decryptAndHash_of_keyless rfl []
    rw [Sv2NoiseSession.processAct1, if_neg (fun hne => hne client.publicKey_length)]
    refine Option.bind_eq_some_iff.mpr ⟨_, hempty, ?_⟩
    refine Option.bind_eq_some_iff.mpr ⟨_, hee, ?_⟩
    refine Option.bind_eq_some_iff.mpr ⟨_, hencStatic, ?_⟩
    refine Option.bind_eq_some_iff.mpr ⟨_, hes, ?_⟩
    refine Option.bind_eq_some_iff.mpr ⟨_, hencCert, ?_⟩
    refine Option.bind_eq_some_iff.mpr ⟨_, hrecvKey _, ?_⟩
    refine Option.bind_eq_some_iff.mpr ⟨_, hsendKey _, ?_⟩
    rfl
  · have hee' : (start.mixHash host server.publicKey).mixKey host (SymmetricState.ecdh host
        client.privateKey client.publicKey server.publicKey true) = some s₁ := by
      rw [laws.ecdh]
      exact hee
    have hes' : s₂.mixKey host (SymmetricState.ecdh host client.privateKey client.publicKey
        config.staticKeypair.publicKey true) = some s₃ := by
      rw [hstatic, laws.ecdh, ← hstatic]
      exact hes
    have hcert := deserialize_serializeSignatureNoiseMessage config.certificateMessage
    -- Act 2 is cut where it was put together.
    have hcutServer : (server.publicKey ++ encryptedStatic ++ encryptedCert).take 64 =
        server.publicKey := by
      rw [List.append_assoc, List.take_left' hlenServer]
    have hcutStatic : ((server.publicKey ++ encryptedStatic ++ encryptedCert).drop 64).take 80 =
        encryptedStatic := by
      rw [List.append_assoc, List.drop_left' hlenServer, List.take_left' hlenStatic']
    have hcutCert : ((server.publicKey ++ encryptedStatic ++ encryptedCert).drop 144).take 90 =
        encryptedCert := by
      rw [List.drop_left' (by rw [List.length_append, hlenServer, hlenStatic']), ← hlenCert',
        List.take_length]
    have hlen : (server.publicKey ++ encryptedStatic ++ encryptedCert).length = 234 := by
      rw [List.length_append, List.length_append, hlenServer, hlenStatic', hlenCert']
    simp only [Sv2NoiseInitiator.processAct2, hcutServer, hcutStatic, hcutCert]
    rw [if_neg (fun hne => hne hlen)]
    refine Option.bind_eq_some_iff.mpr ⟨_, hee', ?_⟩
    refine Option.bind_eq_some_iff.mpr ⟨_, hdecStatic, ?_⟩
    refine Option.bind_eq_some_iff.mpr ⟨_, hes', ?_⟩
    refine Option.bind_eq_some_iff.mpr ⟨_, hdecCert, ?_⟩
    refine Option.bind_eq_some_iff.mpr ⟨_, hcert, ?_⟩
    refine Option.bind_eq_some_iff.mpr ⟨_, hsendKey _, ?_⟩
    refine Option.bind_eq_some_iff.mpr ⟨_, hrecvKey _, ?_⟩
    rfl
  · exact ⟨rfl, rfl, ⟨rfl, rfl⟩, rfl, rfl, ⟨⟨_, rfl⟩, rfl⟩, ⟨_, rfl⟩, rfl⟩

/-! ### Transport -/

/-- One direction of the transport. -/
def cipherChannel (host : NoiseHost) :
    OrderedChannel Sv2CipherState Sv2CipherState Bytes Bytes where
  sealMessage cipher plaintext := cipher.encryptWithAd host [] plaintext
  openMessage cipher ciphertext := cipher.decryptWithAd host [] ciphertext

/-- Equal cipher states with a key. -/
def CiphersSynced (send recv : Sv2CipherState) : Prop :=
  send = recv ∧ ∃ k, send.k = some k

theorem opens_cipherChannel (laws : NoiseLaws host) :
    (cipherChannel host).Opens CiphersSynced := by
  rintro cipher _ plaintext ciphertext next ⟨rfl, k, hkey⟩ hseal
  obtain ⟨hopen, -, hkey'⟩ := Sv2CipherState.decryptWithAd_encryptWithAd laws hkey hseal
  exact ⟨next, hopen, rfl, k, hkey'⟩

/-- What a party has sent, in order. -/
def sentBy (party : NoiseParty) (h : List TransportEvent) : List Bytes :=
  h.filterMap fun
    | .sent p plaintext => if p = party then some plaintext else none
    | _ => none

/-- What a party has received, in order. -/
def receivedBy (party : NoiseParty) (h : List TransportEvent) : List Bytes :=
  h.filterMap fun
    | .received p plaintext => if p = party then some plaintext else none
    | _ => none

@[simp] theorem sentBy_append (party : NoiseParty) (h more : List TransportEvent) :
    sentBy party (h ++ more) = sentBy party h ++ sentBy party more :=
  List.filterMap_append

@[simp] theorem receivedBy_append (party : NoiseParty) (h more : List TransportEvent) :
    receivedBy party (h ++ more) = receivedBy party h ++ receivedBy party more :=
  List.filterMap_append

section
variable {s : SymmetricState} {plaintext ciphertext : Bytes}

theorem SymmetricState.encrypt_eq_some {next : SymmetricState}
    (h : s.encrypt host plaintext = some (ciphertext, next)) :
    ∃ sendCipher, s.sendCipher.encryptWithAd host [] plaintext = some (ciphertext, sendCipher) ∧
      next = { s with sendCipher } := by
  rw [encrypt] at h
  split at h
  · cases h
  · obtain ⟨⟨c, sendCipher⟩, henc, heq⟩ := Option.map_eq_some_iff.mp h
    cases heq
    exact ⟨sendCipher, henc, rfl⟩

theorem SymmetricState.encrypt_eq_none (hcomplete : s.handshakeComplete)
    (h : s.encrypt host plaintext = none) : ¬ s.sendCipher.n < 2 ^ 64 := by
  intro hn
  obtain ⟨read, henc⟩ := Sv2CipherState.exists_encryptWithAd host hn [] plaintext
  rw [encrypt, if_neg (by simp [hcomplete]), henc] at h
  cases h

theorem SymmetricState.decrypt_of_decryptWithAd {recvCipher : Sv2CipherState}
    (hcomplete : s.handshakeComplete)
    (h : s.recvCipher.decryptWithAd host [] ciphertext = some (plaintext, recvCipher)) :
    s.decrypt host ciphertext = some (plaintext, { s with recvCipher }) := by
  rw [decrypt, if_neg (by simp [hcomplete]), h]
  rfl

end

/-- One direction: what was sent is what was received and what is on its way. -/
structure Direction (host : NoiseHost) (send recv : Sv2CipherState) (queue sent received :
    List Bytes) : Prop where
  keyed : ∃ k, send.k = some k
  counts : send.n = sent.length
  inTransit : ∃ pending, sent = received ++ pending ∧
    (cipherChannel host).InTransit CiphersSynced send queue recv pending

namespace Direction

variable {send recv next : Sv2CipherState} {queue sent received : List Bytes}
  {plaintext ciphertext : Bytes}

theorem start (hfresh : send.Fresh) : Direction host send send [] [] [] :=
  ⟨hfresh.1, hfresh.2, [], rfl, OrderedChannel.inTransit_nil ⟨rfl, hfresh.1⟩⟩

theorem sends (laws : NoiseLaws host) (inv : Direction host send recv queue sent received)
    (hseal : send.encryptWithAd host [] plaintext = some (ciphertext, next)) :
    Direction host next recv (queue ++ [ciphertext]) (sent ++ [plaintext]) received := by
  obtain ⟨⟨k, hkey⟩, hcounts, pending, rfl, htransit⟩ := inv
  have htransit' := htransit.send (opens_cipherChannel laws) hseal
  obtain ⟨nonce, encrypted, tag, -, -, -, rfl⟩ := Sv2CipherState.encryptWithAd_eq_some hkey hseal
  refine ⟨⟨k, hkey⟩, ?_, pending ++ [plaintext], List.append_assoc .., htransit'⟩
  rw [List.length_append, ← hcounts]
  rfl

theorem receives (inv : Direction host send recv (ciphertext :: queue) sent received) :
    ∃ plaintext next, recv.decryptWithAd host [] ciphertext = some (plaintext, next) ∧
      Direction host send next queue sent (received ++ [plaintext]) := by
  obtain ⟨hkeyed, hcounts, pending, rfl, htransit⟩ := inv
  obtain ⟨plaintext, rest, next, rfl, hopen, htransit'⟩ := htransit.receive
  exact ⟨plaintext, next, hopen, hkeyed, hcounts, rest, by rw [List.append_assoc]; rfl, htransit'⟩

end Direction

/-- Both directions. -/
structure TransportInv (host : NoiseHost) (t : NoiseTransport) (h : List TransportEvent) :
    Prop where
  complete : ∀ p, (t.side p).handshakeComplete
  decryptable : ∀ p, TransportEvent.undecryptable p ∉ h
  direction : ∀ p, Direction host (t.side p).sendCipher (t.side p.other).recvCipher
    (t.inbox p.other) (sentBy p h) (receivedBy p.other h)

theorem TransportInv.sends (laws : NoiseLaws host) {t : NoiseTransport} {h : List TransportEvent}
    (inv : TransportInv host t h) (party : NoiseParty) (plaintext : Bytes) :
    let next := transportStep host t (.sends party plaintext)
    TransportInv host next.1 (h ++ next.2) ∧
      ((sentBy party h).length < 2 ^ 64 → next.2 = [.sent party plaintext]) := by
  rw [transportStep]
  cases henc : (t.side party).encrypt host plaintext with
  | none =>
    have hfull := SymmetricState.encrypt_eq_none (inv.complete party) henc
    rw [(inv.direction party).counts] at hfull
    refine ⟨?_, fun hroom => absurd hroom hfull⟩
    rw [List.append_nil]
    exact inv
  | some read =>
    obtain ⟨ciphertext, s⟩ := read
    obtain ⟨sendCipher, hseal, rfl⟩ := SymmetricState.encrypt_eq_some henc
    refine ⟨⟨fun p => ?_, fun p => ?_, fun p => ?_⟩, fun _ => rfl⟩
    · obtain rfl | rfl := p.eq_or_eq_other party
      · simpa using inv.complete p
      · simpa using inv.complete party.other
    · simpa using inv.decryptable p
    · obtain rfl | rfl := p.eq_or_eq_other party
      · have hnext := (inv.direction p).sends laws hseal
        simpa [sentBy, receivedBy] using hnext
      · have hsame := inv.direction party.other
        simpa [sentBy, receivedBy] using hsame

theorem TransportInv.receives {t : NoiseTransport} {h : List TransportEvent}
    (inv : TransportInv host t h) (party : NoiseParty) :
    let next := transportStep host t (.receives party)
    TransportInv host next.1 (h ++ next.2) := by
  rw [transportStep]
  cases hqueue : t.inbox party with
  | nil => simpa using inv
  | cons ciphertext queue =>
    have hdirection := inv.direction party.other
    rw [NoiseParty.other_other, hqueue] at hdirection
    obtain ⟨plaintext, recvCipher, hopen, hnext⟩ := hdirection.receives
    dsimp only
    rw [SymmetricState.decrypt_of_decryptWithAd (inv.complete party) hopen]
    refine ⟨fun p => ?_, fun p => ?_, fun p => ?_⟩
    · obtain rfl | rfl := p.eq_or_eq_other party
      · simpa using inv.complete p
      · simpa using inv.complete party.other
    · simpa using inv.decryptable p
    · obtain rfl | rfl := p.eq_or_eq_other party
      · have hsame := inv.direction p
        simpa [sentBy, receivedBy] using hsame
      · simpa [sentBy, receivedBy] using hnext

/-! ### Agreement -/

/-- The transport of two sessions. -/
def transportOf (initiator : Sv2NoiseInitiator) (session : Sv2NoiseSession) : NoiseTransport where
  side
    | .initiator => initiator.toSymmetricState
    | .responder => session.toSymmetricState

section
variable {initiator : Sv2NoiseInitiator} {session : Sv2NoiseSession}

theorem Agree.transportInv (agree : Agree initiator.toSymmetricState session.toSymmetricState) :
    TransportInv host (transportOf initiator session) [] where
  complete
    | .initiator => agree.complete.1
    | .responder => agree.complete.2
  decryptable _ := List.not_mem_nil
  direction
    | .initiator => by
      show Direction host initiator.sendCipher session.recvCipher [] [] []
      rw [← agree.sends]
      exact Direction.start agree.fresh.1
    | .responder => by
      show Direction host session.sendCipher initiator.recvCipher [] [] []
      rw [agree.receives]
      exact Direction.start agree.fresh.2

/-- Whatever the two sides do, every message is sent, nothing arrives that cannot be decrypted,
and what one side has received is what the other has sent but for the messages still on their
way. -/
def Delivers (host : NoiseHost) (t : NoiseTransport) (inputs : List TransportInput) : Prop :=
  let m := noiseTransport host
  m.Along (fun t h input => ∀ party plaintext, input = .sends party plaintext →
    (sentBy party h).length < 2 ^ 64 → (m.step t input).2 = [.sent party plaintext]) t [] inputs ∧
  ∀ party, .undecryptable party ∉ m.history t inputs ∧
    ∃ pending, sentBy party (m.history t inputs) =
        receivedBy party.other (m.history t inputs) ++ pending ∧
      pending.length = ((m.final t inputs).inbox party.other).length

theorem Agree.delivers (laws : NoiseLaws host)
    (agree : Agree initiator.toSymmetricState session.toSymmetricState)
    (inputs : List TransportInput) : Delivers host (transportOf initiator session) inputs := by
  have hstep (t : NoiseTransport) (h : List TransportEvent) (input : TransportInput)
      (inv : TransportInv host t h) :
      TransportInv host ((noiseTransport host).step t input).1
        (h ++ ((noiseTransport host).step t input).2) := by
    cases input with
    | sends party plaintext => exact (inv.sends laws party plaintext).1
    | receives party => exact inv.receives party
  have hstart : TransportInv host (transportOf initiator session) [] := agree.transportInv
  have hall : (noiseTransport host).Along (fun _ _ _ => True) (transportOf initiator session) []
      inputs := (noiseTransport host).along_of_forall (fun _ _ _ => trivial) _ _ _
  refine ⟨(noiseTransport host).along_of_invariant ?_ hstart hall, fun party => ?_⟩
  · intro t h input inv _
    refine ⟨?_, hstep t h input inv⟩
    rintro party plaintext rfl hroom
    exact (inv.sends laws party plaintext).2 hroom
  · have inv := (noiseTransport host).history_invariant
      (fun t h input inv _ => hstep t h input inv) hstart hall
    obtain ⟨pending, hsent, htransit⟩ := (inv.direction party).inTransit
    exact ⟨inv.decryptable party, pending, hsent, htransit.length_eq⟩

end

/-- The two ends of a Noise session agree. The initiator's and the responder's ephemeral keys
and the responder's static key may be any that `keygen` draws. -/
theorem noise_agreement (laws : NoiseLaws host) (config : Sv2NoiseConfig) (staticEntropy : ℕ)
    (hstatic : config.staticKeypair = host.keygen staticEntropy)
    (cipherAlgorithm : Sv2CipherAlgorithm) (prologue : Bytes)
    (clientEntropy serverEntropy : ℕ) :
    let (act1, client) :=
      (Sv2NoiseInitiator.new host cipherAlgorithm prologue).generateAct1 host clientEntropy
    ∃ act2 session initiator,
      (Sv2NoiseSession.new host config cipherAlgorithm prologue).processAct1 host serverEntropy
        act1 = some (act2, session) ∧
      client.processAct2 host act2 =
        some ((config.staticKeypair.publicKey, config.certificateMessage), initiator) ∧
      initiator.ck = session.ck ∧ initiator.h = session.h ∧
      initiator.sendCipher = session.recvCipher ∧ initiator.recvCipher = session.sendCipher ∧
      ∀ inputs, Delivers host (transportOf initiator session) inputs := by
  obtain ⟨act2, session, initiator, hact1, hact2, agree⟩ :=
    exists_handshake laws hstatic cipherAlgorithm prologue clientEntropy serverEntropy rfl
  exact ⟨act2, session, initiator, hact1, hact2, agree.ck, agree.h, agree.sends, agree.receives,
    agree.delivers laws⟩

/-! ### A session -/

/-- Diffie-Hellman modulo a small prime, and a cipher whose tag is its nonce and the end of its
key. -/
def mockNoiseHost : NoiseHost where
  sha256 data := ⟨fit 32 data.reverse, length_fit ..⟩
  hmacHash key data := ⟨fit 32 (data ++ key), length_fit ..⟩
  createCipheriv _ k nonce _ plaintext :=
    (plaintext.map (· ^^^ 0x42), fit sv2MacSize (nonce ++ k.reverse))
  createDecipheriv _ k nonce _ encrypted tag :=
    if tag = fit sv2MacSize (nonce ++ k.reverse) then some (encrypted.map (· ^^^ 0x42)) else none
  keygen entropy :=
    { privateKey := [UInt8.ofNat (entropy % 251)]
      publicKey := UInt8.ofNat (5 ^ (entropy % 251) % 251) :: List.replicate 63 0
      publicKey_length := by simp [sv2EllswiftKeySize] }
  getSharedSecretBip324 privateKeyOurs publicKeyTheirs _ _ :=
    [UInt8.ofNat ((publicKeyTheirs.headD 0).toNat ^ (privateKeyOurs.headD 0).toNat % 251)]
  sv2NonceLe := false

theorem mockNoiseHost_laws : NoiseLaws mockNoiseHost where
  ecdh a b := by
    have hbyte (n : ℕ) : (UInt8.ofNat (n % 251)).toNat = n % 251 := by
      rw [UInt8.toNat_ofNat']
      omega
    simp only [SymmetricState.ecdh, mockNoiseHost, List.headD_cons, hbyte]
    rw [← Nat.pow_mod, ← Nat.pow_mod, ← pow_mul, ← pow_mul, Nat.mul_comm]
  decrypts algorithm k nonce ad plaintext := by
    have hxor : (fun x : UInt8 => x ^^^ 0x42) ∘ (fun x => x ^^^ 0x42) = id := by
      funext x
      rw [Function.comp_apply, UInt8.xor_assoc, UInt8.xor_self, UInt8.xor_zero, id]
    simp only [mockNoiseHost, if_true, List.map_map, hxor, List.map_id]
  length_encrypted algorithm k nonce ad plaintext := List.length_map ..
  length_tag algorithm k nonce ad plaintext := length_fit ..

theorem noise_agreement_sample :
    let config : Sv2NoiseConfig :=
      { staticKeypair := mockNoiseHost.keygen 7
        certificateMessage := ⟨0, 1700000000, 1800000000, List.replicate 64 9, by simp⟩ }
    let client := (Sv2NoiseInitiator.new mockNoiseHost .aes256Gcm []).generateAct1 mockNoiseHost 11
    ∃ act2 session initiator,
      (Sv2NoiseSession.new mockNoiseHost config .aes256Gcm []).processAct1 mockNoiseHost 13
        client.1 = some (act2, session) ∧
      client.2.processAct2 mockNoiseHost act2 =
        some ((config.staticKeypair.publicKey, config.certificateMessage), initiator) ∧
      initiator.sendCipher = session.recvCipher ∧
      Delivers mockNoiseHost (transportOf initiator session)
        [.sends .initiator [1, 2], .sends .initiator [], .sends .responder [3],
          .receives .responder, .receives .initiator, .receives .responder] := by
  obtain ⟨act2, session, initiator, hact1, hact2, -, -, hcipher, -, hdelivers⟩ :=
    noise_agreement mockNoiseHost_laws
      { staticKeypair := mockNoiseHost.keygen 7
        certificateMessage := ⟨0, 1700000000, 1800000000, List.replicate 64 9, by simp⟩ }
      7 rfl .aes256Gcm [] 11 13
  exact ⟨act2, session, initiator, hact1, hact2, hcipher, hdelivers _⟩

end PublicPool.Sv2
