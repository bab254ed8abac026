import PublicPool.Datum.Stream
import PublicPool.Lib.OnlyLast

/-!
# `PublicPool.Proofs.DatumStream`: what a DATUM client sends is what the server reads
-/

set_option autoImplicit false

namespace PublicPool.Datum

open Lib

/-! ### Frames on the wire -/

/-- The header of a frame is in range and has the length of the payload. -/
structure DatumFrame.Fits (frame : DatumFrame) : Prop where
  header : frame.header.Fits
  cmdLen : frame.header.cmdLen = frame.payload.length

/-- The key after some frames. -/
def keyAfterAll (xorKey : UInt32) (frames : List DatumFrame) : UInt32 :=
  frames.foldl (fun key frame => frame.keyAfter key) xorKey

section
variable (xorKey : UInt32)

@[simp] theorem keyAfterAll_nil : keyAfterAll xorKey [] = xorKey := rfl

@[simp] theorem keyAfterAll_cons (frame : DatumFrame) (frames : List DatumFrame) :
    keyAfterAll xorKey (frame :: frames) = keyAfterAll (frame.keyAfter xorKey) frames := rfl

theorem keyAfterAll_append (frames more : List DatumFrame) :
    keyAfterAll xorKey (frames ++ more) = keyAfterAll (keyAfterAll xorKey frames) more :=
  List.foldl_append

/-- Frames, each written with the key that the ones before it leave. -/
def encodeFrames (xorKey : UInt32) : List DatumFrame → Option Bytes
  | [] => some []
  | frame :: frames => do
    let header ← encodeDatumHeader frame.header xorKey
    let rest ← encodeFrames (frame.keyAfter xorKey) frames
    return header ++ frame.payload ++ rest

theorem encodeFrames_cons {xorKey : UInt32} {frame : DatumFrame} {frames : List DatumFrame}
    {wire : Bytes} (fits : frame.Fits)
    (h : encodeFrames xorKey (frame :: frames) = some wire) :
    ∃ header rest, header.length = 4 ∧ decodeDatumHeader header xorKey = some frame.header ∧
      encodeFrames (frame.keyAfter xorKey) frames = some rest ∧
      wire = header ++ frame.payload ++ rest := by
  obtain ⟨header, hencode, hlength, hdecode⟩ :=
    decodeDatumHeader_encodeDatumHeader fits.header xorKey
  simp only [encodeFrames, hencode, Option.bind_eq_bind, Option.bind_some,
    Option.bind_eq_some_iff, Option.pure_def, Option.some.injEq] at h
  obtain ⟨rest, hrest, rfl⟩ := h
  exact ⟨header, rest, hlength, hdecode, hrest, rfl⟩

/-! ### The frame reader -/

theorem readFrames_short {buffer : Bytes} (hshort : buffer.length < 4) :
    readFrames xorKey buffer = some { headerXorKey := xorKey, buffer, events := [] } := by
  rw [readFrames_eq, if_pos hshort]

/-- The header is there, and some of the payload is not. -/
theorem readFrames_partial {xorKey : UInt32} {frame : DatumFrame} {header buffer : Bytes}
    (fits : frame.Fits) (hdecode : decodeDatumHeader header xorKey = some frame.header)
    (hheader : buffer.take 4 = header) (hlong : 4 ≤ buffer.length)
    (hshort : buffer.length < 4 + frame.payload.length) :
    readFrames xorKey buffer =
      some { headerXorKey := xorKey, buffer, events := [.headerDecoded xorKey] } := by
  have hlimit : ¬ frame.header.cmdLen > datumMaxPayloadSize := by
    have hle := fits.header.cmdLen
    omega
  rw [readFrames_eq, if_neg (Nat.not_lt.mpr hlong), hheader, hdecode]
  dsimp only
  rw [if_neg hlimit, if_pos (by rw [fits.cmdLen]; exact hshort)]

/-- A whole frame. -/
theorem readFrames_frame {xorKey : UInt32} {frame : DatumFrame} {header : Bytes}
    (fits : frame.Fits) (hdecode : decodeDatumHeader header xorKey = some frame.header)
    (hlength : header.length = 4) (rest : Bytes) :
    readFrames xorKey (header ++ frame.payload ++ rest) =
      (readFrames (frame.keyAfter xorKey) rest).map fun reading =>
        { reading with events := .headerDecoded xorKey :: .frame frame :: reading.events } := by
  have hlimit : ¬ frame.header.cmdLen > datumMaxPayloadSize := by
    have hle := fits.header.cmdLen
    omega
  have hwhole : (header ++ frame.payload).length = 4 + frame.header.cmdLen := by
    rw [List.length_append, hlength, fits.cmdLen]
  have hlong : ¬ (header ++ frame.payload ++ rest).length < 4 + frame.header.cmdLen := by
    rw [List.length_append, hwhole]
    omega
  have htake : (header ++ frame.payload ++ rest).take 4 = header := by
    rw [List.append_assoc, List.take_left' hlength]
  have hpayload : ((header ++ frame.payload ++ rest).take (4 + frame.header.cmdLen)).drop 4 =
      frame.payload := by
    rw [List.take_left' hwhole, List.drop_left' hlength]
  rw [readFrames_eq, if_neg (by omega), htake, hdecode]
  dsimp only
  rw [if_neg hlimit, if_neg hlong, List.drop_left' hwhole, hpayload]

/-- A buffer that does not hold the next frame yet. -/
def Short (buffer : Bytes) (frames : List DatumFrame) : Prop :=
  ∀ frame ∈ frames.head?, buffer.length < 4 + frame.payload.length

/-- A reading has decoded every header with the key it was written with. -/
def RightReading (xorKey : UInt32) (events : List ReadEvent) : Prop :=
  ∀ before key after, events = before ++ .headerDecoded key :: after →
    key = keyAfterAll xorKey (readFramesOf before)

theorem rightReading_nil : RightReading xorKey [] := by
  intro before key after h
  exact absurd h (by simp)

theorem rightReading_singleton : RightReading xorKey [.headerDecoded xorKey] := by
  intro before key after hsplit
  match before with
  | [] =>
    obtain ⟨hkey, -⟩ := List.cons.inj hsplit
    exact (ReadEvent.headerDecoded.inj hkey).symm
  | _ :: before =>
    obtain ⟨-, hrest⟩ := List.cons.inj hsplit
    exact absurd hrest (by simp)

theorem RightReading.frame {xorKey : UInt32} {frame : DatumFrame} {events : List ReadEvent}
    (h : RightReading (frame.keyAfter xorKey) events) :
    RightReading xorKey (.headerDecoded xorKey :: .frame frame :: events) := by
  intro before key after hsplit
  match before with
  | [] =>
    obtain ⟨hkey, -⟩ := List.cons.inj hsplit
    exact (ReadEvent.headerDecoded.inj hkey).symm
  | [_] =>
    obtain ⟨-, hrest⟩ := List.cons.inj hsplit
    cases hrest
  | _ :: _ :: before =>
    obtain ⟨rfl, htail⟩ := List.cons.inj hsplit
    obtain ⟨rfl, hrest⟩ := List.cons.inj htail
    exact h before key after hrest

/-- A reader that has the right key reads all the frames that are there. -/
theorem readFrames_encodeFrames {xorKey : UInt32} {frames : List DatumFrame}
    (fits : ∀ frame ∈ frames, frame.Fits) {buffer unread : Bytes}
    (hbytes : encodeFrames xorKey frames = some (buffer ++ unread)) :
    ∃ reading now later, readFrames xorKey buffer = some reading ∧ frames = now ++ later ∧
      readFramesOf reading.events = now ∧
      encodeFrames (keyAfterAll xorKey now) later = some (reading.buffer ++ unread) ∧
      Short reading.buffer later ∧ RightReading xorKey reading.events := by
  induction frames generalizing xorKey buffer with
  | nil =>
    obtain ⟨rfl, rfl⟩ := List.append_eq_nil_iff.mp (Option.some.inj hbytes).symm
    refine ⟨_, [], [], readFrames_short xorKey (by decide), rfl, rfl, rfl, ?_, ?_⟩
    · exact fun frame hframe => nomatch hframe
    · exact fun before key after h => absurd h (by simp)
  | cons frame frames ih =>
    have hfits := fits frame List.mem_cons_self
    obtain ⟨header, rest, hlength, hdecode, hrest, hwire⟩ := encodeFrames_cons hfits hbytes
    by_cases hshort : buffer.length < 4 + frame.payload.length
    · -- The frame is not there yet, and its header may not be either.
      by_cases hlong : 4 ≤ buffer.length
      · have hheader : buffer.take 4 = header := by
          have htake := congrArg (List.take 4) hwire
          rwa [List.take_append_of_le_length hlong, List.append_assoc, List.take_left' hlength]
            at htake
        refine ⟨_, [], frame :: frames, readFrames_partial hfits hdecode hheader hlong hshort, rfl,
          rfl, hbytes, ?_, rightReading_singleton xorKey⟩
        rintro _ ⟨rfl⟩
        exact hshort
      · refine ⟨_, [], frame :: frames, readFrames_short xorKey (Nat.not_le.mp hlong), rfl, rfl,
          hbytes, ?_, rightReading_nil xorKey⟩
        rintro _ ⟨rfl⟩
        exact hshort
    · have hwhole : (header ++ frame.payload).length = 4 + frame.payload.length := by
        rw [List.length_append, hlength]
      have hle : (header ++ frame.payload).length ≤ buffer.length := by omega
      have htake := congrArg (List.take (header ++ frame.payload).length) hwire
      have hdrop := congrArg (List.drop (header ++ frame.payload).length) hwire
      rw [List.take_append_of_le_length hle, List.take_left] at htake
      rw [List.drop_append_of_le_length hle, List.drop_left] at hdrop
      rw [← hdrop] at hrest
      obtain ⟨reading, now, later, hread, hframes, hnow, hlater, hshort', hright⟩ :=
        ih (fun f hf => fits f (List.mem_cons_of_mem _ hf)) hrest
      have hbuffer : buffer = header ++ frame.payload ++
          buffer.drop (header ++ frame.payload).length := by
        conv_lhs => rw [← List.take_append_drop (header ++ frame.payload).length buffer, htake]
      refine ⟨{ reading with events := .headerDecoded xorKey :: .frame frame :: reading.events },
        frame :: now, later, ?_, by rw [hframes, List.cons_append], ?_, hlater, hshort',
        hright.frame⟩
      · rw [hbuffer, readFrames_frame hfits hdecode hlength, hread]
        rfl
      · exact congrArg (frame :: ·) hnow

/-! ### The client -/

/-- The frames of the encrypted channel. -/
def channelsOf (frames : List DatumFrame) : List DatumFrame :=
  frames.filter (·.header.isEncryptedChannel)

@[simp] theorem channelsOf_append (frames more : List DatumFrame) :
    channelsOf (frames ++ more) = channelsOf frames ++ channelsOf more :=
  List.filter_append ..

theorem channelsOf_cons (frame : DatumFrame) (frames : List DatumFrame) :
    channelsOf (frame :: frames) = channelsOf [frame] ++ channelsOf frames :=
  channelsOf_append [frame] frames

theorem channelsOf_channel {frame : DatumFrame} (h : frame.header.isEncryptedChannel = true) :
    channelsOf [frame] = [frame] := by
  simp [channelsOf, h]

theorem channelsOf_plain {frame : DatumFrame} (h : frame.header.isEncryptedChannel = false) :
    channelsOf [frame] = [] := by
  simp [channelsOf, h]

/-- Only frames of the encrypted channel move the key. -/
theorem keyAfterAll_channelsOf (frames : List DatumFrame) :
    keyAfterAll xorKey (channelsOf frames) = keyAfterAll xorKey frames := by
  induction frames generalizing xorKey with
  | nil => rfl
  | cons frame frames ih =>
    rw [channelsOf, List.filter_cons]
    cases hchannel : frame.header.isEncryptedChannel with
    | true =>
      rw [if_pos rfl, keyAfterAll_cons, keyAfterAll_cons]
      exact ih _
    | false =>
      rw [if_neg Bool.false_ne_true, keyAfterAll_cons, DatumFrame.keyAfter, hchannel,
        if_neg Bool.false_ne_true]
      exact ih _

end

/-- A frame a client sends after its handshake. -/
structure ClientFrame where
  reserved : ℕ
  isSigned : Bool
  isEncryptedPubkey : Bool
  isEncryptedChannel : Bool
  protoCmd : ℕ
  plaintext : Bytes
  reserved_lt : reserved < 2 ^ 2
  protoCmd_lt : protoCmd < 2 ^ 5
  protoCmd_ne : protoCmd ≠ handshakeInit

/-- The encryption of a client: a payload, a nonce and the shared secret. -/
abbrev BoxEasy := Bytes → Bytes → Bytes → Bytes

/-- The frame on the wire. -/
def ClientFrame.seal (box : BoxEasy) (secret : Bytes) (nonce : DatumNonce) (f : ClientFrame) :
    DatumFrame :=
  let payload := if f.isEncryptedChannel then box f.plaintext nonce.bytes secret else f.plaintext
  { header := {
      cmdLen := payload.length
      reserved := f.reserved
      isSigned := f.isSigned
      isEncryptedPubkey := f.isEncryptedPubkey
      isEncryptedChannel := f.isEncryptedChannel
      protoCmd := f.protoCmd }
    payload }

/-- A client's frames, encrypted in order with incrementing nonces. -/
def sealFrames (box : BoxEasy) (secret : Bytes) : DatumNonce → List ClientFrame → List DatumFrame
  | _, [] => []
  | nonce, f :: frames =>
    f.seal box secret nonce ::
      sealFrames box secret (if f.isEncryptedChannel then incrementNonce nonce else nonce) frames

/-- A client that follows the protocol: what it sends first is a handshake that the server opens,
and what it sends after it is written with the keys of that handshake. -/
structure DatumClient (sodium : DatumSodium) where
  box : BoxEasy
  handshake : DatumFrame
  hello : DatumHello
  /-- The session that the server derives from the handshake, and the client as well. -/
  opened : DatumCryptoSession
  frames : List ClientFrame
  handshake_fits : handshake.Fits
  handshake_protoCmd : handshake.header.protoCmd = handshakeInit
  handshake_plain : handshake.header.isEncryptedChannel = false
  opens : DatumCryptoSession.openHandshake sodium {} handshake.payload = some (hello, opened)
  /-- The server decrypts what is encrypted with the same nonce and secret. -/
  boxOpens : ∀ plaintext nonce secret,
    sodium.boxOpenEasyAfternm (box plaintext nonce secret) nonce secret = some plaintext
  /-- Nothing is longer than a header can say. -/
  short : ∀ frame ∈ sealFrames box (opened.sharedSecret.getD []) (opened.receiveNonce.getD [])
    frames, frame.payload.length ≤ datumMaxPayloadSize - 1

namespace DatumClient

variable {sodium : DatumSodium} (client : DatumClient sodium)

def secret : Bytes := client.opened.sharedSecret.getD []

def nonce : DatumNonce := client.opened.receiveNonce.getD []

/-- The frames after the handshake. -/
def sealed : List DatumFrame := sealFrames client.box client.secret client.nonce client.frames

/-- The payloads of the encrypted channel. -/
def plaintexts : List Bytes := (client.frames.filter (·.isEncryptedChannel)).map (·.plaintext)

def handshakeBytes : Bytes := (encodeFrames datumInitialHeaderKey [client.handshake]).getD []

def frameBytes : Bytes := (encodeFrames client.opened.receiveHeaderKey client.sealed).getD []

/-- What the client sends. -/
def wire : Bytes := client.handshakeBytes ++ client.frameBytes

/-- The key with which the frame after some frames was written. -/
def keyFor : List DatumFrame → UInt32
  | [] => datumInitialHeaderKey
  | _ :: frames => keyAfterAll client.opened.receiveHeaderKey frames

end DatumClient

/-- Some frames of the encrypted channel open to some payloads, from a nonce on. -/
def OpensTo (sodium : DatumSodium) (secret : Bytes) :
    DatumNonce → List DatumFrame → List Bytes → Prop
  | _, [], payloads => payloads = []
  | nonce, frame :: frames, payloads => ∃ payload rest, payloads = payload :: rest ∧
      sodium.boxOpenEasyAfternm frame.payload nonce.bytes secret = some payload ∧
      OpensTo sodium secret (incrementNonce nonce) frames rest

section Client

variable {sodium : DatumSodium} {box : BoxEasy}

theorem opensTo_sealFrames (hbox : ∀ plaintext nonce secret,
      sodium.boxOpenEasyAfternm (box plaintext nonce secret) nonce secret = some plaintext)
    (secret : Bytes) (nonce : DatumNonce) (frames : List ClientFrame) :
    OpensTo sodium secret nonce (channelsOf (sealFrames box secret nonce frames))
      ((frames.filter (·.isEncryptedChannel)).map (·.plaintext)) := by
  induction frames generalizing nonce with
  | nil => rfl
  | cons f frames ih =>
    rw [sealFrames, channelsOf, List.filter_cons, List.filter_cons]
    cases hchannel : f.isEncryptedChannel with
    | true =>
      rw [show (f.seal box secret nonce).header.isEncryptedChannel = true from hchannel, if_pos rfl,
        if_pos rfl]
      refine ⟨f.plaintext, _, List.map_cons, ?_, ih (incrementNonce nonce)⟩
      rw [ClientFrame.seal, hchannel]
      exact hbox ..
    | false =>
      rw [show (f.seal box secret nonce).header.isEncryptedChannel = false from hchannel,
        if_neg Bool.false_ne_true, if_neg Bool.false_ne_true]
      exact ih nonce

theorem mem_sealFrames {secret : Bytes} {nonce : DatumNonce} {frames : List ClientFrame}
    {frame : DatumFrame} (h : frame ∈ sealFrames box secret nonce frames) :
    ∃ f nonce', frame = ClientFrame.seal box secret nonce' f := by
  induction frames generalizing nonce with
  | nil => cases h
  | cons f frames ih =>
    rw [sealFrames, List.mem_cons] at h
    obtain rfl | h := h
    · exact ⟨f, nonce, rfl⟩
    · exact ih h

theorem exists_encodeFrames (xorKey : UInt32) {frames : List DatumFrame}
    (fits : ∀ frame ∈ frames, frame.Fits) : ∃ wire, encodeFrames xorKey frames = some wire := by
  induction frames generalizing xorKey with
  | nil => exact ⟨[], rfl⟩
  | cons frame frames ih =>
    obtain ⟨header, hencode, -⟩ :=
      decodeDatumHeader_encodeDatumHeader (fits frame List.mem_cons_self).header xorKey
    obtain ⟨rest, hrest⟩ := ih (frame.keyAfter xorKey)
      fun f hf => fits f (List.mem_cons_of_mem _ hf)
    exact ⟨header ++ frame.payload ++ rest, by rw [encodeFrames, hencode, hrest]; rfl⟩

variable (client : DatumClient sodium)

theorem DatumClient.sealed_fits : ∀ frame ∈ client.sealed, frame.Fits := by
  intro frame hframe
  have hshort := client.short frame hframe
  obtain ⟨f, nonce, rfl⟩ := mem_sealFrames hframe
  exact ⟨⟨hshort, f.reserved_lt, f.protoCmd_lt⟩, rfl⟩

theorem DatumClient.sealed_protoCmd :
    ∀ frame ∈ client.sealed, frame.header.protoCmd ≠ handshakeInit := by
  intro frame hframe
  obtain ⟨f, nonce, rfl⟩ := mem_sealFrames hframe
  exact f.protoCmd_ne

theorem DatumClient.encode_handshake :
    encodeFrames datumInitialHeaderKey [client.handshake] = some client.handshakeBytes := by
  have fits : ∀ frame ∈ [client.handshake], frame.Fits := by
    intro frame hframe
    rw [List.mem_singleton.mp hframe]
    exact client.handshake_fits
  obtain ⟨wire, hwire⟩ := exists_encodeFrames datumInitialHeaderKey fits
  rw [handshakeBytes, hwire]
  rfl

theorem DatumClient.encode_sealed :
    encodeFrames client.opened.receiveHeaderKey client.sealed = some client.frameBytes := by
  obtain ⟨wire, hwire⟩ := exists_encodeFrames client.opened.receiveHeaderKey client.sealed_fits
  rw [frameBytes, hwire]
  rfl

end Client

/-- A session that is in the middle of the channel. -/
structure Ready (secret : Bytes) (nonce : DatumNonce) (session : DatumCryptoSession) : Prop where
  initialized : session.initialized = true
  sharedSecret : session.sharedSecret = some secret
  receiveNonce : session.receiveNonce = some nonce

/-- A handshake that opens leaves a session with its keys. -/
theorem openHandshake_spec {sodium : DatumSodium} {session opened : DatumCryptoSession}
    {payload : Bytes} {hello : DatumHello}
    (h : session.openHandshake sodium payload = some (hello, opened)) :
    opened.initialized = true ∧ ∃ secret nonce, opened.sharedSecret = some secret ∧
      opened.receiveNonce = some nonce := by
  obtain ⟨bytes, -, h⟩ := Option.bind_eq_some_iff.mp h
  split at h
  · cases h
  · dsimp only at h
    split at h
    · cases h
    · obtain ⟨parsed, -, h⟩ := Option.bind_eq_some_iff.mp h
      cases h
      exact ⟨rfl, _, _, rfl, rfl⟩

theorem DatumClient.ready {sodium : DatumSodium} (client : DatumClient sodium) :
    Ready client.secret client.nonce client.opened := by
  obtain ⟨hinit, secret, nonce, hsecret, hnonce⟩ := openHandshake_spec client.opens
  refine ⟨hinit, ?_, ?_⟩
  · rw [hsecret, DatumClient.secret, hsecret, Option.getD_some]
  · rw [hnonce, DatumClient.nonce, hnonce, Option.getD_some]

/-! ### What the server has read -/

/-- The frames that have been parsed. -/
def framesOf (history : List DatumStreamEvent) : List DatumFrame :=
  history.filterMap fun
    | .frame frame => some frame
    | _ => none

/-- The payloads that have been decrypted. -/
def payloadsOf (history : List DatumStreamEvent) : List Bytes :=
  history.filterMap fun
    | .decrypted payload => some payload
    | _ => none

@[simp] theorem framesOf_append (h more : List DatumStreamEvent) :
    framesOf (h ++ more) = framesOf h ++ framesOf more :=
  List.filterMap_append

@[simp] theorem payloadsOf_append (h more : List DatumStreamEvent) :
    payloadsOf (h ++ more) = payloadsOf h ++ payloadsOf more :=
  List.filterMap_append

variable (events : List ReadEvent)

@[simp] theorem framesOf_reading :
    framesOf (events.map (·.toStreamEvent)) = readFramesOf events := by
  rw [framesOf, readFramesOf, List.filterMap_map]
  congr 1
  funext event
  cases event <;> rfl

@[simp] theorem payloadsOf_reading : payloadsOf (events.map (·.toStreamEvent)) = [] := by
  rw [payloadsOf, List.filterMap_map, List.filterMap_eq_nil_iff]
  intro event _
  cases event <;> rfl

theorem not_failed_reading : DatumStreamEvent.failed ∉ events.map (·.toStreamEvent) := by
  intro hmem
  obtain ⟨event, -, h⟩ := List.mem_map.mp hmem
  cases event <;> cases h

section Receives

variable {sodium : DatumSodium} (client : DatumClient sodium)

/-- Every header has been decoded with the key it was written with. -/
def RightKeys (h : List DatumStreamEvent) : Prop :=
  ∀ before key after, h = before ++ .headerDecoded key :: after →
    key = client.keyFor (framesOf before)

/-- The server has read what the client sent, in order. -/
structure Receives (h : List DatumStreamEvent) : Prop where
  keys : RightKeys client h
  frames : framesOf h <+: client.handshake :: client.sealed
  payloads : payloadsOf h <+: client.plaintexts
  sound : DatumStreamEvent.failed ∉ h

variable {client}

theorem RightKeys.append {h events : List DatumStreamEvent} (hright : RightKeys client h)
    (hevents : ∀ before key after, events = before ++ .headerDecoded key :: after →
      key = client.keyFor (framesOf h ++ framesOf before)) : RightKeys client (h ++ events) := by
  intro before key after hsplit
  obtain ⟨middle, rfl, hafter⟩ | ⟨middle, rfl, hafter⟩ := List.append_eq_append_iff.mp hsplit
  · rw [framesOf_append]
    exact hevents middle key after hafter
  · match middle with
    | [] =>
      have hkey : key = client.keyFor (framesOf (before ++ []) ++ []) :=
        hevents [] key after hafter.symm
      rwa [List.append_nil, List.append_nil] at hkey
    | event :: middle =>
      obtain ⟨rfl, -⟩ := List.cons.inj hafter
      exact hright before key middle rfl

/-- Events without a header. -/
theorem RightKeys.append_of_forall {h events : List DatumStreamEvent}
    (hright : RightKeys client h) (hevents : ∀ key, .headerDecoded key ∉ events) :
    RightKeys client (h ++ events) := by
  refine hright.append fun before key after hsplit => absurd ?_ (hevents key)
  rw [hsplit]
  exact List.mem_append_right _ List.mem_cons_self

/-- A right reading is right on the connection, when the reader starts with the right key. -/
theorem RightKeys.append_reading {h : List DatumStreamEvent} {xorKey : UInt32}
    {events : List ReadEvent} (hright : RightKeys client h)
    (hkey : ∀ before key after, events = before ++ .headerDecoded key :: after →
      client.keyFor (framesOf h ++ readFramesOf before) = keyAfterAll xorKey (readFramesOf before))
    (hreading : RightReading xorKey events) :
    RightKeys client (h ++ events.map (·.toStreamEvent)) := by
  refine hright.append fun before key after hsplit => ?_
  obtain ⟨first, second, rfl, rfl, hsecond⟩ := List.map_eq_append_iff.mp hsplit
  obtain ⟨event, rest, rfl, hevent, rfl⟩ := List.map_eq_cons_iff.mp hsecond
  cases event with
  | frame frame => cases hevent
  | headerDecoded key' =>
    cases hevent
    rw [framesOf_reading, hkey first key rest rfl]
    exact hreading first key rest rfl

end Receives

/-! ### One frame is taken up -/

section TakeUp

variable {sodium : DatumSodium} {secret : Bytes} {nonce : DatumNonce}
  {session : DatumCryptoSession} {frame : DatumFrame} {more : List DatumFrame}
  {payloads : List Bytes}

/-- The session keeps in step with the frames it decrypts. -/
theorem takeUp_spec (ready : Ready secret nonce session)
    (hproto : frame.header.protoCmd ≠ handshakeInit)
    (opens : OpensTo sodium secret nonce (channelsOf [frame] ++ more) payloads) :
    ∃ session' nonce' done left, takeUp sodium session frame =
        some (session', done.map DatumStreamEvent.decrypted) ∧ payloads = done ++ left ∧
      Ready secret nonce' session' ∧
      session'.receiveHeaderKey = frame.keyAfter session.receiveHeaderKey ∧
      OpensTo sodium secret nonce' more left := by
  cases hchannel : frame.header.isEncryptedChannel with
  | false =>
    refine ⟨session, nonce, [], payloads, ?_, rfl, ready, ?_, ?_⟩
    · rw [takeUp, hchannel]
      simp [hproto]
    · rw [DatumFrame.keyAfter, hchannel, if_neg Bool.false_ne_true]
    · rwa [channelsOf_plain hchannel, List.nil_append] at opens
  | true =>
    rw [channelsOf_channel hchannel, List.singleton_append] at opens
    obtain ⟨payload, rest, rfl, hopen, hrest⟩ := opens
    obtain ⟨session', hdecrypt, hready, hkey⟩ :
        ∃ session', session.decryptChannelPayload sodium frame.payload = some (payload, session') ∧
          Ready secret (incrementNonce nonce) session' ∧
          session'.receiveHeaderKey = datumHeaderXorFeedback session.receiveHeaderKey := by
      rw [DatumCryptoSession.decryptChannelPayload, ready.initialized, ready.sharedSecret,
        ready.receiveNonce]
      dsimp only
      rw [hopen]
      exact ⟨_, rfl, ⟨rfl, rfl, rfl⟩, rfl⟩
    refine ⟨session', incrementNonce nonce, [payload], rest, ?_, rfl, hready, ?_, hrest⟩
    · rw [takeUp, hchannel, hdecrypt]
      simp [hproto]
    · rw [DatumFrame.keyAfter, hchannel, if_pos rfl, hkey]

variable (done : List Bytes)

theorem framesOf_decrypted : framesOf (done.map DatumStreamEvent.decrypted) = [] := by
  rw [framesOf, List.filterMap_map, List.filterMap_eq_nil_iff]
  exact fun _ _ => rfl

theorem payloadsOf_decrypted : payloadsOf (done.map DatumStreamEvent.decrypted) = done := by
  rw [payloadsOf, List.filterMap_map]
  exact List.filterMap_some

theorem not_failed_decrypted : DatumStreamEvent.failed ∉ done.map DatumStreamEvent.decrypted := by
  simp

end TakeUp

/-! ### The data handler -/

namespace DatumConnection

variable {sodium : DatumSodium} (c : DatumConnection) {data : Bytes} {reading : Reading}

theorem feed_of_reading
    (hread : readFrames c.session.receiveHeaderKey (c.reader.buffer ++ data) = some reading) :
    (c.reader.setHeaderXorKey c.session.receiveHeaderKey).feed data =
      some ({ buffer := reading.buffer, headerXorKey := reading.headerXorKey },
        reading.events) := by
  rw [DatumFrameReader.feed]
  simp only [DatumFrameReader.setHeaderXorKey]
  rw [hread]
  rfl

/-- No frame is complete. -/
theorem handleData_of_nil
    (hread : readFrames c.session.receiveHeaderKey (c.reader.buffer ++ data) = some reading)
    (hnow : readFramesOf reading.events = []) :
    c.handleData sodium data =
      ({ c with reader := { buffer := reading.buffer, headerXorKey := reading.headerXorKey } },
        reading.events.map (·.toStreamEvent)) := by
  rw [handleData, c.feed_of_reading hread]
  simp only [hnow]

/-- The loop takes up the first of the frames. -/
theorem handleData_of_cons {frame : DatumFrame} {frames : List DatumFrame}
    {session : DatumCryptoSession} {taken : List DatumStreamEvent}
    (hread : readFrames c.session.receiveHeaderKey (c.reader.buffer ++ data) = some reading)
    (hnow : readFramesOf reading.events = frame :: frames)
    (htake : takeUp sodium c.session frame = some (session, taken)) :
    c.handleData sodium data =
      ({ c with
          reader := { buffer := reading.buffer, headerXorKey := reading.headerXorKey }
          session
          loops := c.loops ++ [frames] },
        reading.events.map (·.toStreamEvent) ++ taken) := by
  rw [handleData, c.feed_of_reading hread]
  simp only [hnow, htake]

theorem resume_of_nil {i : ℕ} (hloop : c.loops[i]? = some []) :
    c.resume sodium i =
      ({ c with
          reader := c.reader.setHeaderXorKey c.session.receiveHeaderKey
          loops := c.loops.eraseIdx i }, []) := by
  simp only [resume, hloop]

theorem resume_of_cons {i : ℕ} {frame : DatumFrame} {frames : List DatumFrame}
    {session : DatumCryptoSession} {taken : List DatumStreamEvent}
    (hloop : c.loops[i]? = some (frame :: frames))
    (htake : takeUp sodium c.session frame = some (session, taken)) :
    c.resume sodium i =
      ({ c with
          reader := c.reader.setHeaderXorKey c.session.receiveHeaderKey
          session
          loops := c.loops.set i frames }, taken) := by
  simp only [resume, hloop, htake]

end DatumConnection

/-! ### Runs -/

/-- The pieces in which the bytes have come. -/
def piecesOf (inputs : List DatumStreamInput) : List Bytes :=
  inputs.filterMap fun
    | .data data => some data
    | _ => none

/-- The frames that are parsed and wait to be decrypted. -/
def DatumConnection.waiting (c : DatumConnection) : List DatumFrame :=
  c.loops.flatMap channelsOf

section Runs

variable {sodium : DatumSodium} (client : DatumClient sodium)

/-- No piece completes a header whose key is not known yet: until the handshake is opened, that is
the header after it, and until all that is parsed is decrypted, the next one. -/
def Unhurried (c : DatumConnection) : DatumStreamInput → Prop
  | .data data =>
    if c.session.initialized then
      c.waiting = [] ∨ (c.reader.buffer ++ data).length < 4
    else (c.reader.buffer ++ data).length < client.handshakeBytes.length + 4
  | _ => True

instance (c : DatumConnection) (input : DatumStreamInput) :
    Decidable (Unhurried client c input) := by
  rcases input with _ | _ <;> unfold Unhurried <;> infer_instance

/-- The handshake has not come. -/
structure Before (received : Bytes) (c : DatumConnection) (h : List DatumStreamEvent) :
    Prop where
  session : c.session = {}
  loops : c.loops = []
  frames : framesOf h = []
  payloads : payloadsOf h = []
  buffer : c.closed = false → c.reader.buffer = received ∧
    received.length < client.handshakeBytes.length

/-- The handshake is open. Of the frames after it some are parsed, and some are not. -/
structure After (unread : Bytes) (c : DatumConnection) (h : List DatumStreamEvent)
    (parsed todo more : List DatumFrame) (left : List Bytes) : Prop where
  frames : framesOf h = client.handshake :: parsed
  sealed : client.sealed = parsed ++ todo
  payloads : payloadsOf h ++ left = client.plaintexts
  loops : OnlyLast channelsOf c.loops
  proto : ∀ frames ∈ c.loops, ∀ frame ∈ frames, frame.header.protoCmd ≠ handshakeInit
  session : ∃ nonce, Ready client.secret nonce c.session ∧
    OpensTo sodium client.secret nonce (c.waiting ++ more) left
  alive : c.closed = false → more = channelsOf todo ∧
    keyAfterAll c.session.receiveHeaderKey c.waiting =
      keyAfterAll client.opened.receiveHeaderKey parsed ∧
    encodeFrames (keyAfterAll client.opened.receiveHeaderKey parsed) todo =
      some (c.reader.buffer ++ unread) ∧
    Short c.reader.buffer todo

/-- What holds when some bytes have been received and the rest of what the client sends has not. -/
structure DatumStage (received unread : Bytes) (c : DatumConnection)
    (h : List DatumStreamEvent) : Prop where
  keys : RightKeys client h
  sound : DatumStreamEvent.failed ∉ h
  stage : Before client received c h ∨
    ∃ parsed todo more left, After client unread c h parsed todo more left

variable {client}

theorem keyAfterAll_keyAfter (xorKey : UInt32) (frame : DatumFrame) (frames : List DatumFrame) :
    keyAfterAll (frame.keyAfter xorKey) frames =
      keyAfterAll xorKey (channelsOf [frame] ++ frames) := by
  rw [keyAfterAll_append, keyAfterAll_channelsOf]
  rfl

section Open

variable {unread data : Bytes} {c : DatumConnection} {h : List DatumStreamEvent}
  {parsed todo more : List DatumFrame} {left : List Bytes}

theorem After.keyFor (hafter : After client unread c h parsed todo more left)
    (frames : List DatumFrame) :
    client.keyFor (framesOf h ++ frames) =
      keyAfterAll (keyAfterAll client.opened.receiveHeaderKey parsed) frames := by
  rw [hafter.frames, List.cons_append, DatumClient.keyFor, keyAfterAll_append]

/-- What the reader makes of a piece. -/
theorem After.reading (hafter : After client (data ++ unread) c h parsed todo more left)
    (hopen : c.closed = false) (hready : c.waiting = [] ∨ (c.reader.buffer ++ data).length < 4) :
    ∃ reading now later,
      readFrames c.session.receiveHeaderKey (c.reader.buffer ++ data) = some reading ∧
      todo = now ++ later ∧ readFramesOf reading.events = now ∧
      encodeFrames (keyAfterAll client.opened.receiveHeaderKey (parsed ++ now)) later =
        some (reading.buffer ++ unread) ∧
      Short reading.buffer later ∧
      RightReading (keyAfterAll client.opened.receiveHeaderKey parsed) reading.events ∧
      (now = [] ∨ c.waiting = []) := by
  obtain ⟨-, hkey, hbytes, -⟩ := hafter.alive hopen
  rw [← List.append_assoc] at hbytes
  obtain hidle | hshort := hready
  · -- Nothing waits, so the session's key is the one of the next header.
    rw [hidle, keyAfterAll_nil] at hkey
    have fits : ∀ frame ∈ todo, frame.Fits := fun frame hframe =>
      client.sealed_fits frame (by rw [hafter.sealed]; exact List.mem_append_right _ hframe)
    obtain ⟨reading, now, later, hread, htodo, hnow, hlater, hshort, hright⟩ :=
      readFrames_encodeFrames fits hbytes
    rw [← keyAfterAll_append] at hlater
    rw [hkey]
    exact ⟨reading, now, later, hread, htodo, hnow, hlater, hshort, hright, Or.inr hidle⟩
  · refine ⟨_, [], todo, readFrames_short _ hshort, rfl, rfl, ?_, ?_, rightReading_nil _,
      Or.inl rfl⟩
    · rwa [List.append_nil]
    · intro frame _
      exact Nat.lt_add_right _ hshort

theorem After.handleData (hafter : After client (data ++ unread) c h parsed todo more left)
    (hkeys : RightKeys client h) (hsound : DatumStreamEvent.failed ∉ h)
    (hopen : c.closed = false) (hready : c.waiting = [] ∨ (c.reader.buffer ++ data).length < 4)
    (received : Bytes) :
    DatumStage client received unread (c.handleData sodium data).1
      (h ++ (c.handleData sodium data).2) := by
  obtain ⟨reading, now, later, hread, rfl, hnow, hlater, hshort, hright, hidle⟩ :=
    hafter.reading hopen hready
  obtain ⟨rfl, hkey, -, -⟩ := hafter.alive hopen
  have hkeys' := hkeys.append_reading
    (fun before _ _ _ => hafter.keyFor (readFramesOf before)) hright
  have hsound' : DatumStreamEvent.failed ∉ h ++ reading.events.map (·.toStreamEvent) := by
    rw [List.mem_append]
    exact fun hmem => hmem.elim hsound (not_failed_reading _)
  cases now with
  | nil =>
    rw [c.handleData_of_nil hread hnow]
    refine ⟨hkeys', hsound', Or.inr ⟨parsed, later, channelsOf later, left, ?_⟩⟩
    refine { hafter with frames := ?_, payloads := ?_, alive := fun _ => ⟨rfl, hkey, ?_, hshort⟩ }
    · rw [framesOf_append, framesOf_reading, hnow, List.append_nil, hafter.frames]
    · rw [payloadsOf_append, payloadsOf_reading, List.append_nil, hafter.payloads]
    · rwa [List.append_nil] at hlater
  | cons frame frames =>
    -- Nothing waits, and the loop of this piece takes up the first frame.
    obtain hnil | hidle := hidle
    · cases hnil
    have hproto : ∀ f ∈ frame :: frames, f.header.protoCmd ≠ handshakeInit := by
      intro f hf
      refine client.sealed_protoCmd f ?_
      rw [hafter.sealed]
      exact List.mem_append_right _ (List.mem_append_left _ hf)
    obtain ⟨nonce, hready', hopens⟩ := hafter.session
    rw [hidle, List.nil_append, channelsOf_append, channelsOf_cons, List.append_assoc] at hopens
    obtain ⟨session, nonce', done, left', htake, rfl, hsession, hkey', hopens'⟩ :=
      takeUp_spec hready' (hproto frame List.mem_cons_self) hopens
    obtain ⟨hloops, hwaiting⟩ := hafter.loops.append hidle frames
    rw [c.handleData_of_cons hread hnow htake]
    dsimp only
    rw [← List.append_assoc]
    refine ⟨hkeys'.append_of_forall (by simp), ?_, Or.inr ⟨parsed ++ frame :: frames, later,
      channelsOf later, left', ?_⟩⟩
    · rw [List.mem_append]
      exact fun hmem => hmem.elim hsound' (not_failed_decrypted _)
    · refine ⟨?_, ?_, ?_, hloops, ?_, ⟨nonce', hsession, ?_⟩, fun _ => ⟨rfl, ?_, hlater, hshort⟩⟩
      · rw [framesOf_append, framesOf_append, framesOf_reading, hnow, framesOf_decrypted,
          List.append_nil, hafter.frames, List.cons_append]
      · rw [hafter.sealed, List.append_assoc]
      · rw [payloadsOf_append, payloadsOf_append, payloadsOf_reading, payloadsOf_decrypted,
          List.append_nil, List.append_assoc, hafter.payloads]
      · intro fs hfs f hf
        rw [List.mem_append, List.mem_singleton] at hfs
        obtain hfs | rfl := hfs
        · exact hafter.proto fs hfs f hf
        · exact hproto f (List.mem_cons_of_mem _ hf)
      · rwa [DatumConnection.waiting, hwaiting]
      · rw [hidle, keyAfterAll_nil] at hkey
        rw [DatumConnection.waiting, hwaiting, hkey', keyAfterAll_channelsOf, hkey,
          keyAfterAll_append, keyAfterAll_cons]

theorem After.resume (hafter : After client unread c h parsed todo more left)
    (hkeys : RightKeys client h) (hsound : DatumStreamEvent.failed ∉ h) (i : ℕ)
    (received : Bytes) :
    DatumStage client received unread (c.resume sodium i).1 (h ++ (c.resume sodium i).2) := by
  match hloop : c.loops[i]? with
  | none =>
    rw [DatumConnection.resume, hloop, List.append_nil]
    exact ⟨hkeys, hsound, Or.inr ⟨parsed, todo, more, left, hafter⟩⟩
  | some [] =>
    -- The loop has nothing left, and ends.
    rw [c.resume_of_nil hloop, List.append_nil]
    obtain ⟨hloops, hsame | ⟨hwork, -⟩⟩ := hafter.loops.erase hloop
    · refine ⟨hkeys, hsound, Or.inr ⟨parsed, todo, more, left, ?_⟩⟩
      refine { hafter with loops := hloops, proto := ?_, session := ?_, alive := ?_ }
      · exact fun fs hfs => hafter.proto fs (List.mem_of_mem_eraseIdx hfs)
      · rw [DatumConnection.waiting, hsame]
        exact hafter.session
      · rw [DatumConnection.waiting, hsame]
        exact hafter.alive
    · exact absurd rfl hwork
  | some (frame :: frames) =>
    have hproto := hafter.proto _ (List.mem_of_getElem? hloop)
    obtain ⟨hloops, hwaiting⟩ := hafter.loops.move hloop (channelsOf_cons frame frames)
    obtain ⟨nonce, hready, hopens⟩ := hafter.session
    rw [DatumConnection.waiting, hwaiting, List.append_assoc] at hopens
    obtain ⟨session, nonce', done, left', htake, rfl, hsession, hkey, hopens'⟩ :=
      takeUp_spec hready (hproto frame List.mem_cons_self) hopens
    rw [c.resume_of_cons hloop htake]
    refine ⟨hkeys.append_of_forall (by simp), ?_, Or.inr ⟨parsed, todo, more, left', ?_⟩⟩
    · rw [List.mem_append]
      exact fun hmem => hmem.elim hsound (not_failed_decrypted _)
    · refine ⟨?_, hafter.sealed, ?_, hloops, ?_, ⟨nonce', hsession, hopens'⟩, fun hopen => ?_⟩
      · rw [framesOf_append, framesOf_decrypted, List.append_nil, hafter.frames]
      · rw [payloadsOf_append, payloadsOf_decrypted, List.append_assoc, hafter.payloads]
      · intro fs hfs f hf
        obtain hfs | rfl := List.mem_or_eq_of_mem_set hfs
        · exact hafter.proto fs hfs f hf
        · exact hproto f (List.mem_cons_of_mem _ hf)
      · obtain ⟨hmore, hkeys', hbytes, hshort⟩ := hafter.alive hopen
        refine ⟨hmore, ?_, hbytes, hshort⟩
        rw [← hkeys', hkey, keyAfterAll_keyAfter, DatumConnection.waiting,
          DatumConnection.waiting, hwaiting]

/-- A connection that has closed reads no more. -/
theorem After.fails (hafter : After client unread c h parsed todo more left) (i : ℕ) :
    ∃ more, After client unread { c with closed := true, loops := c.loops.eraseIdx i } h parsed
      todo more left := by
  obtain ⟨nonce, hready, hopens⟩ := hafter.session
  have hproto : ∀ frames ∈ c.loops.eraseIdx i, ∀ frame ∈ frames,
      frame.header.protoCmd ≠ handshakeInit :=
    fun fs hfs => hafter.proto fs (List.mem_of_mem_eraseIdx hfs)
  have hclosed {P : Prop} : true = false → P := fun h => nomatch h
  cases hloop : c.loops[i]? with
  | none =>
    have hsame : c.loops.eraseIdx i = c.loops :=
      List.eraseIdx_of_length_le (List.getElem?_eq_none_iff.mp hloop)
    rw [hsame]
    exact ⟨more, { hafter with alive := hclosed }⟩
  | some frames =>
    obtain ⟨hloops, hsame | ⟨-, hnone⟩⟩ := hafter.loops.erase hloop
    · refine ⟨more, { hafter with
        loops := hloops, proto := hproto, session := ⟨nonce, hready, ?_⟩, alive := hclosed }⟩
      rwa [DatumConnection.waiting, hsame]
    · -- What the failed loop still had is lost.
      refine ⟨c.waiting ++ more, { hafter with
        loops := hloops, proto := hproto, session := ⟨nonce, hready, ?_⟩, alive := hclosed }⟩
      rwa [DatumConnection.waiting, hnone, List.nil_append]

variable {received : Bytes}

/-- The handshake is complete, and the header after it is not. -/
theorem Before.handshake (hbefore : Before client received c h)
    (hwire : received ++ data ++ unread = client.wire) (hkeys : RightKeys client h)
    (hsound : DatumStreamEvent.failed ∉ h) (hopen : c.closed = false)
    (hcomplete : client.handshakeBytes.length ≤ (received ++ data).length)
    (hshort : (received ++ data).length < client.handshakeBytes.length + 4) (bytes : Bytes) :
    DatumStage client bytes unread (c.handleData sodium data).1
      (h ++ (c.handleData sodium data).2) := by
  obtain ⟨tail, htail⟩ : client.handshakeBytes <+: received ++ data :=
    List.prefix_of_prefix_length_le ⟨client.frameBytes, rfl⟩ ⟨unread, hwire⟩ hcomplete
  have hrest : client.frameBytes = tail ++ unread := by
    rw [← htail, List.append_assoc, DatumClient.wire] at hwire
    exact (List.append_cancel_left hwire).symm
  have hfour : tail.length < 4 := by
    rw [← htail, List.length_append] at hshort
    omega
  obtain ⟨header, rest, hlength, hdecode, hnil, hbytes⟩ :=
    encodeFrames_cons client.handshake_fits client.encode_handshake
  cases hnil
  rw [List.append_nil] at hbytes
  have hread : readFrames c.session.receiveHeaderKey (c.reader.buffer ++ data) =
      some { headerXorKey := datumInitialHeaderKey, buffer := tail,
             events := [.headerDecoded datumInitialHeaderKey, .frame client.handshake] } := by
    have hkey : client.handshake.keyAfter datumInitialHeaderKey = datumInitialHeaderKey := by
      rw [DatumFrame.keyAfter, client.handshake_plain, if_neg Bool.false_ne_true]
    rw [hbefore.session, (hbefore.buffer hopen).1, ← htail, hbytes]
    refine (readFrames_frame client.handshake_fits hdecode hlength tail).trans ?_
    rw [hkey, readFrames_short _ hfour]
    rfl
  have htake : takeUp sodium c.session client.handshake =
      some (client.opened, [.handshakeOpened]) := by
    rw [takeUp, client.handshake_plain, hbefore.session]
    simp [client.handshake_protoCmd, client.opens]
  have hnow : readFramesOf [.headerDecoded datumInitialHeaderKey, .frame client.handshake] =
      [client.handshake] := rfl
  have hloops : c.loops ++ [[]] = [[]] := by rw [hbefore.loops, List.nil_append]
  rw [c.handleData_of_cons hread hnow htake, hloops]
  refine ⟨?_, by simp [hsound, ReadEvent.toStreamEvent], Or.inr ⟨[], client.sealed,
    channelsOf client.sealed, client.plaintexts, ?_⟩⟩
  · refine hkeys.append fun before key after hsplit => ?_
    match before with
    | [] =>
      cases hsplit
      rw [hbefore.frames]
      rfl
    | [_] => cases hsplit
    | [_, _] => cases hsplit
    | _ :: _ :: _ :: before => simp at hsplit
  · refine ⟨?_, rfl, ?_, List.pairwise_singleton .., by simp, ⟨client.nonce, client.ready, ?_⟩,
      fun _ => ⟨rfl, rfl, ?_, ?_⟩⟩
    · rw [framesOf_append, hbefore.frames]
      rfl
    · rw [payloadsOf_append, hbefore.payloads]
      rfl
    · exact opensTo_sealFrames client.boxOpens client.secret client.nonce client.frames
    · rw [keyAfterAll_nil, client.encode_sealed, hrest]
    · intro frame _
      exact Nat.lt_add_right _ hfour

/-- The handshake is not complete. -/
theorem Before.incomplete (hbefore : Before client received c h)
    (hwire : received ++ data ++ unread = client.wire) (hkeys : RightKeys client h)
    (hsound : DatumStreamEvent.failed ∉ h) (hopen : c.closed = false)
    (hshort : (received ++ data).length < client.handshakeBytes.length) :
    DatumStage client (received ++ data) unread (c.handleData sodium data).1
      (h ++ (c.handleData sodium data).2) := by
  obtain ⟨rest, hrest⟩ : received ++ data <+: client.handshakeBytes :=
    List.prefix_of_prefix_length_le ⟨unread, hwire⟩ ⟨client.frameBytes, rfl⟩ hshort.le
  have fits : ∀ frame ∈ [client.handshake], frame.Fits := by
    intro frame hframe
    rw [List.mem_singleton.mp hframe]
    exact client.handshake_fits
  have hbytes := client.encode_handshake
  rw [← hrest] at hbytes
  obtain ⟨reading, now, later, hread, hframes, hnow, hlater, -, hright⟩ :=
    readFrames_encodeFrames fits hbytes
  have hnone : now = [] := by
    cases now with
    | nil => rfl
    | cons frame now =>
      -- Then nothing of the handshake would be missing.
      obtain ⟨-, hnil⟩ := List.cons.inj hframes
      obtain ⟨rfl, rfl⟩ := List.append_eq_nil_iff.mp hnil.symm
      obtain ⟨-, rfl⟩ := List.append_eq_nil_iff.mp (Option.some.inj hlater).symm
      rw [← hrest, List.append_nil] at hshort
      exact absurd hshort (lt_irrefl _)
  subst hnone
  rw [List.nil_append] at hframes
  have hread' : readFrames c.session.receiveHeaderKey (c.reader.buffer ++ data) =
      some reading := by
    rwa [hbefore.session, (hbefore.buffer hopen).1]
  rw [c.handleData_of_nil hread' hnow]
  have hbuffer : reading.buffer = received ++ data := by
    rw [← hframes, keyAfterAll_nil, hbytes] at hlater
    exact (List.append_cancel_right (Option.some.inj hlater)).symm
  refine ⟨hkeys.append_reading ?_ hright, ?_, Or.inl ⟨hbefore.session, hbefore.loops, ?_, ?_,
    fun _ => ⟨hbuffer, hshort⟩⟩⟩
  · intro before key after hsplit
    have hbefore' : readFramesOf before = [] := by
      rw [hsplit, readFramesOf, List.filterMap_append] at hnow
      exact (List.append_eq_nil_iff.mp hnow).1
    rw [hbefore', hbefore.frames]
    rfl
  · rw [List.mem_append]
    exact fun hmem => hmem.elim hsound (not_failed_reading _)
  · rw [framesOf_append, framesOf_reading, hnow, hbefore.frames, List.append_nil]
  · rw [payloadsOf_append, payloadsOf_reading, hbefore.payloads, List.append_nil]

theorem Before.handleData (hbefore : Before client received c h)
    (hwire : received ++ data ++ unread = client.wire) (hkeys : RightKeys client h)
    (hsound : DatumStreamEvent.failed ∉ h) (hopen : c.closed = false)
    (hshort : (c.reader.buffer ++ data).length < client.handshakeBytes.length + 4) :
    DatumStage client (received ++ data) unread (c.handleData sodium data).1
      (h ++ (c.handleData sodium data).2) := by
  rw [(hbefore.buffer hopen).1] at hshort
  by_cases hcomplete : client.handshakeBytes.length ≤ (received ++ data).length
  · exact hbefore.handshake hwire hkeys hsound hopen hcomplete hshort _
  · exact hbefore.incomplete hwire hkeys hsound hopen (Nat.not_le.mp hcomplete)

/-- A closed connection takes no more bytes. -/
theorem DatumStage.of_closed {bytes rest : Bytes} (hstage : DatumStage client received unread c h)
    (hclosed : c.closed = true) : DatumStage client bytes rest c h := by
  refine ⟨hstage.keys, hstage.sound, hstage.stage.imp (fun hbefore => ?_) ?_⟩
  · exact { hbefore with buffer := fun hopen => by simp [hclosed] at hopen }
  · rintro ⟨parsed, todo, more, left, hafter⟩
    exact ⟨parsed, todo, more, left,
      { hafter with alive := fun hopen => by simp [hclosed] at hopen }⟩

/-- A handler fails. -/
theorem DatumStage.fails (hstage : DatumStage client received unread c h) (i : ℕ) :
    DatumStage client received unread
      { c with closed := true, loops := c.loops.eraseIdx i } h := by
  refine ⟨hstage.keys, hstage.sound, hstage.stage.imp (fun hbefore => ?_) ?_⟩
  · refine { hbefore with loops := ?_, buffer := fun hopen => nomatch hopen }
    rw [hbefore.loops, List.eraseIdx_nil]
  · rintro ⟨parsed, todo, more, left, hafter⟩
    obtain ⟨more, hafter⟩ := hafter.fails i
    exact ⟨parsed, todo, more, left, hafter⟩

theorem DatumStage.closes (hstage : DatumStage client received unread c h) :
    DatumStage client received unread { c with closed := true } h := by
  refine ⟨hstage.keys, hstage.sound, hstage.stage.imp (fun hbefore => ?_) ?_⟩
  · exact { hbefore with buffer := fun hopen => nomatch hopen }
  · rintro ⟨parsed, todo, more, left, hafter⟩
    exact ⟨parsed, todo, more, left, { hafter with alive := fun hopen => nomatch hopen }⟩

theorem DatumStage.resume (hstage : DatumStage client received unread c h) (i : ℕ) :
    DatumStage client received unread (c.resume sodium i).1 (h ++ (c.resume sodium i).2) := by
  obtain hbefore | ⟨parsed, todo, more, left, hafter⟩ := hstage.stage
  · have hnone : c.loops[i]? = none := by rw [hbefore.loops, List.getElem?_nil]
    rw [DatumConnection.resume, hnone, List.append_nil]
    exact hstage
  · exact hafter.resume hstage.keys hstage.sound i received

theorem DatumStage.handleData (hstage : DatumStage client received (data ++ unread) c h)
    (hwire : received ++ data ++ unread = client.wire) (hopen : c.closed = false)
    (hunhurried : Unhurried client c (.data data)) :
    DatumStage client (received ++ data) unread (c.handleData sodium data).1
      (h ++ (c.handleData sodium data).2) := by
  rw [Unhurried] at hunhurried
  obtain hbefore | ⟨parsed, todo, more, left, hafter⟩ := hstage.stage
  · rw [hbefore.session, if_neg Bool.false_ne_true] at hunhurried
    exact hbefore.handleData hwire hstage.keys hstage.sound hopen hunhurried
  · obtain ⟨nonce, hready, -⟩ := hafter.session
    rw [if_pos hready.initialized] at hunhurried
    exact hafter.handleData hstage.keys hstage.sound hopen hunhurried _

end Open

theorem piecesOf_data (inputs : List DatumStreamInput) (data : Bytes) :
    (piecesOf (inputs ++ [.data data])).flatten = (piecesOf inputs).flatten ++ data := by
  rw [piecesOf, List.filterMap_append, List.flatten_append]
  simp [piecesOf]

theorem piecesOf_other (inputs : List DatumStreamInput) (input : DatumStreamInput)
    (h : ∀ data, input ≠ .data data) : piecesOf (inputs ++ [input]) = piecesOf inputs := by
  rw [piecesOf, List.filterMap_append]
  cases input with
  | data data => exact absurd rfl (h data)
  | resumes i => exact List.append_nil _
  | fails i => exact List.append_nil _
  | closes => exact List.append_nil _

/-- `DatumStage`, for whatever the client sends after the inputs. -/
def StageAfter (client : DatumClient sodium) (inputs : List DatumStreamInput)
    (c : DatumConnection) (h : List DatumStreamEvent) : Prop :=
  ∀ unread, (piecesOf inputs).flatten ++ unread = client.wire →
    DatumStage client (piecesOf inputs).flatten unread c h

/-- One step. -/
theorem StageAfter.step {inputs : List DatumStreamInput} {c : DatumConnection}
    {h : List DatumStreamEvent} {input : DatumStreamInput}
    (hstage : StageAfter client inputs c h) (hunhurried : Unhurried client c input) :
    StageAfter client (inputs ++ [input]) ((datumStream sodium).step c input).1
      (h ++ ((datumStream sodium).step c input).2) := by
  intro unread hwire
  cases input with
  | data data =>
    rw [piecesOf_data] at hwire ⊢
    have hbefore := hstage (data ++ unread) (by rw [← List.append_assoc, hwire])
    simp only [datumStream]
    cases hclosed : c.closed with
    | true =>
      rw [if_pos rfl, List.append_nil]
      exact hbefore.of_closed hclosed
    | false =>
      rw [if_neg Bool.false_ne_true]
      exact hbefore.handleData hwire hclosed hunhurried
  | resumes i =>
    rw [piecesOf_other inputs (.resumes i) (fun _ h => nomatch h)] at hwire ⊢
    exact (hstage unread hwire).resume i
  | fails i =>
    rw [piecesOf_other inputs (.fails i) (fun _ h => nomatch h)] at hwire ⊢
    simp only [datumStream, List.append_nil]
    exact (hstage unread hwire).fails i
  | closes =>
    rw [piecesOf_other inputs .closes (fun _ h => nomatch h)] at hwire ⊢
    simp only [datumStream, List.append_nil]
    exact (hstage unread hwire).closes

/-- The whole run. -/
theorem StageAfter.run {inputs : List DatumStreamInput}
    (hunhurried : (datumStream sodium).Along (fun c _ input => Unhurried client c input)
      {} [] inputs) :
    StageAfter client inputs ((datumStream sodium).final {} inputs)
      ((datumStream sodium).history {} inputs) := by
  refine (datumStream sodium).prefix_invariant ?_ ?_ hunhurried
  · refine fun unread _ => ⟨?_, List.not_mem_nil, Or.inl ⟨rfl, rfl, rfl, rfl, fun _ => ⟨rfl, ?_⟩⟩⟩
    · exact fun before key after hsplit => absurd hsplit (by simp)
    · obtain ⟨header, rest, hlength, -, -, hbytes⟩ :=
        encodeFrames_cons client.handshake_fits client.encode_handshake
      rw [hbytes, List.length_append, List.length_append, hlength]
      show 0 < 4 + client.handshake.payload.length + rest.length
      omega
  · exact fun inputs input hstage hinput => hstage.step hinput

theorem DatumStage.receives {received unread : Bytes} {c : DatumConnection}
    {h : List DatumStreamEvent} (hstage : DatumStage client received unread c h) :
    Receives client h := by
  obtain hbefore | ⟨parsed, todo, more, left, hafter⟩ := hstage.stage
  · refine ⟨hstage.keys, ?_, ?_, hstage.sound⟩
    · rw [hbefore.frames]
      exact List.nil_prefix
    · rw [hbefore.payloads]
      exact List.nil_prefix
  · refine ⟨hstage.keys, ?_, ⟨left, hafter.payloads⟩, hstage.sound⟩
    rw [hafter.frames, hafter.sealed, ← List.cons_append]
    exact List.prefix_append ..

/-- When all has come and nothing waits, all has been read. -/
theorem DatumStage.complete {c : DatumConnection} {h : List DatumStreamEvent}
    (hstage : DatumStage client client.wire [] c h) (hopen : c.closed = false)
    (hidle : c.waiting = []) :
    framesOf h = client.handshake :: client.sealed ∧ payloadsOf h = client.plaintexts := by
  obtain hbefore | ⟨parsed, todo, more, left, hafter⟩ := hstage.stage
  · have hlt := (hbefore.buffer hopen).2
    rw [DatumClient.wire, List.length_append] at hlt
    omega
  · obtain ⟨rfl, -, hbytes, hshort⟩ := hafter.alive hopen
    obtain ⟨nonce, -, hopens⟩ := hafter.session
    have hnil : todo = [] := by
      cases todo with
      | nil => rfl
      | cons frame todo =>
        have fits := client.sealed_fits frame (by rw [hafter.sealed]; simp)
        obtain ⟨header, rest, hlength, -, -, hbuffer⟩ := encodeFrames_cons fits hbytes
        have hlt := hshort frame rfl
        rw [List.append_nil] at hbuffer
        rw [hbuffer, List.length_append, List.length_append, hlength] at hlt
        omega
    subst hnil
    rw [hidle] at hopens
    have hleft : left = [] := hopens
    have hpayloads := hafter.payloads
    rw [hleft, List.append_nil] at hpayloads
    rw [hafter.frames, hafter.sealed, List.append_nil]
    exact ⟨rfl, hpayloads⟩

end Runs

/-! ### What is received -/

/-- In every run whose pieces come unhurried, each header is decoded with its key and each payload
is decrypted, in order. When all pieces have come and no frame waits, everything is read. -/
theorem receives_of_unhurried {sodium : DatumSodium} (client : DatumClient sodium)
    {inputs : List DatumStreamInput} (hwire : (piecesOf inputs).flatten <+: client.wire)
    (hunhurried : (datumStream sodium).Along (fun c _ input => Unhurried client c input)
      {} [] inputs) :
    Receives client ((datumStream sodium).history {} inputs) ∧
      ((piecesOf inputs).flatten = client.wire →
        ((datumStream sodium).final {} inputs).closed = false →
        ((datumStream sodium).final {} inputs).waiting = [] →
        framesOf ((datumStream sodium).history {} inputs) = client.handshake :: client.sealed ∧
        payloadsOf ((datumStream sodium).history {} inputs) = client.plaintexts) := by
  obtain ⟨unread, hunread⟩ := hwire
  have hstage := StageAfter.run hunhurried
  refine ⟨(hstage unread hunread).receives, fun hall hopen hidle => ?_⟩
  have hend := hstage [] (by rw [List.append_nil, hall])
  rw [hall] at hend
  exact hend.complete hopen hidle

/-- Keys that are written before what they hide. -/
def plainSodium : DatumSodium where
  sealOpen framePayload := some framePayload
  signVerifyDetached _ _ _ := true
  boxBeforenm key := key
  boxOpenEasyAfternm payload nonce _ :=
    if nonce.isPrefixOf payload then some (payload.drop nonce.length) else none

/-- Four keys, an empty user agent, the header key and a signature. -/
def sampleHello : Bytes :=
  List.replicate 128 1 ++ [0, 0xfe] ++ [7, 0, 0, 0] ++ List.replicate 64 0

def sampleOpened : DatumCryptoSession :=
  ((DatumCryptoSession.openHandshake plainSodium {} sampleHello).map (·.2)).getD {}

def sampleFrame (plaintext : Bytes) : ClientFrame where
  reserved := 0
  isSigned := false
  isEncryptedPubkey := false
  isEncryptedChannel := true
  protoCmd := 5
  plaintext
  reserved_lt := by decide
  protoCmd_lt := by decide
  protoCmd_ne := by decide

def sampleClient : DatumClient plainSodium where
  box plaintext nonce _ := nonce ++ plaintext
  handshake := {
    header := {
      cmdLen := sampleHello.length
      reserved := 0
      isSigned := true
      isEncryptedPubkey := true
      isEncryptedChannel := false
      protoCmd := handshakeInit }
    payload := sampleHello }
  hello := {
    identityEdPublicKey := List.replicate 32 1
    identityXPublicKey := List.replicate 32 1
    sessionEdPublicKey := List.replicate 32 1
    sessionXPublicKey := List.replicate 32 1
    userAgent := []
    nextHeaderKey := 7 }
  opened := sampleOpened
  frames := [sampleFrame [1], sampleFrame [2], sampleFrame [3]]
  handshake_fits := ⟨⟨by decide +kernel, by decide, by decide⟩, rfl⟩
  handshake_protoCmd := rfl
  handshake_plain := rfl
  opens := by decide +kernel
  boxOpens plaintext nonce secret := by
    simp [plainSodium]
  short := by decide +kernel

/-- The bytes of the frames from `i` on, up to `j`. -/
def samplePiece (i j : ℕ) : Bytes :=
  (encodeFrames (keyAfterAll sampleOpened.receiveHeaderKey (sampleClient.sealed.take i))
    ((sampleClient.sealed.take j).drop i)).getD []

/-- The second and the third frame come after the handlers before them have ended. -/
def unhurriedRun : List DatumStreamInput :=
  [.data (sampleClient.handshakeBytes.take 100),
    .data (sampleClient.handshakeBytes.drop 100 ++ (samplePiece 0 1).take 3), .resumes 0,
    .data ((samplePiece 0 1).drop 3), .resumes 0, .data ((samplePiece 1 3).take 30), .resumes 0,
    .data ((samplePiece 1 3).drop 30), .resumes 0]

theorem receives_of_unhurried_sample :
    Receives sampleClient ((datumStream plainSodium).history {} unhurriedRun) ∧
      payloadsOf ((datumStream plainSodium).history {} unhurriedRun) = [[1], [2], [3]] := by
  have hall : (piecesOf unhurriedRun).flatten = sampleClient.wire := by decide +kernel
  have hunhurried : (datumStream plainSodium).Along
      (fun c _ input => Unhurried sampleClient c input) {} [] unhurriedRun := by decide +kernel
  obtain ⟨hreceives, hcomplete⟩ :=
    receives_of_unhurried sampleClient ⟨[], by rw [hall, List.append_nil]⟩ hunhurried
  exact ⟨hreceives, (hcomplete hall (by decide +kernel) (by decide +kernel)).2⟩

/-- Two frames come at once, and the third while the first is handled. -/
def hurriedRun : List DatumStreamInput :=
  [.data sampleClient.handshakeBytes, .resumes 0, .data (samplePiece 0 2), .data (samplePiece 2 3)]

/-- The third header is decoded with the key of the second, which has not been decrypted yet. -/
theorem not_receives : (piecesOf hurriedRun).flatten = sampleClient.wire ∧
    ¬ Receives sampleClient ((datumStream plainSodium).history {} hurriedRun) := by
  refine ⟨by decide +kernel, fun hreceives => ?_⟩
  have hkey := hreceives.keys ((datumStream plainSodium).history {} (hurriedRun.take 3)) 3170622608
    [] (by decide +kernel)
  exact absurd hkey (by decide +kernel)

end PublicPool.Datum
