import PublicPool.Bitcoin

/-!
# `PublicPool.Datum.Codec`: DATUM frames

The part of `models/datum/datum-codec.ts` that puts frames on the wire and takes them off it
again: the header with its key, the feedback that moves the key on, and the frame reader.

A header is four bytes, read as one number and combined with a key by exclusive or. The reader
decodes the header again whenever it is fed, from the front of its buffer, until the whole frame
is there. `ReadEvent.headerDecoded` tells with which key.
-/

set_option autoImplicit false

namespace PublicPool.Datum

def datumInitialHeaderKey : UInt32 := 0xdc871829

def datumMaxPayloadSize : ℕ := 4194304

structure DatumHeader where
  /-- The number of bytes of the payload. -/
  cmdLen : ℕ
  reserved : ℕ
  isSigned : Bool
  isEncryptedPubkey : Bool
  isEncryptedChannel : Bool
  protoCmd : ℕ
  deriving DecidableEq

structure DatumFrame where
  header : DatumHeader
  payload : Bytes
  deriving DecidableEq

/-- The fields of a header in one number. -/
def rawDatumHeader (header : DatumHeader) : ℕ :=
  (header.cmdLen &&& 0x3fffff)
    ||| (header.reserved &&& 0x03) <<< 22
    ||| header.isSigned.toNat <<< 24
    ||| header.isEncryptedPubkey.toNat <<< 25
    ||| header.isEncryptedChannel.toNat <<< 26
    ||| (header.protoCmd &&& 0x1f) <<< 27

def encodeDatumHeader (header : DatumHeader) (xorKey : UInt32) : Option Bytes :=
  if header.cmdLen > datumMaxPayloadSize - 1 then none
  else some (putLE 4 ((rawDatumHeader header ^^^ xorKey.toNat : ℕ) : ℤ))

/-- `none` for fewer than four bytes. -/
def decodeDatumHeader (input : Bytes) (xorKey : UInt32) : Option DatumHeader :=
  if input.length < 4 then none
  else
    let raw := leValue (input.take 4) ^^^ xorKey.toNat
    some {
      cmdLen := raw &&& 0x3fffff
      reserved := raw >>> 22 &&& 0x03
      isSigned := raw >>> 24 &&& 0x01 ≠ 0
      isEncryptedPubkey := raw >>> 25 &&& 0x01 ≠ 0
      isEncryptedChannel := raw >>> 26 &&& 0x01 ≠ 0
      protoCmd := raw >>> 27 &&& 0x1f }

/-- The header gets the length of the payload. -/
def encodeDatumFrame (frame : DatumFrame) (xorKey : UInt32) : Option Bytes := do
  let header ← encodeDatumHeader { frame.header with cmdLen := frame.payload.length } xorKey
  return header ++ frame.payload

/-- The key after one frame of the encrypted channel. -/
def datumHeaderXorFeedback (input : UInt32) : UInt32 :=
  let h : UInt32 := 0xb10cfeed
  let k := input * 0xcc9e2d51
  let k := k <<< 15 ||| k >>> 17
  let k := k * 0x1b873593
  let h := h ^^^ k
  let h := h <<< 13 ||| h >>> 19
  let h := h * 5 + 0xe6546b64
  let h := h ^^^ 4
  let h := h ^^^ h >>> 16
  let h := h * 0x85ebca6b
  let h := h ^^^ h >>> 13
  let h := h * 0xc2b2ae35
  h ^^^ h >>> 16

example : datumHeaderXorFeedback 0 = 0x74a55cf6 := by decide

example : datumHeaderXorFeedback 0xdc871829 = 0x88e1697d := by decide

/-! ### Frame reader -/

inductive ReadEvent
  | headerDecoded (xorKey : UInt32)
  | frame (frame : DatumFrame)
  deriving DecidableEq

/-- The key after a frame. -/
def DatumFrame.keyAfter (frame : DatumFrame) (xorKey : UInt32) : UInt32 :=
  if frame.header.isEncryptedChannel then datumHeaderXorFeedback xorKey else xorKey

/-- What the loop of `feed` leaves: the key, the buffer, and what it has done. -/
structure Reading where
  headerXorKey : UInt32
  buffer : Bytes
  events : List ReadEvent
  deriving DecidableEq

/-- The loop of `feed`. A length over the limit throws. Every round but the last takes four bytes
at least, so the length of the buffer is enough for `rounds`. -/
def readFramesWithin : ℕ → UInt32 → Bytes → Option Reading
  | 0, xorKey, buffer => some { headerXorKey := xorKey, buffer, events := [] }
  | rounds + 1, xorKey, buffer =>
    if buffer.length < 4 then some { headerXorKey := xorKey, buffer, events := [] }
    else
      match decodeDatumHeader (buffer.take 4) xorKey with
      | none => none
      | some header =>
        if header.cmdLen > datumMaxPayloadSize then none
        else if buffer.length < 4 + header.cmdLen then
          some { headerXorKey := xorKey, buffer, events := [.headerDecoded xorKey] }
        else
          let frame : DatumFrame := { header, payload := (buffer.take (4 + header.cmdLen)).drop 4 }
          (readFramesWithin rounds (frame.keyAfter xorKey) (buffer.drop (4 + header.cmdLen))).map
            fun reading =>
              { reading with events := .headerDecoded xorKey :: .frame frame :: reading.events }

def readFrames (xorKey : UInt32) (buffer : Bytes) : Option Reading :=
  readFramesWithin buffer.length xorKey buffer

/-- More rounds change nothing. -/
theorem readFramesWithin_eq {rounds : ℕ} {buffer : Bytes} (hrounds : buffer.length ≤ rounds)
    (xorKey : UInt32) : readFramesWithin rounds xorKey buffer = readFrames xorKey buffer := by
  induction rounds using Nat.strong_induction_on generalizing buffer xorKey with
  | _ rounds ih =>
    obtain rfl | hlt := Nat.eq_or_lt_of_le hrounds
    · rfl
    · match rounds, hlength : buffer.length with
      | 0, _ => omega
      | rounds + 1, 0 =>
        rw [readFrames, hlength, readFramesWithin, readFramesWithin, if_pos (by omega)]
      | rounds + 1, length + 1 =>
        rw [readFrames, hlength, readFramesWithin, readFramesWithin]
        -- The rounds that follow read a shorter buffer.
        have hrest (xorKey : UInt32) (n : ℕ) :
            readFramesWithin rounds xorKey (buffer.drop (4 + n)) =
              readFramesWithin length xorKey (buffer.drop (4 + n)) := by
          have hdrop := @List.length_drop _ (4 + n) buffer
          rw [ih rounds (by omega) (by omega), ih length (by omega) (by omega)]
        simp only [hrest]

/-- One round. -/
theorem readFrames_eq (xorKey : UInt32) (buffer : Bytes) :
    readFrames xorKey buffer =
      if buffer.length < 4 then some { headerXorKey := xorKey, buffer, events := [] }
      else
        match decodeDatumHeader (buffer.take 4) xorKey with
        | none => none
        | some header =>
          if header.cmdLen > datumMaxPayloadSize then none
          else if buffer.length < 4 + header.cmdLen then
            some { headerXorKey := xorKey, buffer, events := [.headerDecoded xorKey] }
          else
            let frame : DatumFrame :=
              { header, payload := (buffer.take (4 + header.cmdLen)).drop 4 }
            (readFrames (frame.keyAfter xorKey) (buffer.drop (4 + header.cmdLen))).map
              fun reading => { reading with
                events := .headerDecoded xorKey :: .frame frame :: reading.events } := by
  match hlength : buffer.length with
  | 0 => rw [readFrames, hlength, readFramesWithin, if_pos (by decide)]
  | length + 1 =>
    have hrest (xorKey : UInt32) (n : ℕ) :
        readFramesWithin length xorKey (buffer.drop (4 + n)) =
          readFrames xorKey (buffer.drop (4 + n)) := by
      have hdrop := @List.length_drop _ (4 + n) buffer
      exact readFramesWithin_eq (by omega) xorKey
    rw [readFrames, hlength, readFramesWithin, hlength]
    simp only [hrest]

structure DatumFrameReader where
  buffer : Bytes := []
  headerXorKey : UInt32 := datumInitialHeaderKey
  deriving DecidableEq

def DatumFrameReader.setHeaderXorKey (reader : DatumFrameReader) (headerXorKey : UInt32) :
    DatumFrameReader :=
  { reader with headerXorKey }

def DatumFrameReader.feed (reader : DatumFrameReader) (data : Bytes) :
    Option (DatumFrameReader × List ReadEvent) :=
  (readFrames reader.headerXorKey (reader.buffer ++ data)).map fun reading =>
    ({ buffer := reading.buffer, headerXorKey := reading.headerXorKey }, reading.events)

/-! ### The header on the wire -/

/-- The fields of a header are in their ranges. -/
structure DatumHeader.Fits (header : DatumHeader) : Prop where
  cmdLen : header.cmdLen ≤ datumMaxPayloadSize - 1
  reserved : header.reserved < 2 ^ 2
  protoCmd : header.protoCmd < 2 ^ 5

theorem or_shiftLeft {a b i : ℕ} (hb : b < 2 ^ i) : b ||| a <<< i = b + a * 2 ^ i := by
  rw [Nat.shiftLeft_eq, Nat.or_comm, Nat.mul_comm, ← Nat.two_pow_add_eq_or_of_lt hb, Nat.add_comm]

section
variable {header : DatumHeader}

theorem rawDatumHeader_eq (fits : header.Fits) :
    rawDatumHeader header = header.cmdLen + header.reserved * 2 ^ 22
      + header.isSigned.toNat * 2 ^ 24 + header.isEncryptedPubkey.toNat * 2 ^ 25
      + header.isEncryptedChannel.toNat * 2 ^ 26 + header.protoCmd * 2 ^ 27 := by
  obtain ⟨hlen, hreserved, hproto⟩ := fits
  have hlen' : header.cmdLen ≤ 4194303 := hlen
  have hsigned := header.isSigned.toNat_lt
  have hpubkey := header.isEncryptedPubkey.toNat_lt
  have hchannel := header.isEncryptedChannel.toNat_lt
  have hmask₁ : header.cmdLen &&& 0x3fffff = header.cmdLen := by
    rw [show (0x3fffff : ℕ) = 2 ^ 22 - 1 by norm_num, Nat.and_two_pow_sub_one_eq_mod]
    omega
  have hmask₂ : header.reserved &&& 0x03 = header.reserved := by
    rw [show (0x03 : ℕ) = 2 ^ 2 - 1 by norm_num, Nat.and_two_pow_sub_one_eq_mod]
    omega
  have hmask₃ : header.protoCmd &&& 0x1f = header.protoCmd := by
    rw [show (0x1f : ℕ) = 2 ^ 5 - 1 by norm_num, Nat.and_two_pow_sub_one_eq_mod]
    omega
  -- From the inside, so that each field is known to end where the next one begins.
  rw [rawDatumHeader, hmask₁, hmask₂, hmask₃, or_shiftLeft (i := 22) (by omega),
    or_shiftLeft (i := 24) (by omega), or_shiftLeft (i := 25) (by omega),
    or_shiftLeft (i := 26) (by omega), or_shiftLeft (i := 27) (by omega)]

theorem rawDatumHeader_lt (fits : header.Fits) : rawDatumHeader header < 2 ^ 32 := by
  have hlen : header.cmdLen ≤ 4194303 := fits.cmdLen
  have hreserved := fits.reserved
  have hproto := fits.protoCmd
  have hsigned := header.isSigned.toNat_lt
  have hpubkey := header.isEncryptedPubkey.toNat_lt
  have hchannel := header.isEncryptedChannel.toNat_lt
  rw [rawDatumHeader_eq fits]
  omega

/-- A header is decoded with the key it was encoded with. -/
theorem decodeDatumHeader_encodeDatumHeader (fits : header.Fits) (xorKey : UInt32) :
    ∃ bytes, encodeDatumHeader header xorKey = some bytes ∧ bytes.length = 4 ∧
      decodeDatumHeader bytes xorKey = some header := by
  refine ⟨_, if_neg (Nat.not_lt.mpr fits.cmdLen), length_putLE .., ?_⟩
  have hxor : rawDatumHeader header ^^^ xorKey.toNat < 256 ^ 4 :=
    Nat.xor_lt_two_pow (rawDatumHeader_lt fits) xorKey.toNat_lt
  have htake : (putLE 4 ((rawDatumHeader header ^^^ xorKey.toNat : ℕ) : ℤ)).take 4 =
      putLE 4 ((rawDatumHeader header ^^^ xorKey.toNat : ℕ) : ℤ) :=
    List.take_of_length_le (by rw [length_putLE])
  rw [decodeDatumHeader, if_neg (by rw [length_putLE]; decide), htake, leValue_putLE,
    Nat.mod_eq_of_lt hxor, Nat.xor_assoc, Nat.xor_self, Nat.xor_zero]
  have hraw := rawDatumHeader_eq fits
  have hlen : header.cmdLen ≤ 4194303 := fits.cmdLen
  have hreserved := fits.reserved
  have hproto := fits.protoCmd
  have hsigned := header.isSigned.toNat_lt
  have hpubkey := header.isEncryptedPubkey.toNat_lt
  have hchannel := header.isEncryptedChannel.toNat_lt
  have hmask (x n : ℕ) : x &&& (2 ^ n - 1) = x % 2 ^ n := Nat.and_two_pow_sub_one_eq_mod x n
  generalize rawDatumHeader header = raw at hraw ⊢
  have hcmdLen : raw &&& 0x3fffff = header.cmdLen := by
    rw [show (0x3fffff : ℕ) = 2 ^ 22 - 1 by norm_num, hmask]
    omega
  have hres : raw >>> 22 &&& 0x03 = header.reserved := by
    rw [Nat.shiftRight_eq_div_pow, show (0x03 : ℕ) = 2 ^ 2 - 1 by norm_num, hmask]
    omega
  have hsig : raw >>> 24 &&& 0x01 = header.isSigned.toNat := by
    rw [Nat.shiftRight_eq_div_pow, show (0x01 : ℕ) = 2 ^ 1 - 1 by norm_num, hmask]
    omega
  have hpub : raw >>> 25 &&& 0x01 = header.isEncryptedPubkey.toNat := by
    rw [Nat.shiftRight_eq_div_pow, show (0x01 : ℕ) = 2 ^ 1 - 1 by norm_num, hmask]
    omega
  have hchan : raw >>> 26 &&& 0x01 = header.isEncryptedChannel.toNat := by
    rw [Nat.shiftRight_eq_div_pow, show (0x01 : ℕ) = 2 ^ 1 - 1 by norm_num, hmask]
    omega
  have hcmd : raw >>> 27 &&& 0x1f = header.protoCmd := by
    rw [Nat.shiftRight_eq_div_pow, show (0x1f : ℕ) = 2 ^ 5 - 1 by norm_num, hmask]
    omega
  have hflag (b : Bool) : decide (b.toNat ≠ 0) = b := by cases b <;> rfl
  dsimp only
  rw [hcmdLen, hres, hsig, hpub, hchan, hcmd]
  simp only [hflag]

end

end PublicPool.Datum
