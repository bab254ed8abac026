import PublicPool.Proofs.DatumStream
import PublicPool.Proofs.Targets

/-!
# `PublicPool.Proofs.DatumFrames`: DATUM frames survive the wire

`datumFrames_survive`: a header is decoded to itself with the key it was encoded with, and every
four bytes are the encoding of the header they are decoded to. Frames that are written with the
key moving on after each frame of the encrypted channel are read back by one reader that starts
with the same key, however the bytes are cut, and reader and writer end with the same key.

`decodeDatumHeader_encodeDatumHeader` is one half of the first part. For the other half the fields
of a decoded header are those of the number it came from (`rawDatumHeader_headerOfRaw`). The
reader's induction is over the pieces: what has come so far leaves it in front of the frames that
are still to come (`readFrames_encodeFrames`).
-/

set_option autoImplicit false

namespace PublicPool.Datum

/-! ### Headers -/

/-- The header of a number, with the key taken off already. -/
def headerOfRaw (raw : ℕ) : DatumHeader where
  cmdLen := raw &&& 0x3fffff
  reserved := raw >>> 22 &&& 0x03
  isSigned := raw >>> 24 &&& 0x01 ≠ 0
  isEncryptedPubkey := raw >>> 25 &&& 0x01 ≠ 0
  isEncryptedChannel := raw >>> 26 &&& 0x01 ≠ 0
  protoCmd := raw >>> 27 &&& 0x1f

theorem mask_eq (x n : ℕ) : x &&& (2 ^ n - 1) = x % 2 ^ n := Nat.and_two_pow_sub_one_eq_mod x n

/-- The fields of a header are in their ranges, whatever the number. -/
theorem headerOfRaw_fits (raw : ℕ) : (headerOfRaw raw).Fits where
  cmdLen := by
    show raw &&& (2 ^ 22 - 1) ≤ _
    rw [mask_eq]
    exact Nat.le_of_lt_succ (Nat.mod_lt _ (by norm_num))
  reserved := by
    show raw >>> 22 &&& (2 ^ 2 - 1) < _
    rw [mask_eq]
    exact Nat.mod_lt _ (by norm_num)
  protoCmd := by
    show raw >>> 27 &&& (2 ^ 5 - 1) < _
    rw [mask_eq]
    exact Nat.mod_lt _ (by norm_num)

/-- The fields of a number make up the number. -/
theorem rawDatumHeader_headerOfRaw {raw : ℕ} (hraw : raw < 2 ^ 32) :
    rawDatumHeader (headerOfRaw raw) = raw := by
  have hbit (n : ℕ) : (decide (raw >>> n &&& 0x01 ≠ 0)).toNat = raw / 2 ^ n % 2 := by
    have hmask : raw >>> n &&& 0x01 = raw / 2 ^ n % 2 := by
      rw [Nat.shiftRight_eq_div_pow]
      exact mask_eq _ 1
    rw [hmask]
    rcases Nat.mod_two_eq_zero_or_one (raw / 2 ^ n) with h | h <;> rw [h] <;> rfl
  have hlen : raw &&& 0x3fffff = raw % 2 ^ 22 := mask_eq raw 22
  have hreserved : raw >>> 22 &&& 0x03 = raw / 2 ^ 22 % 2 ^ 2 := by
    rw [Nat.shiftRight_eq_div_pow]
    exact mask_eq _ 2
  have hproto : raw >>> 27 &&& 0x1f = raw / 2 ^ 27 % 2 ^ 5 := by
    rw [Nat.shiftRight_eq_div_pow]
    exact mask_eq _ 5
  rw [rawDatumHeader_eq (headerOfRaw_fits raw)]
  simp only [headerOfRaw, hbit, hlen, hreserved, hproto]
  omega

/-- Four bytes are the encoding of the header they are decoded to. No header says more than the
limit, so none is refused. -/
theorem encodeDatumHeader_decodeDatumHeader {bytes : Bytes} (hlength : bytes.length = 4)
    (xorKey : UInt32) :
    ∃ header, decodeDatumHeader bytes xorKey = some header ∧
      encodeDatumHeader header xorKey = some bytes := by
  have hvalue : leValue bytes < 2 ^ 32 := by
    have hlt := DifficultyUtils.leValue_lt bytes
    rw [hlength] at hlt
    exact hlt
  have hraw : leValue bytes ^^^ xorKey.toNat < 2 ^ 32 :=
    Nat.xor_lt_two_pow hvalue xorKey.toNat_lt
  have hback : leValue bytes ^^^ xorKey.toNat ^^^ xorKey.toNat = leValue bytes := by
    rw [Nat.xor_assoc, Nat.xor_self, Nat.xor_zero]
  have htake : bytes.take 4 = bytes := List.take_of_length_le hlength.le
  refine ⟨headerOfRaw (leValue bytes ^^^ xorKey.toNat), ?_, ?_⟩
  · rw [decodeDatumHeader, if_neg (by omega), htake]
    rfl
  · have hlimit := (headerOfRaw_fits (leValue bytes ^^^ xorKey.toNat)).cmdLen
    rw [encodeDatumHeader, if_neg (Nat.not_lt.mpr hlimit), rawDatumHeader_headerOfRaw hraw, hback]
    have hbytes := putLE_leValue bytes
    rw [hlength] at hbytes
    rw [hbytes]

/-! ### Streams of frames -/

/-- Frames that are written one after the other, and the key after them. -/
def writeDatumFrames : UInt32 → List DatumFrame → Option (Bytes × UInt32)
  | xorKey, [] => some ([], xorKey)
  | xorKey, frame :: frames => do
    let bytes ← encodeDatumFrame frame xorKey
    let (rest, lastKey) ← writeDatumFrames (frame.keyAfter xorKey) frames
    return (bytes ++ rest, lastKey)

/-- A reader that is fed piece by piece, with the frames it gives. -/
def DatumFrameReader.feedAll : DatumFrameReader → List Bytes →
    Option (DatumFrameReader × List DatumFrame)
  | reader, [] => some (reader, [])
  | reader, piece :: pieces => do
    let (reader, events) ← reader.feed piece
    let (reader, frames) ← reader.feedAll pieces
    return (reader, readFramesOf events ++ frames)

section
variable {frames : List DatumFrame} {xorKey : UInt32} {buffer : Bytes}

/-- A frame whose header says the length of its payload is written with this header. -/
theorem writeDatumFrames_eq (fits : ∀ frame ∈ frames, frame.Fits) (xorKey : UInt32) :
    ∃ wire, encodeFrames xorKey frames = some wire ∧
      writeDatumFrames xorKey frames = some (wire, keyAfterAll xorKey frames) := by
  induction frames generalizing xorKey with
  | nil => exact ⟨[], rfl, rfl⟩
  | cons frame frames ih =>
    obtain ⟨hframe, hframes⟩ := List.forall_mem_cons.mp fits
    obtain ⟨header, hheader, -, -⟩ := decodeDatumHeader_encodeDatumHeader hframe.header xorKey
    obtain ⟨rest, hrest, hwrite⟩ := ih hframes (frame.keyAfter xorKey)
    have hsame : { frame.header with cmdLen := frame.payload.length } = frame.header := by
      rw [← hframe.cmdLen]
    refine ⟨header ++ frame.payload ++ rest, ?_, ?_⟩
    · rw [encodeFrames, hheader, Option.bind_eq_bind, Option.bind_some, hrest]
      rfl
    · rw [writeDatumFrames, encodeDatumFrame, hsame, hheader, hwrite]
      rfl

/-- The reader's key has moved on with the frames it has read. -/
theorem headerXorKey_readFrames {reading : Reading} (h : readFrames xorKey buffer = some reading) :
    reading.headerXorKey = keyAfterAll xorKey (readFramesOf reading.events) := by
  induction hlength : buffer.length using Nat.strong_induction_on
    generalizing xorKey buffer reading with
  | _ n ih =>
    subst hlength
    rw [readFrames_eq] at h
    split at h
    · cases h
      rfl
    · rename_i hlong
      split at h
      · cases h
      · rename_i header hheader
        split at h
        · cases h
        · split at h
          · cases h
            rfl
          · obtain ⟨rest, hrest, rfl⟩ := Option.map_eq_some_iff.mp h
            have hshorter : (buffer.drop (4 + header.cmdLen)).length < buffer.length := by
              rw [List.length_drop]
              omega
            have hkey := ih _ hshorter hrest rfl
            exact hkey

/-- The pieces of some frames are read back. -/
theorem feedAll_encodeFrames (fits : ∀ frame ∈ frames, frame.Fits) (hwaits : Short buffer frames)
    {pieces : List Bytes} (hbytes : encodeFrames xorKey frames = some (buffer ++ pieces.flatten)) :
    DatumFrameReader.feedAll { buffer, headerXorKey := xorKey } pieces =
      some ({ buffer := [], headerXorKey := keyAfterAll xorKey frames }, frames) := by
  induction pieces generalizing buffer frames xorKey with
  | nil =>
    rw [List.flatten_nil, List.append_nil] at hbytes
    -- A frame that was still to come would be longer than what is there.
    cases frames with
    | nil =>
      rw [← Option.some.inj hbytes]
      rfl
    | cons frame frames =>
      obtain ⟨header, rest, hlength, -, -, hwire⟩ :=
        encodeFrames_cons (fits frame List.mem_cons_self) hbytes
      have hshort := hwaits frame rfl
      rw [hwire, List.append_assoc, List.length_append, List.length_append, hlength] at hshort
      omega
  | cons piece pieces ih =>
    rw [List.flatten_cons, ← List.append_assoc] at hbytes
    obtain ⟨reading, now, later, hread, rfl, hnow, hlater, hshort, -⟩ :=
      readFrames_encodeFrames fits hbytes
    have hrest := ih (fun frame hframe => fits frame (List.mem_append_right now hframe)) hshort
      hlater
    have hkey : reading.headerXorKey = keyAfterAll xorKey now := by
      rw [headerXorKey_readFrames hread, hnow]
    have hfeed : DatumFrameReader.feed { buffer, headerXorKey := xorKey } piece =
        some ({ buffer := reading.buffer, headerXorKey := keyAfterAll xorKey now },
          reading.events) := by
      rw [DatumFrameReader.feed, hread, ← hkey]
      rfl
    have hframes : DatumFrameReader.feedAll { buffer, headerXorKey := xorKey } (piece :: pieces) =
        (DatumFrameReader.feedAll
          { buffer := reading.buffer, headerXorKey := keyAfterAll xorKey now } pieces).bind
            fun rest => some (rest.1, readFramesOf reading.events ++ rest.2) := by
      rw [DatumFrameReader.feedAll, hfeed]
      rfl
    rw [hframes, hrest, keyAfterAll_append, hnow]
    rfl

end

/-- Headers and frames survive the wire: a header in range is decoded to itself, four bytes are
encoded back from the header they are decoded to, and the frames of a writer are read back from any
pieces of its bytes, by a reader that ends with the writer's key and nothing left. -/
theorem datumFrames_survive {header : DatumHeader} (hheader : header.Fits) {bytes : Bytes}
    (hbytes : bytes.length = 4) {frames : List DatumFrame}
    (hframes : ∀ frame ∈ frames, frame.Fits) (xorKey : UInt32) :
    (∃ encoded, encodeDatumHeader header xorKey = some encoded ∧
      decodeDatumHeader encoded xorKey = some header) ∧
    (∃ decoded, decodeDatumHeader bytes xorKey = some decoded ∧
      encodeDatumHeader decoded xorKey = some bytes) ∧
    ∃ wire lastKey, writeDatumFrames xorKey frames = some (wire, lastKey) ∧
      ∀ pieces : List Bytes, pieces.flatten = wire →
        DatumFrameReader.feedAll { headerXorKey := xorKey } pieces =
          some ({ buffer := [], headerXorKey := lastKey }, frames) := by
  obtain ⟨encoded, hencode, -, hdecode⟩ := decodeDatumHeader_encodeDatumHeader hheader xorKey
  obtain ⟨wire, hwire, hwrite⟩ := writeDatumFrames_eq hframes xorKey
  refine ⟨⟨encoded, hencode, hdecode⟩, encodeDatumHeader_decodeDatumHeader hbytes xorKey,
    wire, _, hwrite, fun pieces hpieces => ?_⟩
  -- Nothing is buffered yet, which is less than any frame.
  have hshort : Short [] frames := fun frame _ => by
    rw [List.length_nil]
    omega
  exact feedAll_encodeFrames hframes hshort (by rw [List.nil_append, hpieces, hwire])

namespace DatumFramesSample

/-- A frame of the encrypted channel, and one that is not encrypted. -/
def frames : List DatumFrame :=
  [⟨⟨3, 1, true, false, true, 5⟩, [1, 2, 3]⟩, ⟨⟨0, 0, false, false, false, 1⟩, []⟩]

theorem frames_fit : ∀ frame ∈ frames, frame.Fits := by
  simp only [frames, List.forall_mem_cons, List.not_mem_nil, false_imp_iff, implies_true, and_true]
  exact ⟨⟨⟨by decide, by decide, by decide⟩, rfl⟩, ⟨⟨by decide, by decide, by decide⟩, rfl⟩⟩

end DatumFramesSample

open DatumFramesSample in
theorem datumFrames_survive_sample :
    (∃ encoded, encodeDatumHeader ⟨3, 1, true, false, true, 5⟩ datumInitialHeaderKey = some encoded ∧
      decodeDatumHeader encoded datumInitialHeaderKey = some ⟨3, 1, true, false, true, 5⟩) ∧
    (∃ decoded, decodeDatumHeader [255, 255, 255, 255] datumInitialHeaderKey = some decoded ∧
      encodeDatumHeader decoded datumInitialHeaderKey = some [255, 255, 255, 255]) ∧
    ∃ wire lastKey, writeDatumFrames datumInitialHeaderKey frames = some (wire, lastKey) ∧
      ∀ pieces : List Bytes, pieces.flatten = wire →
        DatumFrameReader.feedAll { headerXorKey := datumInitialHeaderKey } pieces =
          some ({ buffer := [], headerXorKey := lastKey }, frames) :=
  datumFrames_survive ⟨by decide, by decide, by decide⟩ rfl frames_fit datumInitialHeaderKey

end PublicPool.Datum
