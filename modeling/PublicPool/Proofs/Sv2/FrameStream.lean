import PublicPool.Sv2.Frame

/-!
# `PublicPool.Proofs.Sv2.FrameStream`: frames survive the wire

`frameStream_roundTrip`: whatever a writer puts out for a list of frames, a reader that is
fed the bytes in any pieces gives exactly these frames and has nothing left over, in plain
text and encrypted.

The argument has three parts. The header codec is a bijection on the fields' ranges
(`decodeFrameHeader_encodeFrameHeader`). `plaintextToCiphertextLength` is the length of what
the writer's chunk loop puts out (`length_encryptPayload`), so the reader waits for all of
the payload and nothing else, and its own chunk loop cuts the ciphertext where the writer
did (`decryptPayloadChunks_encryptPayload`). That a frame is read back whatever follows it
makes writer and reader stay `InStep`, and the library turns this into the round trip of the
stream.

The cipher is an assumption: `OrderedAead` says that the receiving end decrypts the chunks
of the sending end as long as it sees all of them in order.
-/

set_option autoImplicit false

namespace PublicPool.Sv2

open Lib

/-- A frame whose header fits the wire and belongs to its payload. -/
structure Sv2Frame extends ParsedFrame where
  extensionType_lt : header.extensionType < 2 ^ 16
  msgType_lt : header.msgType < 2 ^ 8
  length_le : payload.length ≤ 2 ^ 24 - 1
  msgLength_eq : header.msgLength = payload.length

/-- An authenticated encryption whose ends take the chunks in the same order. `Synced` holds
of their states while they do. -/
structure OrderedAead {σ τ : Type} (encrypt : EncryptFn σ) (decrypt : DecryptFn τ)
    (Synced : σ → τ → Prop) : Prop where
  tag : ∀ s plaintext, (encrypt s plaintext).1.length = plaintext.length + sv2MacSize
  decrypts : ∀ {s t}, Synced s t → ∀ plaintext, ∃ t',
    decrypt t (encrypt s plaintext).1 = some (plaintext, t') ∧ Synced (encrypt s plaintext).2 t'

/-! ### Headers and lengths -/

theorem decodeFrameHeader_encodeFrameHeader {header : Sv2FrameHeader}
    (hext : header.extensionType < 2 ^ 16) (htype : header.msgType < 2 ^ 8)
    (hlen : header.msgLength < 2 ^ 24) :
    ∃ bytes, encodeFrameHeader header = some bytes ∧ bytes.length = sv2HeaderSize ∧
      decodeFrameHeader bytes = some header := by
  refine ⟨_, if_pos (by omega), rfl, ?_⟩
  simp only [decodeFrameHeader, leValue, List.foldr_cons, List.foldr_nil, UInt8.toNat_ofNat']
  refine congrArg some (Sv2FrameHeader.ext ?_ ?_ ?_) <;> dsimp only <;> omega

/-- A payload has one tag for each chunk that is begun. -/
theorem plaintextToCiphertextLength_eq (n : ℕ) :
    plaintextToCiphertextLength n = n + (n + 65518) / 65519 * 16 := by
  by_cases hzero : n = 0
  · rw [plaintextToCiphertextLength, if_pos hzero, hzero]
  · rw [plaintextToCiphertextLength, if_neg hzero]
    show (if n % 65519 > 0 then n / 65519 * 65535 + (n % 65519 + 16) else n / 65519 * 65535) = _
    by_cases hrem : n % 65519 > 0
    · rw [if_pos hrem]
      omega
    · rw [if_neg hrem]
      omega

theorem plaintextToCiphertextLength_of_le {n : ℕ} (hpos : 0 < n) (hle : n ≤ sv2MaxPlaintextChunk) :
    plaintextToCiphertextLength n = n + sv2MacSize := by
  have hle' : n ≤ 65519 := hle
  rw [plaintextToCiphertextLength_eq, show sv2MacSize = 16 from rfl]
  omega

/-- A full chunk and the rest. -/
theorem plaintextToCiphertextLength_of_gt {n : ℕ} (hlt : sv2MaxPlaintextChunk < n) :
    plaintextToCiphertextLength n = sv2MaxPlaintextChunk + sv2MacSize
      + plaintextToCiphertextLength (n - sv2MaxPlaintextChunk) := by
  have hlt' : 65519 < n := hlt
  rw [plaintextToCiphertextLength_eq, plaintextToCiphertextLength_eq,
    show sv2MacSize = 16 from rfl, show sv2MaxPlaintextChunk = 65519 from rfl]
  omega

/-- A length has a plaintext length only if it is that of the ciphertext. -/
theorem ciphertextToPlaintextLength_eq_some_iff {len n : ℕ} :
    ciphertextToPlaintextLength len = some n ↔ plaintextToCiphertextLength n = len := by
  rw [plaintextToCiphertextLength_eq]
  by_cases hzero : len = 0
  · rw [ciphertextToPlaintextLength, if_pos hzero, Option.some.injEq]
    omega
  · rw [ciphertextToPlaintextLength, if_neg hzero]
    show (if len % 65535 > 0 then
      if len % 65535 ≤ 16 then none else some (len / 65535 * 65519 + (len % 65535 - 16))
      else some (len / 65535 * 65519)) = some n ↔ _
    by_cases hrem : len % 65535 > 0
    · by_cases htag : len % 65535 ≤ 16
      · -- a last chunk without a byte beside its tag is the last chunk of nothing
        rw [if_pos hrem, if_pos htag]
        simp only [reduceCtorEq, false_iff]
        omega
      · rw [if_pos hrem, if_neg htag, Option.some.injEq]
        omega
    · rw [if_neg hrem, Option.some.injEq]
      omega

theorem strictMono_plaintextToCiphertextLength : StrictMono plaintextToCiphertextLength := by
  intro m n hlt
  rw [plaintextToCiphertextLength_eq, plaintextToCiphertextLength_eq]
  omega

/-- The two conversions are inverse to each other, and what is no length of a ciphertext is not
taken for one. -/
theorem length_conversion_exact :
    (∀ n, ciphertextToPlaintextLength (plaintextToCiphertextLength n) = some n) ∧
      StrictMono plaintextToCiphertextLength ∧
      ∀ len, (ciphertextToPlaintextLength len).isSome ↔
        ∃ n, plaintextToCiphertextLength n = len := by
  refine ⟨?_, strictMono_plaintextToCiphertextLength, ?_⟩
  · intro n
    exact ciphertextToPlaintextLength_eq_some_iff.mpr rfl
  · intro len
    simp only [Option.isSome_iff_exists, ciphertextToPlaintextLength_eq_some_iff]

/-! ### Chunks -/

section Chunks

variable {σ τ : Type} {encrypt : EncryptFn σ} {decrypt : DecryptFn τ} {Synced : σ → τ → Prop}

open Sv2FrameWriter Sv2FrameReader

@[simp] theorem encryptPayload_nil (s : σ) : encryptPayload encrypt s [] = ([], s) := by
  rw [encryptPayload, if_pos rfl]

@[simp] theorem decryptPayloadChunks_nil (t : τ) :
    decryptPayloadChunks decrypt t [] = some ([], t) := by
  rw [decryptPayloadChunks, if_pos rfl]

theorem encryptPayload_of_ne_nil (s : σ) {payload : Bytes} (h : payload ≠ []) :
    encryptPayload encrypt s payload =
      let first := encrypt s (payload.take sv2MaxPlaintextChunk)
      let rest := encryptPayload encrypt first.2 (payload.drop sv2MaxPlaintextChunk)
      (first.1 ++ rest.1, rest.2) := by
  rw [encryptPayload, if_neg h]

/-- The reader waits for exactly what the writer sends. -/
theorem length_encryptPayload (haead : OrderedAead encrypt decrypt Synced) (s : σ)
    (payload : Bytes) :
    (encryptPayload encrypt s payload).1.length = plaintextToCiphertextLength payload.length := by
  induction hn : payload.length using Nat.strongRecOn generalizing s payload with
  | ind n ih =>
    subst hn
    by_cases hnil : payload = []
    · subst hnil
      rw [encryptPayload_nil]
      rfl
    · have hpos : 0 < payload.length := List.length_pos_iff.mpr hnil
      have hdrop : (payload.drop sv2MaxPlaintextChunk).length < payload.length := by
        simp only [List.length_drop, sv2MaxPlaintextChunk]
        omega
      rw [encryptPayload_of_ne_nil s hnil]
      show (_ ++ _ : Bytes).length = _
      rw [List.length_append, haead.tag, ih _ hdrop _ _ rfl, List.length_take, List.length_drop]
      by_cases hle : payload.length ≤ sv2MaxPlaintextChunk
      · rw [plaintextToCiphertextLength_of_le hpos hle, min_eq_right hle,
          Nat.sub_eq_zero_of_le hle]
        rfl
      · have hgt : sv2MaxPlaintextChunk < payload.length := by omega
        rw [plaintextToCiphertextLength_of_gt hgt, min_eq_left hgt.le]

/-- A chunk of ciphertext that is full or has nothing after it is cut off as it was sent. -/
theorem decryptPayloadChunks_append {t t' : τ} {part plain rest : Bytes}
    (hne : part ≠ []) (hcut : part.length = sv2MaxPlaintextChunk + sv2MacSize ∨
      part.length ≤ sv2MaxPlaintextChunk + sv2MacSize ∧ rest = [])
    (hpart : decrypt t part = some (plain, t')) :
    decryptPayloadChunks decrypt t (part ++ rest) =
      (decryptPayloadChunks decrypt t' rest).map fun more => (plain ++ more.1, more.2) := by
  have hmin : min (part ++ rest).length (sv2MaxPlaintextChunk + sv2MacSize) = part.length := by
    obtain hfull | ⟨hle, rfl⟩ := hcut
    · rw [List.length_append, ← hfull]
      omega
    · rw [List.append_nil]
      omega
  rw [decryptPayloadChunks, if_neg (by simp [hne])]
  simp only [hmin, List.take_left, List.drop_left, hpart]
  cases hrest : decryptPayloadChunks decrypt t' rest <;>
    simp [hrest]

/-- The reader's chunk loop undoes the writer's. -/
theorem decryptPayloadChunks_encryptPayload (haead : OrderedAead encrypt decrypt Synced) {s : σ}
    {t : τ} (hsynced : Synced s t) (payload : Bytes) :
    ∃ t', decryptPayloadChunks decrypt t (encryptPayload encrypt s payload).1 = some (payload, t') ∧
      Synced (encryptPayload encrypt s payload).2 t' := by
  induction hn : payload.length using Nat.strongRecOn generalizing s t payload with
  | ind n ih =>
    subst hn
    by_cases hnil : payload = []
    · subst hnil
      exact ⟨t, by rw [encryptPayload_nil, decryptPayloadChunks_nil], by rwa [encryptPayload_nil]⟩
    · have hpos : 0 < payload.length := List.length_pos_iff.mpr hnil
      have hdrop : (payload.drop sv2MaxPlaintextChunk).length < payload.length := by
        simp only [List.length_drop, sv2MaxPlaintextChunk]
        omega
      obtain ⟨t₁, hfirst, hsynced₁⟩ := haead.decrypts hsynced (payload.take sv2MaxPlaintextChunk)
      obtain ⟨t₂, hrest, hsynced₂⟩ := ih _ hdrop hsynced₁ _ rfl
      have htag := haead.tag s (payload.take sv2MaxPlaintextChunk)
      rw [List.length_take] at htag
      have hne : (encrypt s (payload.take sv2MaxPlaintextChunk)).1 ≠ [] := by
        apply List.ne_nil_of_length_pos
        simp only [htag, sv2MacSize]
        omega
      rw [encryptPayload_of_ne_nil s hnil]
      refine ⟨t₂, ?_, hsynced₂⟩
      rw [decryptPayloadChunks_append hne ?_ hfirst, hrest, Option.map_some,
        List.take_append_drop]
      by_cases hle : payload.length ≤ sv2MaxPlaintextChunk
      · -- The last chunk: nothing is sent after it.
        right
        rw [List.drop_eq_nil_of_le hle, encryptPayload_nil]
        exact ⟨by omega, rfl⟩
      · left
        omega

end Chunks

/-! ### One frame -/

section OneFrame

variable {σ τ : Type} {encrypt : EncryptFn σ} {decrypt : DecryptFn τ} {Synced : σ → τ → Prop}

open Sv2FrameReader

theorem Sv2Frame.header_roundTrip (frame : Sv2Frame) :
    ∃ bytes, encodeFrameHeader frame.header = some bytes ∧ bytes.length = sv2HeaderSize ∧
      decodeFrameHeader bytes = some frame.header := by
  have hlen : frame.header.msgLength < 2 ^ 24 := by
    have hle := frame.length_le
    rw [frame.msgLength_eq]
    omega
  exact decodeFrameHeader_encodeFrameHeader frame.extensionType_lt frame.msgType_lt hlen

/-- A header and a payload of the lengths the reader waits for are one frame. -/
theorem drain_frame {decryptFn : Option (DecryptFn τ)} {t t₁ t₂ : τ}
    {wireHeader wirePayload bytes payload : Bytes} {header : Sv2FrameHeader}
    (hheader : wireHeader.length = headerSize decryptFn)
    (hbytes : headerBytes decryptFn t wireHeader = some (bytes, t₁))
    (hdecode : decodeFrameHeader bytes = some header)
    (hpayload : wirePayload.length = payloadWireLen decryptFn header)
    (hread : payloadBytes decryptFn t₁ header wirePayload = some (payload, t₂)) (rest : Bytes) :
    (blocks decryptFn).drain (.readingHeader, t) (wireHeader ++ wirePayload ++ rest) =
      ((blocks decryptFn).drain (.readingHeader, t₂) rest).map
        (BlockReader.prepend [{ header, payload }]) := by
  have hfirst : (blocks decryptFn).next (.readingHeader, t) wireHeader =
      some ((.readingPayload header, t₁), []) := by
    show readBlock decryptFn (.readingHeader, t) wireHeader = _
    simp [readBlock, hbytes, hdecode]
  have hsecond : (blocks decryptFn).next (.readingPayload header, t₁) wirePayload =
      some ((.readingHeader, t₂), [{ header, payload }]) := by
    show readBlock decryptFn (.readingPayload header, t₁) wirePayload = _
    simp [readBlock, hread]
  rw [List.append_assoc, BlockReader.drain_block _ hheader, hfirst, Option.bind_some,
    BlockReader.map_prepend_nil, BlockReader.drain_block _ hpayload, hsecond, Option.bind_some]

/-- The reader takes the chunk loop only for payloads that have chunks, which it would leave
alone otherwise. -/
theorem payloadBytes_of_length {t : τ} {header : Sv2FrameHeader} {block : Bytes}
    {read : Bytes × τ} (hlen : block.length = plaintextToCiphertextLength header.msgLength)
    (hread : decryptPayloadChunks decrypt t block = some read) :
    payloadBytes (some decrypt) t header block = some read := by
  by_cases hpos : payloadWireLen (some decrypt) header > 0
  · rw [payloadBytes, if_pos hpos, hread]
  · have hnil : block = [] := by
      have hzero : plaintextToCiphertextLength header.msgLength = 0 := by
        have hwire : payloadWireLen (some decrypt) header =
          plaintextToCiphertextLength header.msgLength := rfl
        omega
      exact List.eq_nil_of_length_eq_zero (hlen.trans hzero)
    subst hnil
    rw [decryptPayloadChunks_nil] at hread
    rw [payloadBytes, if_neg hpos, hread]

theorem plain_inStep (s : σ) (t : τ) :
    (blocks (none : Option (DecryptFn τ))).InStep
      (fun (writer : Sv2FrameWriter σ) (frame : Sv2Frame) =>
        writer.writeFrame frame.header frame.payload)
      Sv2Frame.toParsedFrame
      (fun writer phase =>
        writer = { encryptFn := none, sendCipher := s } ∧ phase = (.readingHeader, t)) where
  waits := by
    rintro _ _ ⟨rfl, rfl⟩
    exact Nat.succ_pos _
  reads := by
    rintro _ _ ⟨rfl, rfl⟩ frame
    obtain ⟨bytes, hencode, hlength, hdecode⟩ := frame.header_roundTrip
    refine ⟨bytes ++ frame.payload, _, (.readingHeader, t), ?_, ⟨rfl, rfl⟩, ?_⟩
    · simp only [Sv2FrameWriter.writeFrame, hencode]
      rfl
    · exact drain_frame hlength rfl hdecode frame.msgLength_eq.symm rfl

theorem encrypted_inStep (haead : OrderedAead encrypt decrypt Synced) :
    (blocks (some decrypt)).InStep
      (fun (writer : Sv2FrameWriter σ) (frame : Sv2Frame) =>
        writer.writeFrame frame.header frame.payload)
      Sv2Frame.toParsedFrame
      (fun writer phase => writer.encryptFn = some encrypt ∧
        ∃ t, phase = (.readingHeader, t) ∧ Synced writer.sendCipher t) where
  waits := by
    rintro writer _ ⟨-, t, rfl, -⟩
    exact Nat.succ_pos _
  reads := by
    rintro writer _ ⟨hkey, t, rfl, hsynced⟩ frame
    obtain ⟨bytes, hencode, hlength, hdecode⟩ := frame.header_roundTrip
    obtain ⟨t₁, hheader, hsynced₁⟩ := haead.decrypts hsynced bytes
    obtain ⟨t₂, hpayload, hsynced₂⟩ :=
      decryptPayloadChunks_encryptPayload haead hsynced₁ frame.payload
    have hwireLen := length_encryptPayload haead (encrypt writer.sendCipher bytes).2 frame.payload
    rw [← frame.msgLength_eq] at hwireLen
    let afterHeader := encrypt writer.sendCipher bytes
    let afterPayload := Sv2FrameWriter.encryptPayload encrypt afterHeader.2 frame.payload
    refine ⟨afterHeader.1 ++ afterPayload.1, { writer with sendCipher := afterPayload.2 },
      (.readingHeader, t₂), ?_, ⟨hkey, t₂, rfl, hsynced₂⟩, ?_⟩
    · simp only [Sv2FrameWriter.writeFrame, hencode, hkey]
      rfl
    · refine drain_frame ?_ hheader hdecode hwireLen ?_
      · rw [haead.tag, hlength]
        rfl
      · exact payloadBytes_of_length hwireLen hpayload

end OneFrame

/-! ### Streams -/

/-- `feedAll` is the library's, on the loop of `feed`. -/
theorem feedAll_eq {τ : Type} (reader : Sv2FrameReader τ) (chunks : List Bytes) :
    reader.feedAll chunks =
      ((Sv2FrameReader.blocks reader.decryptFn).feedAll (reader.state, reader.recvCipher)
        reader.buf chunks).map reader.after := by
  induction chunks generalizing reader with
  | nil => rfl
  | cons data chunks ih =>
    rw [Sv2FrameReader.feedAll, BlockReader.feedAll, Sv2FrameReader.feed]
    cases hfeed : (Sv2FrameReader.blocks reader.decryptFn).feed
        (reader.state, reader.recvCipher) reader.buf data with
    | none => rfl
    | some read =>
      simp only [Option.map_some, Option.bind_eq_bind, Option.bind_some, ih]
      show (Option.map _ ((Sv2FrameReader.blocks reader.decryptFn).feedAll read.1 read.2.1
        chunks)).bind _ = _
      cases (Sv2FrameReader.blocks reader.decryptFn).feedAll read.1 read.2.1 chunks <;> rfl

/-- Writing frames is writing them with what is known about them. -/
theorem writeFrames_map {σ : Type} (writer : Sv2FrameWriter σ) (frames : List Sv2Frame) :
    writer.writeFrames (frames.map (·.toParsedFrame)) =
      BlockReader.writeAll (fun (writer : Sv2FrameWriter σ) (frame : Sv2Frame) =>
        writer.writeFrame frame.header frame.payload) writer frames := by
  induction frames generalizing writer with
  | nil => rfl
  | cons frame frames ih =>
    simp only [Sv2FrameWriter.writeFrames, List.map_cons, BlockReader.writeAll] at ih ⊢
    simp only [ih]

/-- The encrypted half: as long as the two ciphers are in step. -/
theorem feedAll_encrypted {σ τ : Type} {encrypt : EncryptFn σ} {decrypt : DecryptFn τ}
    {Synced : σ → τ → Prop} (haead : OrderedAead encrypt decrypt Synced) {s : σ} {t : τ}
    (hsynced : Synced s t) (frames : List Sv2Frame) : ∃ wire s' t',
      Sv2FrameWriter.writeFrames { encryptFn := some encrypt, sendCipher := s }
        (frames.map (·.toParsedFrame)) =
          some (wire, { encryptFn := some encrypt, sendCipher := s' }) ∧
      Synced s' t' ∧
      ∀ chunks : List Bytes, chunks.flatten = wire →
        (Sv2FrameReader.new (some decrypt) t).feedAll chunks =
          some (Sv2FrameReader.new (some decrypt) t', frames.map (·.toParsedFrame)) := by
  obtain ⟨wire, writer, _, hwrite, ⟨hkey, t', rfl, hsynced'⟩, hread⟩ :=
    BlockReader.feedAll_writeAll _ (encrypted_inStep haead)
      (show Sv2FrameWriter.encryptFn ⟨some encrypt, s⟩ = some encrypt ∧ _ from
        ⟨rfl, t, rfl, hsynced⟩) frames
  refine ⟨wire, writer.sendCipher, t', ?_, hsynced', fun chunks hchunks => ?_⟩
  · rw [writeFrames_map, hwrite, ← hkey]
  · have hfed := hread chunks hchunks
    rw [feedAll_eq]
    exact congrArg (Option.map _) hfed

/-- The output of a writer for a list of frames is read back as these frames, whichever
pieces it arrives in, and nothing is left over: without a key, and with one as long as the
two ciphers are in step, which they still are afterwards. -/
theorem frameStream_roundTrip :
    (∀ (σ τ : Type) (s : σ) (t : τ) (frames : List Sv2Frame), ∃ wire,
      Sv2FrameWriter.writeFrames { encryptFn := none, sendCipher := s }
        (frames.map (·.toParsedFrame)) =
          some (wire, { encryptFn := none, sendCipher := s }) ∧
      ∀ chunks : List Bytes, chunks.flatten = wire →
        (Sv2FrameReader.new none t).feedAll chunks =
          some (Sv2FrameReader.new none t, frames.map (·.toParsedFrame))) ∧
    (∀ (σ τ : Type) (encrypt : EncryptFn σ) (decrypt : DecryptFn τ) (Synced : σ → τ → Prop),
      OrderedAead encrypt decrypt Synced → ∀ (s : σ) (t : τ), Synced s t →
      ∀ frames : List Sv2Frame, ∃ wire s' t',
        Sv2FrameWriter.writeFrames { encryptFn := some encrypt, sendCipher := s }
          (frames.map (·.toParsedFrame)) =
            some (wire, { encryptFn := some encrypt, sendCipher := s' }) ∧
        Synced s' t' ∧
        ∀ chunks : List Bytes, chunks.flatten = wire →
          (Sv2FrameReader.new (some decrypt) t).feedAll chunks =
            some (Sv2FrameReader.new (some decrypt) t', frames.map (·.toParsedFrame))) := by
  constructor
  · intro σ τ s t frames
    obtain ⟨wire, _, _, hwrite, ⟨rfl, rfl⟩, hread⟩ :=
      BlockReader.feedAll_writeAll _ (plain_inStep s t) ⟨rfl, rfl⟩ frames
    refine ⟨wire, by rw [writeFrames_map, hwrite], fun chunks hchunks => ?_⟩
    have hfed := hread chunks hchunks
    rw [feedAll_eq]
    exact congrArg (Option.map _) hfed
  · intro σ τ encrypt decrypt Synced haead s t hsynced frames
    exact feedAll_encrypted haead hsynced frames

/-- The cipher of the frame tests, with a tag that counts the chunks. -/
def mockEncrypt : EncryptFn ℕ := fun n plaintext =>
  (plaintext.map (· ^^^ 0x42) ++ List.replicate sv2MacSize (UInt8.ofNat n), n + 1)

def mockDecrypt : DecryptFn ℕ := fun n ciphertext =>
  let length := ciphertext.length - sv2MacSize
  if ciphertext.drop length = List.replicate sv2MacSize (UInt8.ofNat n) then
    some ((ciphertext.take length).map (· ^^^ 0x42), n + 1)
  else none

theorem mock_ordered : OrderedAead mockEncrypt mockDecrypt (· = ·) where
  tag n plaintext := by simp [mockEncrypt]
  decrypts := by
    rintro n _ rfl plaintext
    refine ⟨n + 1, ?_, rfl⟩
    have hlen : (plaintext.map (· ^^^ 0x42) ++
        List.replicate sv2MacSize (UInt8.ofNat n)).length - sv2MacSize =
          (plaintext.map (· ^^^ 0x42)).length := by simp
    simp only [mockDecrypt, mockEncrypt, hlen, List.drop_left, List.take_left, if_true,
      List.map_map]
    have hxor : (fun x : UInt8 => x ^^^ 0x42) ∘ (fun x => x ^^^ 0x42) = id := by
      funext x
      rw [Function.comp_apply, UInt8.xor_assoc, UInt8.xor_self, UInt8.xor_zero, id]
    rw [hxor, List.map_id]

/-- A share and an empty frame, fed byte by byte. -/
theorem frameStream_roundTrip_sample :
    let share : ParsedFrame :=
      { header := { extensionType := 0x8000, msgType := 0x1a, msgLength := 5 },
        payload := [104, 101, 108, 108, 111] }
    let empty : ParsedFrame :=
      { header := { extensionType := 0, msgType := 1, msgLength := 0 }, payload := [] }
    ∃ wire n m,
      Sv2FrameWriter.writeFrames { encryptFn := some mockEncrypt, sendCipher := 0 } [share, empty] =
        some (wire, { encryptFn := some mockEncrypt, sendCipher := n }) ∧
      (Sv2FrameReader.new (some mockDecrypt) 0).feedAll (wire.map fun byte => [byte]) =
        some (Sv2FrameReader.new (some mockDecrypt) m, [share, empty]) := by
  obtain ⟨wire, n, m, hwrite, -, hread⟩ :=
    frameStream_roundTrip.2 ℕ ℕ mockEncrypt mockDecrypt (· = ·) mock_ordered 0 0 rfl
      [⟨⟨⟨0x8000, 0x1a, 5⟩, [104, 101, 108, 108, 111]⟩, by decide, by decide, by decide, rfl⟩,
        ⟨⟨⟨0, 1, 0⟩, []⟩, by decide, by decide, by decide, rfl⟩]
  exact ⟨wire, n, m, hwrite, hread _ (by simp [← List.flatMap_def])⟩

end PublicPool.Sv2
