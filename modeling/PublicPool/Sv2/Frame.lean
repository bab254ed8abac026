import PublicPool.Bitcoin
import PublicPool.Lib.BlockReader

/-!
# `PublicPool.Sv2.Frame`: frames on the wire

`models/sv2/sv2-frame.ts`: the header of a frame, the lengths of encrypted payloads, the
writer and the reader that puts frames together again from what a connection delivers.

The two functions a connection encrypts and decrypts with are closures over a cipher state
that moves on with every call. Here the state is a value that goes in and comes out:
`EncryptFn` and `DecryptFn`, the second with `none` for a failed authentication. A header or
a chunk that cannot be written or read is `none` as well, and so is the `feed` it happens in.

The loop of `feed` is a block reader whose phases are the two reader states, each with the
state of the cipher: `headerSize` and `payloadWireLen` are the lengths of the blocks they
wait for, and `readBlock` is what the loop does once a block is there.
-/

set_option autoImplicit false

namespace PublicPool.Sv2

open Lib

/-! ### Constants -/

def sv2HeaderSize : ℕ := 6

def sv2MacSize : ℕ := 16

def sv2EncryptedHeaderSize : ℕ := sv2HeaderSize + sv2MacSize

def sv2MaxPlaintextChunk : ℕ := 65519

def sv2ChannelMsgFlag : ℕ := 0x8000

/-! ### Frame header -/

@[ext] structure Sv2FrameHeader where
  extensionType : ℕ
  msgType : ℕ
  /-- The number of bytes of the payload. -/
  msgLength : ℕ
  deriving DecidableEq

/-- `writeUInt16LE` throws on an extension type that is no 16-bit number. The other fields
are cut off. -/
def encodeFrameHeader (header : Sv2FrameHeader) : Option Bytes :=
  if header.extensionType ≤ 0xffff then
    some [UInt8.ofNat header.extensionType, UInt8.ofNat (header.extensionType / 2 ^ 8),
      UInt8.ofNat header.msgType, UInt8.ofNat header.msgLength,
      UInt8.ofNat (header.msgLength / 2 ^ 8), UInt8.ofNat (header.msgLength / 2 ^ 16)]
  else none

def decodeFrameHeader : Bytes → Option Sv2FrameHeader
  | b₀ :: b₁ :: b₂ :: b₃ :: b₄ :: b₅ :: _ =>
    some { extensionType := leValue [b₀, b₁], msgType := b₂.toNat,
           msgLength := leValue [b₃, b₄, b₅] }
  | _ => none

def isChannelMessage (header : Sv2FrameHeader) : Bool :=
  header.extensionType &&& sv2ChannelMsgFlag ≠ 0

/-! ### Ciphertext and plaintext sizes -/

def plaintextToCiphertextLength (plaintextLen : ℕ) : ℕ :=
  if plaintextLen = 0 then 0
  else
    let fullChunks := plaintextLen / sv2MaxPlaintextChunk
    let remainder := plaintextLen % sv2MaxPlaintextChunk
    let len := fullChunks * (sv2MaxPlaintextChunk + sv2MacSize)
    if remainder > 0 then len + (remainder + sv2MacSize) else len

/-- `none` when the last chunk is too small for its authentication tag. -/
def ciphertextToPlaintextLength (ciphertextLen : ℕ) : Option ℕ :=
  if ciphertextLen = 0 then some 0
  else
    let chunkSize := sv2MaxPlaintextChunk + sv2MacSize
    let fullChunks := ciphertextLen / chunkSize
    let remainder := ciphertextLen % chunkSize
    let len := fullChunks * sv2MaxPlaintextChunk
    if remainder > 0 then
      if remainder ≤ sv2MacSize then none else some (len + (remainder - sv2MacSize))
    else some len

/-! ### Encryption and decryption -/

/-- The encryption of a connection, with the state of its cipher. -/
abbrev EncryptFn (σ : Type) := σ → Bytes → Bytes × σ

/-- The decryption of a connection, which throws on what it cannot authenticate. -/
abbrev DecryptFn (τ : Type) := τ → Bytes → Option (Bytes × τ)

structure ParsedFrame where
  header : Sv2FrameHeader
  payload : Bytes
  deriving DecidableEq

/-! ### Frame writer -/

structure Sv2FrameWriter (σ : Type) where
  encryptFn : Option (EncryptFn σ)
  /-- The state of the cipher behind `encryptFn`. -/
  sendCipher : σ

namespace Sv2FrameWriter

variable {σ : Type}

def setEncryptFn (writer : Sv2FrameWriter σ) (fn : EncryptFn σ) : Sv2FrameWriter σ :=
  { writer with encryptFn := some fn }

/-- The loop of `writeFrame` over the chunks of a payload. -/
def encryptPayload (encrypt : EncryptFn σ) (cipher : σ) (payload : Bytes) : Bytes × σ :=
  if payload = [] then ([], cipher)
  else
    let (part, cipher) := encrypt cipher (payload.take sv2MaxPlaintextChunk)
    let (parts, cipher) := encryptPayload encrypt cipher (payload.drop sv2MaxPlaintextChunk)
    (part ++ parts, cipher)
termination_by payload.length
decreasing_by
  have hpos : 0 < payload.length := List.length_pos_iff.mpr ‹_›
  simp only [List.length_drop, sv2MaxPlaintextChunk]
  omega

def writeFrame (writer : Sv2FrameWriter σ) (header : Sv2FrameHeader) (payload : Bytes) :
    Option (Bytes × Sv2FrameWriter σ) := do
  let headerBuf ← encodeFrameHeader header
  match writer.encryptFn with
  | none => return (headerBuf ++ payload, writer)
  | some encrypt =>
    let (encHeader, cipher) := encrypt writer.sendCipher headerBuf
    let (parts, cipher) := encryptPayload encrypt cipher payload
    return (encHeader ++ parts, { writer with sendCipher := cipher })

/-- The output of a writer for frame after frame. -/
def writeFrames (writer : Sv2FrameWriter σ) (frames : List ParsedFrame) :
    Option (Bytes × Sv2FrameWriter σ) :=
  BlockReader.writeAll (fun writer frame => writer.writeFrame frame.header frame.payload) writer
    frames

end Sv2FrameWriter

/-! ### Frame reader -/

/-- The state of a reader, with its `currentHeader`. -/
inductive ReaderState
  | readingHeader
  | readingPayload (currentHeader : Sv2FrameHeader)
  deriving DecidableEq

structure Sv2FrameReader (τ : Type) where
  decryptFn : Option (DecryptFn τ)
  /-- The state of the cipher behind `decryptFn`. -/
  recvCipher : τ
  buf : Bytes
  state : ReaderState

namespace Sv2FrameReader

variable {τ : Type}

/-- `new Sv2FrameReader(decryptFn)`. -/
def new (decryptFn : Option (DecryptFn τ)) (cipher : τ) : Sv2FrameReader τ :=
  { decryptFn, recvCipher := cipher, buf := [], state := .readingHeader }

def setDecryptFn (reader : Sv2FrameReader τ) (fn : DecryptFn τ) : Sv2FrameReader τ :=
  { reader with decryptFn := some fn }

def headerSize (decryptFn : Option (DecryptFn τ)) : ℕ :=
  if decryptFn.isSome then sv2EncryptedHeaderSize else sv2HeaderSize

/-- The length of the payload of a frame on the wire. -/
def payloadWireLen (decryptFn : Option (DecryptFn τ)) (header : Sv2FrameHeader) : ℕ :=
  if decryptFn.isSome then plaintextToCiphertextLength header.msgLength else header.msgLength

def decryptPayloadChunks (decrypt : DecryptFn τ) (cipher : τ) (ciphertext : Bytes) :
    Option (Bytes × τ) :=
  if ciphertext = [] then some ([], cipher)
  else
    let chunkSize := sv2MaxPlaintextChunk + sv2MacSize
    let thisChunkLen := min ciphertext.length chunkSize
    do
      let (part, cipher) ← decrypt cipher (ciphertext.take thisChunkLen)
      let (parts, cipher) ← decryptPayloadChunks decrypt cipher (ciphertext.drop thisChunkLen)
      return (part ++ parts, cipher)
termination_by ciphertext.length
decreasing_by
  have hpos : 0 < ciphertext.length := List.length_pos_iff.mpr ‹_›
  simp only [List.length_drop, sv2MaxPlaintextChunk, sv2MacSize]
  omega

/-- The bytes of a header. -/
def headerBytes (decryptFn : Option (DecryptFn τ)) (cipher : τ) (block : Bytes) :
    Option (Bytes × τ) :=
  match decryptFn with
  | some decrypt => decrypt cipher block
  | none => some (block, cipher)

/-- The bytes of a payload. An empty one has no chunk, and the cipher does not move. -/
def payloadBytes (decryptFn : Option (DecryptFn τ)) (cipher : τ) (header : Sv2FrameHeader)
    (block : Bytes) : Option (Bytes × τ) :=
  match decryptFn with
  | some decrypt =>
    if payloadWireLen decryptFn header > 0 then decryptPayloadChunks decrypt cipher block
    else some (block, cipher)
  | none => some (block, cipher)

/-- What the loop of `feed` does with the header or the payload it has waited for. -/
def readBlock (decryptFn : Option (DecryptFn τ)) :
    ReaderState × τ → Bytes → Option ((ReaderState × τ) × List ParsedFrame)
  | (.readingHeader, cipher), block => do
    let (bytes, cipher) ← headerBytes decryptFn cipher block
    let header ← decodeFrameHeader bytes
    return ((.readingPayload header, cipher), [])
  | (.readingPayload header, cipher), block => do
    let (payload, cipher) ← payloadBytes decryptFn cipher header block
    return ((.readingHeader, cipher), [{ header, payload }])

/-- The loop of `feed`. Reading a header takes bytes, and reading a payload ends in the state
that reads a header. -/
def blocks (decryptFn : Option (DecryptFn τ)) :
    BlockReader UInt8 (ReaderState × τ) ParsedFrame where
  need
    | (.readingHeader, _) => headerSize decryptFn
    | (.readingPayload header, _) => payloadWireLen decryptFn header
  next := readBlock decryptFn
  rank
    | (.readingHeader, _) => 0
    | (.readingPayload _, _) => 1
  progress := by
    rintro ⟨_ | header, cipher⟩ p' out hzero hnext
    · simp only [headerSize, sv2EncryptedHeaderSize, sv2HeaderSize] at hzero
      split at hzero <;> omega
    · simp only [readBlock, Option.bind_eq_bind, Option.bind_eq_some_iff] at hnext
      obtain ⟨read, -, hstate⟩ := hnext
      cases hstate
      exact Nat.zero_lt_one

/-- The reader after a reading of its loop. -/
def after (reader : Sv2FrameReader τ) (read : (ReaderState × τ) × Bytes × List ParsedFrame) :
    Sv2FrameReader τ × List ParsedFrame :=
  ({ reader with state := read.1.1, recvCipher := read.1.2, buf := read.2.1 }, read.2.2)

def feed (reader : Sv2FrameReader τ) (data : Bytes) :
    Option (Sv2FrameReader τ × List ParsedFrame) :=
  ((blocks reader.decryptFn).feed (reader.state, reader.recvCipher) reader.buf data).map
    reader.after

/-- What a connection delivers, fed chunk by chunk. -/
def feedAll (reader : Sv2FrameReader τ) : List Bytes → Option (Sv2FrameReader τ × List ParsedFrame)
  | [] => some (reader, [])
  | data :: chunks => do
    let (reader, frames) ← reader.feed data
    let (reader, more) ← reader.feedAll chunks
    return (reader, frames ++ more)

end Sv2FrameReader

end PublicPool.Sv2
