import PublicPool.Payout.Distribution

/-!
# `PublicPool.Bitcoin`: transactions, block headers and the packages behind them

The pool builds and reads transactions and addresses with packages that are not part of this
repository. `Externals` carries what it uses of them, next to the double SHA-256 of
`utils/hash.utils.ts`, which is a function from bytes to 32-byte digests and nothing more.
A function that throws on some arguments is an `Option`.

`buildHeader` and `merkleStep` write into fixed-size buffers the way `Buffer.copy` does:
bytes past the field are cut off or overwritten by the next field, missing bytes are zero.
`fit` says so.
-/

set_option autoImplicit false

namespace PublicPool

/-- A 32-byte hash. -/
structure Digest where
  bytes : Bytes
  length_eq : bytes.length = 32
  deriving DecidableEq

theorem Digest.ext_bytes {a b : Digest} (h : a.bytes = b.bytes) : a = b := by
  cases a; cases b; simpa using h

structure TxInput where
  hash : Bytes
  index : ℕ
  script : Bytes
  sequence : ℕ
  witness : List Bytes
  deriving DecidableEq

structure TxOutput where
  value : ℤ
  script : Bytes
  deriving DecidableEq

/-- `bitcoinjs.Transaction`. -/
structure Transaction where
  version : ℤ
  ins : List TxInput
  outs : List TxOutput
  locktime : ℕ
  deriving DecidableEq

/-- `bitcoinjs.networks`. -/
inductive Network
  | mainnet
  | testnet
  | regtest
  deriving DecidableEq, Repr

/-- What the pool takes from outside the repository. -/
structure Externals extends PayoutEnv where
  /-- `hash256`: SHA-256, twice. -/
  hash256 : Bytes → Digest
  /-- `bitcoinjs.Transaction.fromBuffer`, which throws on bytes that are no transaction. -/
  fromBuffer : Bytes → Option Transaction
  /-- `transaction.toBuffer()`: the serialization with witnesses, when there are any. -/
  toBuffer : Transaction → Bytes
  /-- `transaction.__toBuffer()` without witnesses, as it is hashed into the txid. -/
  toLegacyBuffer : Transaction → Bytes
  /-- `bitcoinjs.address.toOutputScript`, which throws on an address of another network. -/
  toOutputScript : String → Network → Option Bytes
  /-- `bitcoinjs.payments.p2….output` of an address of the given type, or `none` when the
  package throws. -/
  paymentOutput : AddressType → String → Network → Option Bytes
  /-- `validate(address, network)` of the address package. -/
  validateAddress : String → Network → Bool
  /-- `bitcoinjs.script.number.encode`. -/
  scriptNumberEncode : ℤ → Bytes
  /-- `bitcoinjs.script.compile([OP_RETURN, data])`. -/
  compileOpReturn : Bytes → Bytes

/-- `bitcoinjs.opcodes.OP_RETURN`. -/
def opReturn : UInt8 := 0x6a

/-- The first six bytes of a witness commitment output. -/
def witnessCommitmentHeader : Bytes := [0x6a, 0x24, 0xaa, 0x21, 0xa9, 0xed]

/-- `isWitnessCommitmentOutput`. -/
def isWitnessCommitmentOutput (script : Bytes) : Bool :=
  script.length = 38 && script.take 6 = witnessCommitmentHeader

/-- What a field of `n` bytes holds after `source.copy`: the source cut off at the end of the
field, or followed by the zeros the field held before. -/
def fit (n : ℕ) (source : Bytes) : Bytes :=
  source.take n ++ List.replicate (n - source.length) 0

@[simp] theorem length_fit (n : ℕ) (source : Bytes) : (fit n source).length = n := by
  simp only [fit, List.length_append, List.length_take, List.length_replicate]
  omega

theorem fit_of_length {n : ℕ} {source : Bytes} (h : source.length = n) : fit n source = source := by
  simp [fit, ← h]

/-- One level of a merkle path: the hash of a node and its sibling. -/
def merkleStep (host : Externals) (root : Digest) (sibling : Bytes) : Digest :=
  host.hash256 (root.bytes ++ fit 32 sibling)

/-- The merkle root of a coinbase hash and its merkle path. `computeMerkleRoot` hashes a coinbase
and does this. -/
def merkleRootOfPath (host : Externals) (root : Digest) (path : List Bytes) : Digest :=
  path.foldl (merkleStep host) root

/-- A number read modulo `2 ^ 32`, as `value >>> 0`. -/
def uint32 (n : ℤ) : ℤ := n % 2 ^ 32

/-- `CustomWorkService.buildHeader`, or `none` when `writeInt32LE` throws on the version. The
other numbers are taken modulo `2 ^ 32` first, so writing them does not throw. -/
def buildHeader (prevHash : Bytes) (merkleRoot : Digest) (version timestamp nBits nonce : ℤ) :
    Option Bytes := do
  let versionBytes ← Js.writeInt32LE version
  let timestampBytes ← Js.writeUInt32LE (some (uint32 timestamp))
  let bitsBytes ← Js.writeUInt32LE (some (uint32 nBits))
  let nonceBytes ← Js.writeUInt32LE (some (uint32 nonce))
  return versionBytes ++ fit 32 prevHash ++ merkleRoot.bytes ++ timestampBytes ++ bitsBytes
    ++ nonceBytes

/-- The number a buffer encodes, least significant byte first. -/
def leValue (b : Bytes) : ℕ := b.foldr (fun x n => x.toNat + 256 * n) 0

/-- `buf.readUInt32LE(0)`, which throws on fewer than four bytes. -/
def readUInt32LE (b : Bytes) : Option ℤ :=
  if 4 ≤ b.length then some (leValue (b.take 4)) else none

/-- `n` bytes of a number, least significant first. -/
def putLE (bytes : ℕ) (n : ℤ) : Bytes :=
  (List.range bytes).map fun i => UInt8.ofNat ((n / 256 ^ i) % 256).toNat

@[simp] theorem length_putLE (k : ℕ) (n : ℤ) : (putLE k n).length = k := by
  simp [putLE]

theorem putLE_natCast (k n : ℕ) :
    putLE k n = (List.range k).map fun i => UInt8.ofNat (n / 256 ^ i % 256) := by
  refine List.map_congr_left fun i _ => ?_
  have hcast : ((n : ℤ) / 256 ^ i) % 256 = ((n / 256 ^ i % 256 : ℕ) : ℤ) := by push_cast; rfl
  rw [hcast, Int.toNat_natCast]

theorem putLE_succ (k n : ℕ) :
    putLE (k + 1) n = UInt8.ofNat (n % 256) :: putLE k ((n / 256 : ℕ) : ℤ) := by
  rw [putLE_natCast, putLE_natCast, List.range_succ_eq_map, List.map_cons, List.map_map]
  congr 1
  · rw [pow_zero, Nat.div_one]
  · refine List.map_congr_left fun i _ => ?_
    rw [Function.comp_apply, pow_succ', Nat.div_div_eq_div_mul]

theorem leValue_putLE (k n : ℕ) : leValue (putLE k n) = n % 256 ^ k := by
  induction k generalizing n with
  | zero => simp [putLE, leValue, Nat.mod_one]
  | succ k ih =>
    have hbyte : n % 256 % 2 ^ 8 = n % 256 := Nat.mod_eq_of_lt (Nat.mod_lt n (by norm_num))
    rw [putLE_succ]
    show (UInt8.ofNat (n % 256)).toNat + 256 * leValue (putLE k ((n / 256 : ℕ) : ℤ)) = _
    rw [ih, UInt8.toNat_ofNat', hbyte, pow_succ', Nat.mod_mul]

/-- The bytes of a number determine it, and the other way round. -/
theorem putLE_leValue (bytes : Bytes) : putLE bytes.length (leValue bytes) = bytes := by
  induction bytes with
  | nil => rfl
  | cons b bytes ih =>
    have hb := b.toNat_lt
    have hvalue : leValue (b :: bytes) = b.toNat + 256 * leValue bytes := rfl
    have hlow : (b.toNat + 256 * leValue bytes) % 256 = b.toNat := by omega
    have hhigh : (b.toNat + 256 * leValue bytes) / 256 = leValue bytes := by omega
    rw [List.length_cons, hvalue, putLE_succ, hlow, hhigh, ih, UInt8.ofNat_toNat]

/-- Only the bytes that are written matter. -/
theorem putLE_mod (k n : ℕ) : putLE k ((n % 256 ^ k : ℕ) : ℤ) = putLE k n := by
  have h := putLE_leValue (putLE k n)
  rwa [length_putLE, leValue_putLE] at h

/-- The variable-length encoding of a count or a length. -/
def putVarInt (n : ℕ) : Bytes :=
  if n < 0xfd then putLE 1 n
  else if n ≤ 0xffff then 0xfd :: putLE 2 n
  else if n ≤ 0xffffffff then 0xfe :: putLE 4 n
  else 0xff :: putLE 8 n

/-- `block.toHex(false)`: a header and the transactions of its block. -/
def blockBytes (host : Externals) (header : Bytes) (transactions : List Transaction) : Bytes :=
  header ++ putVarInt transactions.length ++ transactions.flatMap host.toBuffer

/-! ### Headers as fields -/

theorem leValue_le32 (n : ℤ) : leValue (Js.le32 n) = (n % 2 ^ 32).toNat := by
  have hlt : (n % 2 ^ 32).toNat < 2 ^ 32 := by omega
  simp only [Js.le32, leValue, List.foldr_cons, List.foldr_nil, UInt8.toNat_ofNat']
  omega

@[simp] theorem length_le32 (n : ℤ) : (Js.le32 n).length = 4 := rfl

theorem le32_inj {a b : ℤ} : Js.le32 a = Js.le32 b ↔ a % 2 ^ 32 = b % 2 ^ 32 := by
  constructor
  · intro h
    have hvalue := congrArg leValue h
    rw [leValue_le32, leValue_le32] at hvalue
    omega
  · intro h
    simp only [Js.le32, h]

/-- The fields of a block header. -/
structure HeaderFields where
  version : BitVec 32
  prevHash : Digest
  merkleRoot : Digest
  timestamp : BitVec 32
  bits : BitVec 32
  nonce : BitVec 32
  deriving DecidableEq

/-- The 80 bytes of a header. -/
def HeaderFields.bytes (fields : HeaderFields) : Bytes :=
  Js.le32 fields.version.toInt ++ fields.prevHash.bytes ++ fields.merkleRoot.bytes
    ++ Js.le32 fields.timestamp.toInt ++ Js.le32 fields.bits.toInt ++ Js.le32 fields.nonce.toInt

theorem le32_toInt_inj {a b : BitVec 32} : Js.le32 a.toInt = Js.le32 b.toInt ↔ a = b := by
  constructor
  · intro h
    have hmod := le32_inj.mp h
    have hbits : BitVec.ofInt 32 a.toInt = BitVec.ofInt 32 b.toInt :=
      BitVec.eq_of_toNat_eq (by simp only [BitVec.toNat_ofInt]; omega)
    simpa only [BitVec.ofInt_toInt] using hbits
  · intro h
    rw [h]

theorem le32_toInt_ofInt (n : ℤ) : Js.le32 (BitVec.ofInt 32 n).toInt = Js.le32 n := by
  rw [le32_inj, BitVec.toInt_ofInt]
  exact Int.bmod_emod ..

/-- The bytes of a header determine its fields. -/
theorem HeaderFields.bytes_injective {a b : HeaderFields} (h : a.bytes = b.bytes) : a = b := by
  simp only [HeaderFields.bytes, List.append_assoc] at h
  obtain ⟨hversion, h⟩ := List.append_inj h (by simp)
  obtain ⟨hprev, h⟩ := List.append_inj h (by rw [a.prevHash.length_eq, b.prevHash.length_eq])
  obtain ⟨hroot, h⟩ := List.append_inj h (by rw [a.merkleRoot.length_eq, b.merkleRoot.length_eq])
  obtain ⟨htime, h⟩ := List.append_inj h (by simp)
  obtain ⟨hbits, hnonce⟩ := List.append_inj h (by simp)
  cases a; cases b
  simp only [HeaderFields.mk.injEq]
  exact ⟨le32_toInt_inj.mp hversion, Digest.ext_bytes hprev, Digest.ext_bytes hroot,
    le32_toInt_inj.mp htime, le32_toInt_inj.mp hbits, le32_toInt_inj.mp hnonce⟩

/-- The fields that `buildHeader` writes. -/
def headerFieldsOf (prevHash : Bytes) (merkleRoot : Digest)
    (version timestamp nBits nonce : ℤ) : HeaderFields where
  version := BitVec.ofInt 32 version
  prevHash := ⟨fit 32 prevHash, length_fit ..⟩
  merkleRoot := merkleRoot
  timestamp := BitVec.ofInt 32 timestamp
  bits := BitVec.ofInt 32 nBits
  nonce := BitVec.ofInt 32 nonce

theorem buildHeader_eq_some {prevHash : Bytes} {merkleRoot : Digest}
    {version timestamp nBits nonce : ℤ} {header : Bytes}
    (h : buildHeader prevHash merkleRoot version timestamp nBits nonce = some header) :
    (headerFieldsOf prevHash merkleRoot version timestamp nBits nonce).bytes = header := by
  have hwrite (n : ℤ) : Js.writeUInt32LE (some (uint32 n)) = some (Js.le32 n) := by
    have hrange : 0 ≤ uint32 n ∧ uint32 n ≤ 0xffffffff := by
      unfold uint32
      omega
    rw [Js.writeUInt32LE, if_pos hrange, Option.some.injEq, le32_inj]
    unfold uint32
    omega
  simp only [buildHeader, hwrite, Js.writeInt32LE] at h
  split at h
  · cases h
    simp only [HeaderFields.bytes, headerFieldsOf, le32_toInt_ofInt]
  · cases h

end PublicPool
