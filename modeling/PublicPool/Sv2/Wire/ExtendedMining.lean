import PublicPool.Sv2.BinaryCodec

/-!
# `PublicPool.Sv2.Wire.ExtendedMining`: messages of extended mining channels

`models/sv2/sv2-extended-messages.ts`, with the fields as they are on the wire and their
ranges.
-/

set_option autoImplicit false

namespace PublicPool.Sv2.Wire

open BufferWriter BufferReader

structure Sv2OpenExtendedMiningChannel where
  requestId : ℕ
  userIdentity : String
  nominalHashRate : F32
  maxTarget : Bytes
  minExtranonceSize : ℕ

def Sv2OpenExtendedMiningChannel.InRange (msg : Sv2OpenExtendedMiningChannel) : Prop :=
  IsU32 msg.requestId ∧ IsStr0_255 msg.userIdentity ∧ IsU256 msg.maxTarget ∧
  IsU16 msg.minExtranonceSize

def serializeOpenExtendedMiningChannel (msg : Sv2OpenExtendedMiningChannel) :
    Option Bytes := toBuffer do
  writeU32 msg.requestId
  writeStr0_255 msg.userIdentity
  writeF32 msg.nominalHashRate
  writeU256 msg.maxTarget
  writeU16 msg.minExtranonceSize

def deserializeOpenExtendedMiningChannel : BufferReader Sv2OpenExtendedMiningChannel := do
  return {
    requestId := ← readU32
    userIdentity := ← readStr0_255
    nominalHashRate := ← readF32
    maxTarget := ← readU256
    minExtranonceSize := ← readU16 }

structure Sv2OpenExtendedMiningChannelSuccess where
  requestId : ℕ
  channelId : ℕ
  target : Bytes
  extranonceSize : ℕ
  extranoncePrefix : Bytes
  groupChannelId : ℕ

def Sv2OpenExtendedMiningChannelSuccess.InRange
    (msg : Sv2OpenExtendedMiningChannelSuccess) : Prop :=
  IsU32 msg.requestId ∧ IsU32 msg.channelId ∧ IsU256 msg.target ∧ IsU16 msg.extranonceSize ∧
  IsB0_32 msg.extranoncePrefix ∧ IsU32 msg.groupChannelId

def serializeOpenExtendedMiningChannelSuccess (msg : Sv2OpenExtendedMiningChannelSuccess) :
    Option Bytes := toBuffer do
  writeU32 msg.requestId
  writeU32 msg.channelId
  writeU256 msg.target
  writeU16 msg.extranonceSize
  writeB0_32 msg.extranoncePrefix
  writeU32 msg.groupChannelId

def deserializeOpenExtendedMiningChannelSuccess :
    BufferReader Sv2OpenExtendedMiningChannelSuccess := do
  return {
    requestId := ← readU32
    channelId := ← readU32
    target := ← readU256
    extranonceSize := ← readU16
    extranoncePrefix := ← readB0_32
    groupChannelId := ← readU32 }

structure Sv2NewExtendedMiningJob where
  channelId : ℕ
  jobId : ℕ
  minNtime : Option ℕ
  version : ℕ
  versionRollingAllowed : Bool
  merklePath : List Bytes
  coinbasePrefix : Bytes
  coinbaseSuffix : Bytes

def Sv2NewExtendedMiningJob.InRange (msg : Sv2NewExtendedMiningJob) : Prop :=
  IsU32 msg.channelId ∧ IsU32 msg.jobId ∧ IsOptionU32 msg.minNtime ∧ IsU32 msg.version ∧
  IsSeq0_255 IsU256 msg.merklePath ∧ IsB0_64K msg.coinbasePrefix ∧ IsB0_64K msg.coinbaseSuffix

def serializeNewExtendedMiningJob (msg : Sv2NewExtendedMiningJob) : Option Bytes := toBuffer do
  writeU32 msg.channelId
  writeU32 msg.jobId
  writeOptionU32 msg.minNtime
  writeU32 msg.version
  writeBool msg.versionRollingAllowed
  writeSeq0_255 msg.merklePath writeU256
  writeB0_64K msg.coinbasePrefix
  writeB0_64K msg.coinbaseSuffix

def deserializeNewExtendedMiningJob : BufferReader Sv2NewExtendedMiningJob := do
  return {
    channelId := ← readU32
    jobId := ← readU32
    minNtime := ← readOptionU32
    version := ← readU32
    versionRollingAllowed := ← readBool
    merklePath := ← readSeq0_255 readU256
    coinbasePrefix := ← readB0_64K
    coinbaseSuffix := ← readB0_64K }

structure Sv2SubmitSharesExtended where
  channelId : ℕ
  sequenceNumber : ℕ
  jobId : ℕ
  nonce : ℕ
  ntime : ℕ
  version : ℕ
  extranonce : Bytes

def Sv2SubmitSharesExtended.InRange (msg : Sv2SubmitSharesExtended) : Prop :=
  IsU32 msg.channelId ∧ IsU32 msg.sequenceNumber ∧ IsU32 msg.jobId ∧ IsU32 msg.nonce ∧
  IsU32 msg.ntime ∧ IsU32 msg.version ∧ IsB0_32 msg.extranonce

def serializeSubmitSharesExtended (msg : Sv2SubmitSharesExtended) : Option Bytes := toBuffer do
  writeU32 msg.channelId
  writeU32 msg.sequenceNumber
  writeU32 msg.jobId
  writeU32 msg.nonce
  writeU32 msg.ntime
  writeU32 msg.version
  writeB0_32 msg.extranonce

def deserializeSubmitSharesExtended : BufferReader Sv2SubmitSharesExtended := do
  return {
    channelId := ← readU32
    sequenceNumber := ← readU32
    jobId := ← readU32
    nonce := ← readU32
    ntime := ← readU32
    version := ← readU32
    extranonce := ← readB0_32 }

structure Sv2SetExtranoncePrefix where
  channelId : ℕ
  extranoncePrefix : Bytes

def Sv2SetExtranoncePrefix.InRange (msg : Sv2SetExtranoncePrefix) : Prop :=
  IsU32 msg.channelId ∧ IsB0_32 msg.extranoncePrefix

def serializeSetExtranoncePrefix (msg : Sv2SetExtranoncePrefix) : Option Bytes := toBuffer do
  writeU32 msg.channelId
  writeB0_32 msg.extranoncePrefix

def deserializeSetExtranoncePrefix : BufferReader Sv2SetExtranoncePrefix := do
  return {
    channelId := ← readU32
    extranoncePrefix := ← readB0_32 }

structure Sv2SetGroupChannel where
  groupChannelId : ℕ
  channelIds : List ℕ

def Sv2SetGroupChannel.InRange (msg : Sv2SetGroupChannel) : Prop :=
  IsU32 msg.groupChannelId ∧ IsSeq0_64K IsU32 msg.channelIds

def serializeSetGroupChannel (msg : Sv2SetGroupChannel) : Option Bytes := toBuffer do
  writeU32 msg.groupChannelId
  writeSeq0_64K msg.channelIds writeU32

def deserializeSetGroupChannel : BufferReader Sv2SetGroupChannel := do
  return {
    groupChannelId := ← readU32
    channelIds := ← readSeq0_64K readU32 }

/-- The messages that go both ways, with their ranges. -/
def extendedMiningMessages : List MessageCodec :=
  [⟨_, Sv2OpenExtendedMiningChannel.InRange, serializeOpenExtendedMiningChannel,
      deserializeOpenExtendedMiningChannel⟩,
    ⟨_, Sv2OpenExtendedMiningChannelSuccess.InRange, serializeOpenExtendedMiningChannelSuccess,
      deserializeOpenExtendedMiningChannelSuccess⟩,
    ⟨_, Sv2NewExtendedMiningJob.InRange, serializeNewExtendedMiningJob,
      deserializeNewExtendedMiningJob⟩,
    ⟨_, Sv2SubmitSharesExtended.InRange, serializeSubmitSharesExtended,
      deserializeSubmitSharesExtended⟩,
    ⟨_, Sv2SetExtranoncePrefix.InRange, serializeSetExtranoncePrefix,
      deserializeSetExtranoncePrefix⟩,
    ⟨_, Sv2SetGroupChannel.InRange, serializeSetGroupChannel, deserializeSetGroupChannel⟩]

end PublicPool.Sv2.Wire
