import PublicPool.Sv2.BinaryCodec

/-!
# `PublicPool.Sv2.Wire.Mining`: messages of the mining protocol

`models/sv2/sv2-messages.ts`, with the fields as they are on the wire and their ranges. The
messages about extensions are only read or only written.
-/

set_option autoImplicit false

namespace PublicPool.Sv2.Wire

open BufferWriter BufferReader

structure Sv2SetupConnection where
  protocol : ℕ
  minVersion : ℕ
  maxVersion : ℕ
  flags : ℕ
  endpointHost : String
  endpointPort : ℕ
  vendor : String
  hardwareVersion : String
  firmwareVersion : String
  deviceId : String

def Sv2SetupConnection.InRange (msg : Sv2SetupConnection) : Prop :=
  IsU8 msg.protocol ∧ IsU16 msg.minVersion ∧ IsU16 msg.maxVersion ∧ IsU32 msg.flags ∧
  IsStr0_255 msg.endpointHost ∧ IsU16 msg.endpointPort ∧ IsStr0_255 msg.vendor ∧
  IsStr0_255 msg.hardwareVersion ∧ IsStr0_255 msg.firmwareVersion ∧ IsStr0_255 msg.deviceId

def serializeSetupConnection (msg : Sv2SetupConnection) : Option Bytes := toBuffer do
  writeU8 msg.protocol
  writeU16 msg.minVersion
  writeU16 msg.maxVersion
  writeU32 msg.flags
  writeStr0_255 msg.endpointHost
  writeU16 msg.endpointPort
  writeStr0_255 msg.vendor
  writeStr0_255 msg.hardwareVersion
  writeStr0_255 msg.firmwareVersion
  writeStr0_255 msg.deviceId

def deserializeSetupConnection : BufferReader Sv2SetupConnection := do
  return {
    protocol := ← readU8
    minVersion := ← readU16
    maxVersion := ← readU16
    flags := ← readU32
    endpointHost := ← readStr0_255
    endpointPort := ← readU16
    vendor := ← readStr0_255
    hardwareVersion := ← readStr0_255
    firmwareVersion := ← readStr0_255
    deviceId := ← readStr0_255 }

structure Sv2SetupConnectionSuccess where
  usedVersion : ℕ
  flags : ℕ

def Sv2SetupConnectionSuccess.InRange (msg : Sv2SetupConnectionSuccess) : Prop :=
  IsU16 msg.usedVersion ∧ IsU32 msg.flags

def serializeSetupConnectionSuccess (msg : Sv2SetupConnectionSuccess) : Option Bytes := toBuffer do
  writeU16 msg.usedVersion
  writeU32 msg.flags

def deserializeSetupConnectionSuccess : BufferReader Sv2SetupConnectionSuccess := do
  return {
    usedVersion := ← readU16
    flags := ← readU32 }

structure Sv2SetupConnectionError where
  flags : ℕ
  errorCode : String

def Sv2SetupConnectionError.InRange (msg : Sv2SetupConnectionError) : Prop :=
  IsU32 msg.flags ∧ IsStr0_255 msg.errorCode

def serializeSetupConnectionError (msg : Sv2SetupConnectionError) : Option Bytes := toBuffer do
  writeU32 msg.flags
  writeStr0_255 msg.errorCode

def deserializeSetupConnectionError : BufferReader Sv2SetupConnectionError := do
  return {
    flags := ← readU32
    errorCode := ← readStr0_255 }

structure Sv2ChannelEndpointChanged where
  channelId : ℕ

def Sv2ChannelEndpointChanged.InRange (msg : Sv2ChannelEndpointChanged) : Prop :=
  IsU32 msg.channelId

def serializeChannelEndpointChanged (msg : Sv2ChannelEndpointChanged) : Option Bytes := toBuffer do
  writeU32 msg.channelId

def deserializeChannelEndpointChanged : BufferReader Sv2ChannelEndpointChanged := do
  return {
    channelId := ← readU32 }

structure Sv2OpenStandardMiningChannel where
  requestId : ℕ
  userIdentity : String
  nominalHashRate : F32
  maxTarget : Bytes

def Sv2OpenStandardMiningChannel.InRange (msg : Sv2OpenStandardMiningChannel) : Prop :=
  IsU32 msg.requestId ∧ IsStr0_255 msg.userIdentity ∧ IsU256 msg.maxTarget

def serializeOpenStandardMiningChannel (msg : Sv2OpenStandardMiningChannel) :
    Option Bytes := toBuffer do
  writeU32 msg.requestId
  writeStr0_255 msg.userIdentity
  writeF32 msg.nominalHashRate
  writeU256 msg.maxTarget

def deserializeOpenStandardMiningChannel : BufferReader Sv2OpenStandardMiningChannel := do
  return {
    requestId := ← readU32
    userIdentity := ← readStr0_255
    nominalHashRate := ← readF32
    maxTarget := ← readU256 }

structure Sv2OpenStandardMiningChannelSuccess where
  requestId : ℕ
  channelId : ℕ
  target : Bytes
  extranoncePrefix : Bytes
  groupChannelId : ℕ

def Sv2OpenStandardMiningChannelSuccess.InRange
    (msg : Sv2OpenStandardMiningChannelSuccess) : Prop :=
  IsU32 msg.requestId ∧ IsU32 msg.channelId ∧ IsU256 msg.target ∧ IsB0_32 msg.extranoncePrefix ∧
  IsU32 msg.groupChannelId

def serializeOpenStandardMiningChannelSuccess (msg : Sv2OpenStandardMiningChannelSuccess) :
    Option Bytes := toBuffer do
  writeU32 msg.requestId
  writeU32 msg.channelId
  writeU256 msg.target
  writeB0_32 msg.extranoncePrefix
  writeU32 msg.groupChannelId

def deserializeOpenStandardMiningChannelSuccess :
    BufferReader Sv2OpenStandardMiningChannelSuccess := do
  return {
    requestId := ← readU32
    channelId := ← readU32
    target := ← readU256
    extranoncePrefix := ← readB0_32
    groupChannelId := ← readU32 }

structure Sv2OpenMiningChannelError where
  requestId : ℕ
  errorCode : String

def Sv2OpenMiningChannelError.InRange (msg : Sv2OpenMiningChannelError) : Prop :=
  IsU32 msg.requestId ∧ IsStr0_255 msg.errorCode

def serializeOpenMiningChannelError (msg : Sv2OpenMiningChannelError) : Option Bytes := toBuffer do
  writeU32 msg.requestId
  writeStr0_255 msg.errorCode

def deserializeOpenMiningChannelError : BufferReader Sv2OpenMiningChannelError := do
  return {
    requestId := ← readU32
    errorCode := ← readStr0_255 }

structure Sv2NewMiningJob where
  channelId : ℕ
  jobId : ℕ
  minNtime : Option ℕ
  version : ℕ
  merkleRoot : Bytes

def Sv2NewMiningJob.InRange (msg : Sv2NewMiningJob) : Prop :=
  IsU32 msg.channelId ∧ IsU32 msg.jobId ∧ IsOptionU32 msg.minNtime ∧ IsU32 msg.version ∧
  IsU256 msg.merkleRoot

def serializeNewMiningJob (msg : Sv2NewMiningJob) : Option Bytes := toBuffer do
  writeU32 msg.channelId
  writeU32 msg.jobId
  writeOptionU32 msg.minNtime
  writeU32 msg.version
  writeU256 msg.merkleRoot

def deserializeNewMiningJob : BufferReader Sv2NewMiningJob := do
  return {
    channelId := ← readU32
    jobId := ← readU32
    minNtime := ← readOptionU32
    version := ← readU32
    merkleRoot := ← readU256 }

structure Sv2SetNewPrevHash where
  channelId : ℕ
  jobId : ℕ
  prevHash : Bytes
  minNtime : ℕ
  nBits : ℕ

def Sv2SetNewPrevHash.InRange (msg : Sv2SetNewPrevHash) : Prop :=
  IsU32 msg.channelId ∧ IsU32 msg.jobId ∧ IsU256 msg.prevHash ∧ IsU32 msg.minNtime ∧
  IsU32 msg.nBits

def serializeSetNewPrevHash (msg : Sv2SetNewPrevHash) : Option Bytes := toBuffer do
  writeU32 msg.channelId
  writeU32 msg.jobId
  writeU256 msg.prevHash
  writeU32 msg.minNtime
  writeU32 msg.nBits

def deserializeSetNewPrevHash : BufferReader Sv2SetNewPrevHash := do
  return {
    channelId := ← readU32
    jobId := ← readU32
    prevHash := ← readU256
    minNtime := ← readU32
    nBits := ← readU32 }

structure Sv2SetTarget where
  channelId : ℕ
  maxTarget : Bytes

def Sv2SetTarget.InRange (msg : Sv2SetTarget) : Prop :=
  IsU32 msg.channelId ∧ IsU256 msg.maxTarget

def serializeSetTarget (msg : Sv2SetTarget) : Option Bytes := toBuffer do
  writeU32 msg.channelId
  writeU256 msg.maxTarget

def deserializeSetTarget : BufferReader Sv2SetTarget := do
  return {
    channelId := ← readU32
    maxTarget := ← readU256 }

structure Sv2SubmitSharesStandard where
  channelId : ℕ
  sequenceNumber : ℕ
  jobId : ℕ
  nonce : ℕ
  ntime : ℕ
  version : ℕ

def Sv2SubmitSharesStandard.InRange (msg : Sv2SubmitSharesStandard) : Prop :=
  IsU32 msg.channelId ∧ IsU32 msg.sequenceNumber ∧ IsU32 msg.jobId ∧ IsU32 msg.nonce ∧
  IsU32 msg.ntime ∧ IsU32 msg.version

def serializeSubmitSharesStandard (msg : Sv2SubmitSharesStandard) : Option Bytes := toBuffer do
  writeU32 msg.channelId
  writeU32 msg.sequenceNumber
  writeU32 msg.jobId
  writeU32 msg.nonce
  writeU32 msg.ntime
  writeU32 msg.version

def deserializeSubmitSharesStandard : BufferReader Sv2SubmitSharesStandard := do
  return {
    channelId := ← readU32
    sequenceNumber := ← readU32
    jobId := ← readU32
    nonce := ← readU32
    ntime := ← readU32
    version := ← readU32 }

structure Sv2SubmitSharesSuccess where
  channelId : ℕ
  lastSequenceNumber : ℕ
  newSubmitsAcceptedCount : ℕ
  newSharesSum : ℕ

def Sv2SubmitSharesSuccess.InRange (msg : Sv2SubmitSharesSuccess) : Prop :=
  IsU32 msg.channelId ∧ IsU32 msg.lastSequenceNumber ∧ IsU32 msg.newSubmitsAcceptedCount ∧
  IsU64 msg.newSharesSum

def serializeSubmitSharesSuccess (msg : Sv2SubmitSharesSuccess) : Option Bytes := toBuffer do
  writeU32 msg.channelId
  writeU32 msg.lastSequenceNumber
  writeU32 msg.newSubmitsAcceptedCount
  writeU64 msg.newSharesSum

def deserializeSubmitSharesSuccess : BufferReader Sv2SubmitSharesSuccess := do
  return {
    channelId := ← readU32
    lastSequenceNumber := ← readU32
    newSubmitsAcceptedCount := ← readU32
    newSharesSum := ← readU64 }

structure Sv2SubmitSharesError where
  channelId : ℕ
  sequenceNumber : ℕ
  errorCode : String

def Sv2SubmitSharesError.InRange (msg : Sv2SubmitSharesError) : Prop :=
  IsU32 msg.channelId ∧ IsU32 msg.sequenceNumber ∧ IsStr0_255 msg.errorCode

def serializeSubmitSharesError (msg : Sv2SubmitSharesError) : Option Bytes := toBuffer do
  writeU32 msg.channelId
  writeU32 msg.sequenceNumber
  writeStr0_255 msg.errorCode

def deserializeSubmitSharesError : BufferReader Sv2SubmitSharesError := do
  return {
    channelId := ← readU32
    sequenceNumber := ← readU32
    errorCode := ← readStr0_255 }

structure Sv2CloseChannel where
  channelId : ℕ
  reasonCode : String

def Sv2CloseChannel.InRange (msg : Sv2CloseChannel) : Prop :=
  IsU32 msg.channelId ∧ IsStr0_255 msg.reasonCode

def serializeCloseChannel (msg : Sv2CloseChannel) : Option Bytes := toBuffer do
  writeU32 msg.channelId
  writeStr0_255 msg.reasonCode

def deserializeCloseChannel : BufferReader Sv2CloseChannel := do
  return {
    channelId := ← readU32
    reasonCode := ← readStr0_255 }

structure Sv2UpdateChannel where
  channelId : ℕ
  nominalHashRate : F32
  maximumTarget : Bytes

def Sv2UpdateChannel.InRange (msg : Sv2UpdateChannel) : Prop :=
  IsU32 msg.channelId ∧ IsU256 msg.maximumTarget

def serializeUpdateChannel (msg : Sv2UpdateChannel) : Option Bytes := toBuffer do
  writeU32 msg.channelId
  writeF32 msg.nominalHashRate
  writeU256 msg.maximumTarget

def deserializeUpdateChannel : BufferReader Sv2UpdateChannel := do
  return {
    channelId := ← readU32
    nominalHashRate := ← readF32
    maximumTarget := ← readU256 }

structure Sv2UpdateChannelError where
  channelId : ℕ
  errorCode : String

def Sv2UpdateChannelError.InRange (msg : Sv2UpdateChannelError) : Prop :=
  IsU32 msg.channelId ∧ IsStr0_255 msg.errorCode

def serializeUpdateChannelError (msg : Sv2UpdateChannelError) : Option Bytes := toBuffer do
  writeU32 msg.channelId
  writeStr0_255 msg.errorCode

def deserializeUpdateChannelError : BufferReader Sv2UpdateChannelError := do
  return {
    channelId := ← readU32
    errorCode := ← readStr0_255 }

structure Sv2Reconnect where
  newHost : String
  newPort : ℕ

def Sv2Reconnect.InRange (msg : Sv2Reconnect) : Prop :=
  IsStr0_255 msg.newHost ∧ IsU16 msg.newPort

def serializeReconnect (msg : Sv2Reconnect) : Option Bytes := toBuffer do
  writeStr0_255 msg.newHost
  writeU16 msg.newPort

def deserializeReconnect : BufferReader Sv2Reconnect := do
  return {
    newHost := ← readStr0_255
    newPort := ← readU16 }

/-- The messages that go both ways, with their ranges. -/
def miningMessages : List MessageCodec :=
  [⟨_, Sv2SetupConnection.InRange, serializeSetupConnection, deserializeSetupConnection⟩,
    ⟨_, Sv2SetupConnectionSuccess.InRange, serializeSetupConnectionSuccess,
      deserializeSetupConnectionSuccess⟩,
    ⟨_, Sv2SetupConnectionError.InRange, serializeSetupConnectionError,
      deserializeSetupConnectionError⟩,
    ⟨_, Sv2ChannelEndpointChanged.InRange, serializeChannelEndpointChanged,
      deserializeChannelEndpointChanged⟩,
    ⟨_, Sv2OpenStandardMiningChannel.InRange, serializeOpenStandardMiningChannel,
      deserializeOpenStandardMiningChannel⟩,
    ⟨_, Sv2OpenStandardMiningChannelSuccess.InRange, serializeOpenStandardMiningChannelSuccess,
      deserializeOpenStandardMiningChannelSuccess⟩,
    ⟨_, Sv2OpenMiningChannelError.InRange, serializeOpenMiningChannelError,
      deserializeOpenMiningChannelError⟩,
    ⟨_, Sv2NewMiningJob.InRange, serializeNewMiningJob, deserializeNewMiningJob⟩,
    ⟨_, Sv2SetNewPrevHash.InRange, serializeSetNewPrevHash, deserializeSetNewPrevHash⟩,
    ⟨_, Sv2SetTarget.InRange, serializeSetTarget, deserializeSetTarget⟩,
    ⟨_, Sv2SubmitSharesStandard.InRange, serializeSubmitSharesStandard,
      deserializeSubmitSharesStandard⟩,
    ⟨_, Sv2SubmitSharesSuccess.InRange, serializeSubmitSharesSuccess,
      deserializeSubmitSharesSuccess⟩,
    ⟨_, Sv2SubmitSharesError.InRange, serializeSubmitSharesError, deserializeSubmitSharesError⟩,
    ⟨_, Sv2CloseChannel.InRange, serializeCloseChannel, deserializeCloseChannel⟩,
    ⟨_, Sv2UpdateChannel.InRange, serializeUpdateChannel, deserializeUpdateChannel⟩,
    ⟨_, Sv2UpdateChannelError.InRange, serializeUpdateChannelError, deserializeUpdateChannelError⟩,
    ⟨_, Sv2Reconnect.InRange, serializeReconnect, deserializeReconnect⟩]

end PublicPool.Sv2.Wire
