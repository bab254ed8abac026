import PublicPool.Js

/-!
# `PublicPool.Sv2.Messages`: what Stratum V2 miners and job declarators send

The decoded messages of `models/sv2/sv2-messages.ts`, `sv2-extended-messages.ts` and
`sv2-jdp-messages.ts` that the pool acts on, with the fields it reads. Numbers are as wide as
they are on the wire. A float is a rational, with `none` for what is not finite.
-/

set_option autoImplicit false

namespace PublicPool.Sv2

/-! ### Mining protocol -/

structure Sv2SetupConnection where
  protocol : UInt8
  minVersion : UInt16
  maxVersion : UInt16
  flags : UInt32

structure Sv2OpenStandardMiningChannel where
  requestId : UInt32
  userIdentity : String
  nominalHashRate : Option ℚ
  maxTarget : Bytes

structure Sv2OpenExtendedMiningChannel where
  requestId : UInt32
  userIdentity : String
  nominalHashRate : Option ℚ
  maxTarget : Bytes
  minExtranonceSize : UInt16

structure Sv2SubmitSharesStandard where
  channelId : UInt32
  sequenceNumber : UInt32
  jobId : UInt32
  nonce : UInt32
  ntime : UInt32
  version : UInt32

structure Sv2SubmitSharesExtended where
  channelId : UInt32
  sequenceNumber : UInt32
  jobId : UInt32
  nonce : UInt32
  ntime : UInt32
  version : UInt32
  extranonce : Bytes

structure Sv2UpdateChannel where
  channelId : UInt32
  nominalHashRate : Option ℚ
  maximumTarget : Bytes

structure Sv2SetCustomMiningJob where
  channelId : UInt32
  requestId : UInt32
  token : Bytes
  version : UInt32
  prevHash : Bytes
  minNtime : UInt32
  nBits : UInt32
  coinbaseTxVersion : UInt32
  coinbasePrefix : Bytes
  coinbaseTxInputNSequence : UInt32
  coinbaseTxOutputs : Bytes
  coinbaseTxLocktime : UInt32
  merklePath : List Bytes

/-- A frame of a mining connection. -/
inductive Sv2Message
  | setupConnection (message : Sv2SetupConnection)
  | openStandardMiningChannel (message : Sv2OpenStandardMiningChannel)
  | openExtendedMiningChannel (message : Sv2OpenExtendedMiningChannel)
  | submitSharesStandard (submission : Sv2SubmitSharesStandard)
  | submitSharesExtended (submission : Sv2SubmitSharesExtended)
  | setCustomMiningJob (message : Sv2SetCustomMiningJob)
  | updateChannel (message : Sv2UpdateChannel)
  | closeChannel (channelId : UInt32)
  /-- A frame whose payload does not decode. -/
  | malformed
  /-- A frame of a type the pool does not know. -/
  | unsupported

/-! ### Job declaration protocol -/

structure Sv2AllocateMiningJobToken where
  userIdentifier : String
  requestId : UInt32

structure Sv2DeclareMiningJob where
  requestId : UInt32
  miningJobToken : Bytes
  version : UInt32
  coinbaseTxPrefix : Bytes
  coinbaseTxSuffix : Bytes
  wtxidList : List Bytes
  deriving DecidableEq

structure Sv2PushSolution where
  extranonce : Bytes
  prevHash : Bytes
  nonce : UInt32
  ntime : UInt32
  nBits : UInt32
  version : UInt32
  deriving DecidableEq

structure Sv2ProvideMissingTransactionsSuccess where
  requestId : UInt32
  transactionList : List Bytes

/-! ### Template distribution protocol -/

structure Sv2TdpSubmitSolution where
  templateId : UInt64
  version : UInt32
  headerTimestamp : UInt32
  headerNonce : UInt32
  coinbaseTx : Bytes

end PublicPool.Sv2
