import PublicPool.Sv2.Wire.ExtendedMining
import PublicPool.Sv2.Wire.JobDeclaration
import PublicPool.Sv2.Wire.Mining
import PublicPool.Sv2.Wire.TemplateDistribution

/-!
# `PublicPool.Proofs.Sv2.MessageRoundTrip`: messages survive the wire

`messages_roundTrip`: for every message type of the four sub-protocols that is both written
and read, a message whose fields are in their ranges is serialized, and deserializing the
bytes gives the message back and takes exactly these bytes, whatever follows them.

Each wire type has one lemma that its writer and its reader match, under the range of the
type. A message is its fields in a row, so its round trip is `RoundTrips.bind` for each field
and `RoundTrips.last` for the last one: the proof of a message lists the wire types of its
fields a third time, and goes through only when the serializer, the deserializer and the
ranges agree on them.
-/

set_option autoImplicit false

namespace PublicPool.Sv2

open Lib Lib.Wire

/-- Every message of the type survives the wire. -/
def MessageCodec.Survives (codec : MessageCodec) : Prop :=
  ∀ msg, codec.InRange msg → ∃ bytes, codec.serialize msg = some bytes ∧
    ∀ rest, codec.deserialize.run (bytes ++ rest) = some (msg, rest)

/-- It is enough that what the serializer writes makes the round trip. -/
theorem MessageCodec.survives {Message : Type} {InRange : Message → Prop}
    {serialize : Message → Option Bytes} {deserialize : BufferReader Message}
    (h : ∀ msg, InRange msg → ∃ write, serialize msg = BufferWriter.toBuffer write ∧
      RoundTrips write deserialize msg) :
    MessageCodec.Survives ⟨Message, InRange, serialize, deserialize⟩ := by
  intro msg hrange
  obtain ⟨write, hserialize, htrip⟩ := h msg hrange
  obtain ⟨bytes, hbytes, hread⟩ := htrip.output_eq
  exact ⟨bytes, hserialize.trans hbytes, hread⟩

/-! ### Wire types -/

namespace WireField

open BufferWriter BufferReader

theorem ofLE {k v : ℕ} (h : v < 256 ^ k) : RoundTrips (append (putLE k v)) (readLE k) v := by
  have hbytes := RoundTrips.append_take (putLE k v)
  rw [length_putLE] at hbytes
  have hvalue := hbytes.last leValue
  rwa [leValue_putLE, Nat.mod_eq_of_lt h] at hvalue

theorem bool (v : Bool) : RoundTrips (writeBool v) readBool v := by
  cases v with
  | false => exact (ofLE (k := 1) (v := 0) (by norm_num)).last fun n => decide (n ≠ 0)
  | true => exact (ofLE (k := 1) (v := 1) (by norm_num)).last fun n => decide (n ≠ 0)

theorem u8 {v : ℕ} (h : IsU8 v) : RoundTrips (writeU8 v) readU8 v := ofLE h

theorem u16 {v : ℕ} (h : IsU16 v) : RoundTrips (writeU16 v) readU16 v := by
  have hle : v ≤ 0xffff := Nat.le_of_lt_succ h
  rw [writeU16, if_pos hle]
  exact ofLE h

theorem u24 {v : ℕ} (h : v < 2 ^ 24) : RoundTrips (writeU24 v) readU24 v := ofLE h

theorem u32 {v : ℕ} (h : IsU32 v) : RoundTrips (writeU32 v) readU32 v := ofLE h

theorem u64 {v : ℕ} (h : IsU64 v) : RoundTrips (writeU64 v) readU64 v := by
  have hle : v ≤ 0xffffffffffffffff := Nat.le_of_lt_succ h
  rw [writeU64, if_pos hle]
  exact ofLE h

theorem optionU32 {v : Option ℕ} (h : IsOptionU32 v) :
    RoundTrips (writeOptionU32 v) readOptionU32 v := by
  cases v with
  | none =>
    have hflag : IsU8 0 := Nat.two_pow_pos 8
    exact (u8 hflag).readOn fun _ => rfl
  | some n =>
    have hflag : IsU8 1 := Nat.one_lt_two_pow (by norm_num)
    exact (u8 hflag).bind ((u32 (h n rfl)).last some)

section
variable {v : Bytes}

theorem bytes {n : ℕ} (h : v.length = n) : RoundTrips (writeBytes v) (readBytes n) v := by
  subst h
  exact .append_take v

theorem u256 (h : IsU256 v) : RoundTrips (writeU256 v) readU256 v := by
  have hlength : ¬ v.length ≠ 32 := not_not.mpr h
  rw [writeU256, if_neg hlength]
  exact bytes h

theorem f32 (v : F32) : RoundTrips (writeF32 v) readF32 v := by
  refine ⟨v.bytes, fun written => rfl, fun rest => ?_⟩
  have hle : 4 ≤ (v.bytes ++ rest).length := by
    rw [List.length_append, v.length_eq]
    omega
  show (if h : 4 ≤ (v.bytes ++ rest).length then _ else _) = _
  rw [dif_pos hle]
  simp [List.take_left' v.length_eq, List.drop_left' v.length_eq]

/-- Bytes after their length, when the length is in range of its own type. -/
theorem prefixed {limit : ℕ} {writeLength : ℕ → BufferWriter Unit} {readLength : BufferReader ℕ}
    (hle : v.length ≤ limit) (hlength : RoundTrips (writeLength v.length) readLength v.length) :
    RoundTrips (writePrefixed limit writeLength v) (readPrefixed readLength) v := by
  rw [writePrefixed, if_neg (Nat.not_lt.mpr hle)]
  exact hlength.bind (bytes rfl)

theorem str0_255 {v : String} (h : IsStr0_255 v) : RoundTrips (writeStr0_255 v) readStr0_255 v := by
  have htext := (prefixed h (u8 (Nat.lt_succ_of_le h))).last utf8String
  have hback : utf8String (utf8Bytes v) = v := by
    rw [utf8String, utf8Bytes, Utf8.decode_encode, String.ofList_toList]
  rwa [hback] at htext

theorem b0_32 (h : IsB0_32 v) : RoundTrips (writeB0_32 v) readB0_32 v := by
  have hlength : IsU8 v.length := Nat.lt_of_le_of_lt h (by norm_num)
  rw [writeB0_32, writePrefixed, if_neg (Nat.not_lt.mpr h)]
  refine (u8 hlength).bind ?_
  rw [if_neg (Nat.not_lt.mpr h)]
  exact bytes rfl

theorem b0_255 (h : IsB0_255 v) : RoundTrips (writeB0_255 v) readB0_255 v :=
  prefixed h (u8 (Nat.lt_succ_of_le h))

theorem b0_64K (h : IsB0_64K v) : RoundTrips (writeB0_64K v) readB0_64K v :=
  prefixed h (u16 (Nat.lt_succ_of_le h))

theorem b0_16M (h : IsB0_16M v) : RoundTrips (writeB0_16M v) readB0_16M v :=
  prefixed h (u24 (Nat.lt_succ_of_le h))

end

section Seq

variable {α : Type} {item : α → Prop} {writeFn : α → BufferWriter Unit} {readFn : BufferReader α}
  {items : List α}

theorem seq {limit : ℕ} {writeCount : ℕ → BufferWriter Unit} {readCount : BufferReader ℕ}
    (hle : items.length ≤ limit)
    (hcount : RoundTrips (writeCount items.length) readCount items.length)
    (hitems : ∀ x ∈ items, RoundTrips (writeFn x) readFn x) :
    RoundTrips (writeSeq limit writeCount items writeFn) (readSeq readCount readFn) items := by
  rw [writeSeq, if_neg (Nat.not_lt.mpr hle)]
  exact hcount.bind (.forM_times hitems)

theorem seq0_255 (hitem : ∀ x, item x → RoundTrips (writeFn x) readFn x)
    (h : IsSeq0_255 item items) :
    RoundTrips (writeSeq0_255 items writeFn) (readSeq0_255 readFn) items :=
  seq h.1 (u8 (Nat.lt_succ_of_le h.1)) fun x hx => hitem x (h.2 x hx)

theorem seq0_64K (hitem : ∀ x, item x → RoundTrips (writeFn x) readFn x)
    (h : IsSeq0_64K item items) :
    RoundTrips (writeSeq0_64K items writeFn) (readSeq0_64K readFn) items :=
  seq h.1 (u16 (Nat.lt_succ_of_le h.1)) fun x hx => hitem x (h.2 x hx)

end Seq

end WireField

open Wire WireField

/-! ### Mining -/

theorem setupConnection_survives :
    MessageCodec.Survives ⟨_, Sv2SetupConnection.InRange, serializeSetupConnection,
      deserializeSetupConnection⟩ := by
  refine MessageCodec.survives fun msg ⟨hprotocol, hminVersion, hmaxVersion, hflags, hendpointHost,
    hendpointPort, hvendor, hhardwareVersion, hfirmwareVersion, hdeviceId⟩ => ⟨_, rfl, ?_⟩
  exact .bind (u8 hprotocol) <| .bind (u16 hminVersion) <| .bind (u16 hmaxVersion) <|
    .bind (u32 hflags) <| .bind (str0_255 hendpointHost) <| .bind (u16 hendpointPort) <|
    .bind (str0_255 hvendor) <| .bind (str0_255 hhardwareVersion) <|
    .bind (str0_255 hfirmwareVersion) <| .last (str0_255 hdeviceId) _

theorem setupConnectionSuccess_survives :
    MessageCodec.Survives ⟨_, Sv2SetupConnectionSuccess.InRange, serializeSetupConnectionSuccess,
      deserializeSetupConnectionSuccess⟩ := by
  refine MessageCodec.survives fun msg ⟨husedVersion, hflags⟩ => ⟨_, rfl, ?_⟩
  exact .bind (u16 husedVersion) <| .last (u32 hflags) _

theorem setupConnectionError_survives :
    MessageCodec.Survives ⟨_, Sv2SetupConnectionError.InRange, serializeSetupConnectionError,
      deserializeSetupConnectionError⟩ := by
  refine MessageCodec.survives fun msg ⟨hflags, herrorCode⟩ => ⟨_, rfl, ?_⟩
  exact .bind (u32 hflags) <| .last (str0_255 herrorCode) _

theorem channelEndpointChanged_survives :
    MessageCodec.Survives ⟨_, Sv2ChannelEndpointChanged.InRange, serializeChannelEndpointChanged,
      deserializeChannelEndpointChanged⟩ := by
  refine MessageCodec.survives fun msg hchannelId => ⟨_, rfl, ?_⟩
  exact .last (u32 hchannelId) _

theorem openStandardMiningChannel_survives :
    MessageCodec.Survives ⟨_, Sv2OpenStandardMiningChannel.InRange,
      serializeOpenStandardMiningChannel, deserializeOpenStandardMiningChannel⟩ := by
  refine MessageCodec.survives fun msg ⟨hrequestId, huserIdentity, hmaxTarget⟩ => ⟨_, rfl, ?_⟩
  exact .bind (u32 hrequestId) <| .bind (str0_255 huserIdentity) <| .bind (f32 _) <|
    .last (u256 hmaxTarget) _

theorem openStandardMiningChannelSuccess_survives :
    MessageCodec.Survives ⟨_, Sv2OpenStandardMiningChannelSuccess.InRange,
      serializeOpenStandardMiningChannelSuccess, deserializeOpenStandardMiningChannelSuccess⟩ := by
  refine MessageCodec.survives fun msg ⟨hrequestId, hchannelId, htarget, hextranoncePrefix,
    hgroupChannelId⟩ => ⟨_, rfl, ?_⟩
  exact .bind (u32 hrequestId) <| .bind (u32 hchannelId) <| .bind (u256 htarget) <|
    .bind (b0_32 hextranoncePrefix) <| .last (u32 hgroupChannelId) _

theorem openMiningChannelError_survives :
    MessageCodec.Survives ⟨_, Sv2OpenMiningChannelError.InRange, serializeOpenMiningChannelError,
      deserializeOpenMiningChannelError⟩ := by
  refine MessageCodec.survives fun msg ⟨hrequestId, herrorCode⟩ => ⟨_, rfl, ?_⟩
  exact .bind (u32 hrequestId) <| .last (str0_255 herrorCode) _

theorem newMiningJob_survives :
    MessageCodec.Survives ⟨_, Sv2NewMiningJob.InRange, serializeNewMiningJob,
      deserializeNewMiningJob⟩ := by
  refine MessageCodec.survives fun msg ⟨hchannelId, hjobId, hminNtime, hversion, hmerkleRoot⟩
    => ⟨_, rfl, ?_⟩
  exact .bind (u32 hchannelId) <| .bind (u32 hjobId) <| .bind (optionU32 hminNtime) <|
    .bind (u32 hversion) <| .last (u256 hmerkleRoot) _

theorem setNewPrevHash_survives :
    MessageCodec.Survives ⟨_, Sv2SetNewPrevHash.InRange, serializeSetNewPrevHash,
      deserializeSetNewPrevHash⟩ := by
  refine MessageCodec.survives fun msg ⟨hchannelId, hjobId, hprevHash, hminNtime, hnBits⟩
    => ⟨_, rfl, ?_⟩
  exact .bind (u32 hchannelId) <| .bind (u32 hjobId) <| .bind (u256 hprevHash) <|
    .bind (u32 hminNtime) <| .last (u32 hnBits) _

theorem setTarget_survives :
    MessageCodec.Survives ⟨_, Sv2SetTarget.InRange, serializeSetTarget, deserializeSetTarget⟩ := by
  refine MessageCodec.survives fun msg ⟨hchannelId, hmaxTarget⟩ => ⟨_, rfl, ?_⟩
  exact .bind (u32 hchannelId) <| .last (u256 hmaxTarget) _

theorem submitSharesStandard_survives :
    MessageCodec.Survives ⟨_, Sv2SubmitSharesStandard.InRange, serializeSubmitSharesStandard,
      deserializeSubmitSharesStandard⟩ := by
  refine MessageCodec.survives fun msg ⟨hchannelId, hsequenceNumber, hjobId, hnonce, hntime,
    hversion⟩ => ⟨_, rfl, ?_⟩
  exact .bind (u32 hchannelId) <| .bind (u32 hsequenceNumber) <| .bind (u32 hjobId) <|
    .bind (u32 hnonce) <| .bind (u32 hntime) <| .last (u32 hversion) _

theorem submitSharesSuccess_survives :
    MessageCodec.Survives ⟨_, Sv2SubmitSharesSuccess.InRange, serializeSubmitSharesSuccess,
      deserializeSubmitSharesSuccess⟩ := by
  refine MessageCodec.survives fun msg ⟨hchannelId, hlastSequenceNumber, hnewSubmitsAcceptedCount,
    hnewSharesSum⟩ => ⟨_, rfl, ?_⟩
  exact .bind (u32 hchannelId) <| .bind (u32 hlastSequenceNumber) <|
    .bind (u32 hnewSubmitsAcceptedCount) <| .last (u64 hnewSharesSum) _

theorem submitSharesError_survives :
    MessageCodec.Survives ⟨_, Sv2SubmitSharesError.InRange, serializeSubmitSharesError,
      deserializeSubmitSharesError⟩ := by
  refine MessageCodec.survives fun msg ⟨hchannelId, hsequenceNumber, herrorCode⟩ => ⟨_, rfl, ?_⟩
  exact .bind (u32 hchannelId) <| .bind (u32 hsequenceNumber) <| .last (str0_255 herrorCode) _

theorem closeChannel_survives :
    MessageCodec.Survives ⟨_, Sv2CloseChannel.InRange, serializeCloseChannel,
      deserializeCloseChannel⟩ := by
  refine MessageCodec.survives fun msg ⟨hchannelId, hreasonCode⟩ => ⟨_, rfl, ?_⟩
  exact .bind (u32 hchannelId) <| .last (str0_255 hreasonCode) _

theorem updateChannel_survives :
    MessageCodec.Survives ⟨_, Sv2UpdateChannel.InRange, serializeUpdateChannel,
      deserializeUpdateChannel⟩ := by
  refine MessageCodec.survives fun msg ⟨hchannelId, hmaximumTarget⟩ => ⟨_, rfl, ?_⟩
  exact .bind (u32 hchannelId) <| .bind (f32 _) <| .last (u256 hmaximumTarget) _

theorem updateChannelError_survives :
    MessageCodec.Survives ⟨_, Sv2UpdateChannelError.InRange, serializeUpdateChannelError,
      deserializeUpdateChannelError⟩ := by
  refine MessageCodec.survives fun msg ⟨hchannelId, herrorCode⟩ => ⟨_, rfl, ?_⟩
  exact .bind (u32 hchannelId) <| .last (str0_255 herrorCode) _

theorem reconnect_survives :
    MessageCodec.Survives ⟨_, Sv2Reconnect.InRange, serializeReconnect, deserializeReconnect⟩ := by
  refine MessageCodec.survives fun msg ⟨hnewHost, hnewPort⟩ => ⟨_, rfl, ?_⟩
  exact .bind (str0_255 hnewHost) <| .last (u16 hnewPort) _

/-! ### Extended mining -/

theorem openExtendedMiningChannel_survives :
    MessageCodec.Survives ⟨_, Sv2OpenExtendedMiningChannel.InRange,
      serializeOpenExtendedMiningChannel, deserializeOpenExtendedMiningChannel⟩ := by
  refine MessageCodec.survives fun msg ⟨hrequestId, huserIdentity, hmaxTarget, hminExtranonceSize⟩
    => ⟨_, rfl, ?_⟩
  exact .bind (u32 hrequestId) <| .bind (str0_255 huserIdentity) <| .bind (f32 _) <|
    .bind (u256 hmaxTarget) <| .last (u16 hminExtranonceSize) _

theorem openExtendedMiningChannelSuccess_survives :
    MessageCodec.Survives ⟨_, Sv2OpenExtendedMiningChannelSuccess.InRange,
      serializeOpenExtendedMiningChannelSuccess, deserializeOpenExtendedMiningChannelSuccess⟩ := by
  refine MessageCodec.survives fun msg ⟨hrequestId, hchannelId, htarget, hextranonceSize,
    hextranoncePrefix, hgroupChannelId⟩ => ⟨_, rfl, ?_⟩
  exact .bind (u32 hrequestId) <| .bind (u32 hchannelId) <| .bind (u256 htarget) <|
    .bind (u16 hextranonceSize) <| .bind (b0_32 hextranoncePrefix) <| .last (u32 hgroupChannelId) _

theorem newExtendedMiningJob_survives :
    MessageCodec.Survives ⟨_, Sv2NewExtendedMiningJob.InRange, serializeNewExtendedMiningJob,
      deserializeNewExtendedMiningJob⟩ := by
  refine MessageCodec.survives fun msg ⟨hchannelId, hjobId, hminNtime, hversion, hmerklePath,
    hcoinbasePrefix, hcoinbaseSuffix⟩ => ⟨_, rfl, ?_⟩
  exact .bind (u32 hchannelId) <| .bind (u32 hjobId) <| .bind (optionU32 hminNtime) <|
    .bind (u32 hversion) <| .bind (bool _) <| .bind (seq0_255 (fun _ => u256) hmerklePath) <|
    .bind (b0_64K hcoinbasePrefix) <| .last (b0_64K hcoinbaseSuffix) _

theorem submitSharesExtended_survives :
    MessageCodec.Survives ⟨_, Sv2SubmitSharesExtended.InRange, serializeSubmitSharesExtended,
      deserializeSubmitSharesExtended⟩ := by
  refine MessageCodec.survives fun msg ⟨hchannelId, hsequenceNumber, hjobId, hnonce, hntime,
    hversion, hextranonce⟩ => ⟨_, rfl, ?_⟩
  exact .bind (u32 hchannelId) <| .bind (u32 hsequenceNumber) <| .bind (u32 hjobId) <|
    .bind (u32 hnonce) <| .bind (u32 hntime) <| .bind (u32 hversion) <| .last (b0_32 hextranonce) _

theorem setExtranoncePrefix_survives :
    MessageCodec.Survives ⟨_, Sv2SetExtranoncePrefix.InRange, serializeSetExtranoncePrefix,
      deserializeSetExtranoncePrefix⟩ := by
  refine MessageCodec.survives fun msg ⟨hchannelId, hextranoncePrefix⟩ => ⟨_, rfl, ?_⟩
  exact .bind (u32 hchannelId) <| .last (b0_32 hextranoncePrefix) _

theorem setGroupChannel_survives :
    MessageCodec.Survives ⟨_, Sv2SetGroupChannel.InRange, serializeSetGroupChannel,
      deserializeSetGroupChannel⟩ := by
  refine MessageCodec.survives fun msg ⟨hgroupChannelId, hchannelIds⟩ => ⟨_, rfl, ?_⟩
  exact .bind (u32 hgroupChannelId) <| .last (seq0_64K (fun _ => u32) hchannelIds) _

/-! ### Job declaration -/

theorem allocateMiningJobToken_survives :
    MessageCodec.Survives ⟨_, Sv2AllocateMiningJobToken.InRange, serializeAllocateMiningJobToken,
      deserializeAllocateMiningJobToken⟩ := by
  refine MessageCodec.survives fun msg ⟨huserIdentifier, hrequestId⟩ => ⟨_, rfl, ?_⟩
  exact .bind (str0_255 huserIdentifier) <| .last (u32 hrequestId) _

theorem allocateMiningJobTokenSuccess_survives :
    MessageCodec.Survives ⟨_, Sv2AllocateMiningJobTokenSuccess.InRange,
      serializeAllocateMiningJobTokenSuccess, deserializeAllocateMiningJobTokenSuccess⟩ := by
  refine MessageCodec.survives fun msg ⟨hrequestId, hminingJobToken, hcoinbaseOutputs⟩
    => ⟨_, rfl, ?_⟩
  exact .bind (u32 hrequestId) <| .bind (b0_255 hminingJobToken) <|
    .last (b0_64K hcoinbaseOutputs) _

theorem declareMiningJob_survives :
    MessageCodec.Survives ⟨_, Sv2DeclareMiningJob.InRange, serializeDeclareMiningJob,
      deserializeDeclareMiningJob⟩ := by
  refine MessageCodec.survives fun msg ⟨hrequestId, hminingJobToken, hversion, hcoinbaseTxPrefix,
    hcoinbaseTxSuffix, hwtxidList, hexcessData⟩ => ⟨_, rfl, ?_⟩
  exact .bind (u32 hrequestId) <| .bind (b0_255 hminingJobToken) <| .bind (u32 hversion) <|
    .bind (b0_64K hcoinbaseTxPrefix) <| .bind (b0_64K hcoinbaseTxSuffix) <|
    .bind (seq0_64K (fun _ => u256) hwtxidList) <| .last (b0_64K hexcessData) _

theorem declareMiningJobSuccess_survives :
    MessageCodec.Survives ⟨_, Sv2DeclareMiningJobSuccess.InRange, serializeDeclareMiningJobSuccess,
      deserializeDeclareMiningJobSuccess⟩ := by
  refine MessageCodec.survives fun msg ⟨hrequestId, hnewMiningJobToken⟩ => ⟨_, rfl, ?_⟩
  exact .bind (u32 hrequestId) <| .last (b0_255 hnewMiningJobToken) _

theorem declareMiningJobError_survives :
    MessageCodec.Survives ⟨_, Sv2DeclareMiningJobError.InRange, serializeDeclareMiningJobError,
      deserializeDeclareMiningJobError⟩ := by
  refine MessageCodec.survives fun msg ⟨hrequestId, herrorCode, herrorDetails⟩ => ⟨_, rfl, ?_⟩
  exact .bind (u32 hrequestId) <| .bind (str0_255 herrorCode) <| .last (b0_64K herrorDetails) _

theorem provideMissingTransactions_survives :
    MessageCodec.Survives ⟨_, Sv2ProvideMissingTransactions.InRange,
      serializeProvideMissingTransactions, deserializeProvideMissingTransactions⟩ := by
  refine MessageCodec.survives fun msg ⟨hrequestId, hunknownTxPositionList⟩ => ⟨_, rfl, ?_⟩
  exact .bind (u32 hrequestId) <| .last (seq0_64K (fun _ => u16) hunknownTxPositionList) _

theorem provideMissingTransactionsSuccess_survives :
    MessageCodec.Survives ⟨_, Sv2ProvideMissingTransactionsSuccess.InRange,
      serializeProvideMissingTransactionsSuccess,
      deserializeProvideMissingTransactionsSuccess⟩ := by
  refine MessageCodec.survives fun msg ⟨hrequestId, htransactionList⟩ => ⟨_, rfl, ?_⟩
  exact .bind (u32 hrequestId) <| .last (seq0_64K (fun _ => b0_16M) htransactionList) _

theorem pushSolution_survives :
    MessageCodec.Survives ⟨_, Sv2PushSolution.InRange, serializePushSolution,
      deserializePushSolution⟩ := by
  refine MessageCodec.survives fun msg ⟨hextranonce, hprevHash, hnonce, hntime, hnBits, hversion⟩
    => ⟨_, rfl, ?_⟩
  exact .bind (b0_32 hextranonce) <| .bind (u256 hprevHash) <| .bind (u32 hnonce) <|
    .bind (u32 hntime) <| .bind (u32 hnBits) <| .last (u32 hversion) _

theorem setCustomMiningJob_survives :
    MessageCodec.Survives ⟨_, Sv2SetCustomMiningJob.InRange, serializeSetCustomMiningJob,
      deserializeSetCustomMiningJob⟩ := by
  refine MessageCodec.survives fun msg ⟨hchannelId, hrequestId, htoken, hversion, hprevHash,
    hminNtime, hnBits, hcoinbaseTxVersion, hcoinbasePrefix, hcoinbaseTxInputNSequence,
    hcoinbaseTxOutputs, hcoinbaseTxLocktime, hmerklePath⟩ => ⟨_, rfl, ?_⟩
  exact .bind (u32 hchannelId) <| .bind (u32 hrequestId) <| .bind (b0_255 htoken) <|
    .bind (u32 hversion) <| .bind (u256 hprevHash) <| .bind (u32 hminNtime) <| .bind (u32 hnBits) <|
    .bind (u32 hcoinbaseTxVersion) <| .bind (b0_255 hcoinbasePrefix) <|
    .bind (u32 hcoinbaseTxInputNSequence) <| .bind (b0_64K hcoinbaseTxOutputs) <|
    .bind (u32 hcoinbaseTxLocktime) <| .last (seq0_255 (fun _ => u256) hmerklePath) _

theorem setCustomMiningJobSuccess_survives :
    MessageCodec.Survives ⟨_, Sv2SetCustomMiningJobSuccess.InRange,
      serializeSetCustomMiningJobSuccess, deserializeSetCustomMiningJobSuccess⟩ := by
  refine MessageCodec.survives fun msg ⟨hchannelId, hrequestId, hjobId⟩ => ⟨_, rfl, ?_⟩
  exact .bind (u32 hchannelId) <| .bind (u32 hrequestId) <| .last (u32 hjobId) _

theorem setCustomMiningJobError_survives :
    MessageCodec.Survives ⟨_, Sv2SetCustomMiningJobError.InRange, serializeSetCustomMiningJobError,
      deserializeSetCustomMiningJobError⟩ := by
  refine MessageCodec.survives fun msg ⟨hchannelId, hrequestId, herrorCode⟩ => ⟨_, rfl, ?_⟩
  exact .bind (u32 hchannelId) <| .bind (u32 hrequestId) <| .last (str0_255 herrorCode) _

/-! ### Template distribution -/

theorem tdpCoinbaseOutputConstraints_survives :
    MessageCodec.Survives ⟨_, Sv2TdpCoinbaseOutputConstraints.InRange,
      serializeTdpCoinbaseOutputConstraints, deserializeTdpCoinbaseOutputConstraints⟩ := by
  refine MessageCodec.survives fun msg ⟨hcoinbaseOutputMaxAdditionalSize,
    hcoinbaseOutputMaxAdditionalSigops⟩ => ⟨_, rfl, ?_⟩
  exact .bind (u32 hcoinbaseOutputMaxAdditionalSize) <|
    .last (u16 hcoinbaseOutputMaxAdditionalSigops) _

theorem tdpNewTemplate_survives :
    MessageCodec.Survives ⟨_, Sv2TdpNewTemplate.InRange, serializeTdpNewTemplate,
      deserializeTdpNewTemplate⟩ := by
  refine MessageCodec.survives fun msg ⟨htemplateId, hversion, hcoinbaseTxVersion, hcoinbasePrefix,
    hcoinbaseTxInputSequence, hcoinbaseTxValueRemaining, hcoinbaseTxOutputsCount,
    hcoinbaseTxOutputs, hcoinbaseTxLocktime, hmerklePath⟩ => ⟨_, rfl, ?_⟩
  exact .bind (u64 htemplateId) <| .bind (bool _) <| .bind (u32 hversion) <|
    .bind (u32 hcoinbaseTxVersion) <| .bind (b0_255 hcoinbasePrefix) <|
    .bind (u32 hcoinbaseTxInputSequence) <| .bind (u64 hcoinbaseTxValueRemaining) <|
    .bind (u32 hcoinbaseTxOutputsCount) <| .bind (b0_64K hcoinbaseTxOutputs) <|
    .bind (u32 hcoinbaseTxLocktime) <| .last (seq0_255 (fun _ => u256) hmerklePath) _

theorem tdpSetNewPrevHash_survives :
    MessageCodec.Survives ⟨_, Sv2TdpSetNewPrevHash.InRange, serializeTdpSetNewPrevHash,
      deserializeTdpSetNewPrevHash⟩ := by
  refine MessageCodec.survives fun msg ⟨htemplateId, hprevHash, hheaderTimestamp, hnBits, htarget⟩
    => ⟨_, rfl, ?_⟩
  exact .bind (u64 htemplateId) <| .bind (u256 hprevHash) <| .bind (u32 hheaderTimestamp) <|
    .bind (u32 hnBits) <| .last (u256 htarget) _

theorem tdpRequestTransactionData_survives :
    MessageCodec.Survives ⟨_, Sv2TdpRequestTransactionData.InRange,
      serializeTdpRequestTransactionData, deserializeTdpRequestTransactionData⟩ := by
  refine MessageCodec.survives fun msg htemplateId => ⟨_, rfl, ?_⟩
  exact .last (u64 htemplateId) _

theorem tdpRequestTransactionDataSuccess_survives :
    MessageCodec.Survives ⟨_, Sv2TdpRequestTransactionDataSuccess.InRange,
      serializeTdpRequestTransactionDataSuccess, deserializeTdpRequestTransactionDataSuccess⟩ := by
  refine MessageCodec.survives fun msg ⟨htemplateId, hexcessData, htransactionList⟩ => ⟨_, rfl, ?_⟩
  exact .bind (u64 htemplateId) <| .bind (b0_64K hexcessData) <|
    .last (seq0_64K (fun _ => b0_16M) htransactionList) _

theorem tdpRequestTransactionDataError_survives :
    MessageCodec.Survives ⟨_, Sv2TdpRequestTransactionDataError.InRange,
      serializeTdpRequestTransactionDataError, deserializeTdpRequestTransactionDataError⟩ := by
  refine MessageCodec.survives fun msg ⟨htemplateId, herrorCode⟩ => ⟨_, rfl, ?_⟩
  exact .bind (u64 htemplateId) <| .last (str0_255 herrorCode) _

theorem tdpSubmitSolution_survives :
    MessageCodec.Survives ⟨_, Sv2TdpSubmitSolution.InRange, serializeTdpSubmitSolution,
      deserializeTdpSubmitSolution⟩ := by
  refine MessageCodec.survives fun msg ⟨htemplateId, hversion, hheaderTimestamp, hheaderNonce,
    hcoinbaseTx⟩ => ⟨_, rfl, ?_⟩
  exact .bind (u64 htemplateId) <| .bind (u32 hversion) <| .bind (u32 hheaderTimestamp) <|
    .bind (u32 hheaderNonce) <| .last (b0_64K hcoinbaseTx) _

theorem miningMessages_survive : ∀ codec ∈ miningMessages, codec.Survives := by
  simp only [miningMessages, List.forall_mem_cons]
  exact ⟨setupConnection_survives, setupConnectionSuccess_survives, setupConnectionError_survives,
    channelEndpointChanged_survives, openStandardMiningChannel_survives,
    openStandardMiningChannelSuccess_survives, openMiningChannelError_survives,
    newMiningJob_survives, setNewPrevHash_survives, setTarget_survives,
    submitSharesStandard_survives, submitSharesSuccess_survives, submitSharesError_survives,
    closeChannel_survives, updateChannel_survives, updateChannelError_survives, reconnect_survives,
    nofun⟩

theorem extendedMiningMessages_survive : ∀ codec ∈ extendedMiningMessages, codec.Survives := by
  simp only [extendedMiningMessages, List.forall_mem_cons]
  exact ⟨openExtendedMiningChannel_survives, openExtendedMiningChannelSuccess_survives,
    newExtendedMiningJob_survives, submitSharesExtended_survives, setExtranoncePrefix_survives,
    setGroupChannel_survives, nofun⟩

theorem jobDeclarationMessages_survive : ∀ codec ∈ jobDeclarationMessages, codec.Survives := by
  simp only [jobDeclarationMessages, List.forall_mem_cons]
  exact ⟨allocateMiningJobToken_survives, allocateMiningJobTokenSuccess_survives,
    declareMiningJob_survives, declareMiningJobSuccess_survives, declareMiningJobError_survives,
    provideMissingTransactions_survives, provideMissingTransactionsSuccess_survives,
    pushSolution_survives, setCustomMiningJob_survives, setCustomMiningJobSuccess_survives,
    setCustomMiningJobError_survives, nofun⟩

theorem templateDistributionMessages_survive :
    ∀ codec ∈ templateDistributionMessages, codec.Survives := by
  simp only [templateDistributionMessages, List.forall_mem_cons]
  exact ⟨tdpCoinbaseOutputConstraints_survives, tdpNewTemplate_survives, tdpSetNewPrevHash_survives,
    tdpRequestTransactionData_survives, tdpRequestTransactionDataSuccess_survives,
    tdpRequestTransactionDataError_survives, tdpSubmitSolution_survives, nofun⟩

/-- Every message in the ranges of its fields is written, and reading gives it back and leaves
what follows it. -/
theorem messages_roundTrip :
    ∀ codec ∈ miningMessages ++ extendedMiningMessages ++ jobDeclarationMessages
        ++ templateDistributionMessages,
      ∀ msg, codec.InRange msg → ∃ bytes, codec.serialize msg = some bytes ∧
        ∀ rest, codec.deserialize.run (bytes ++ rest) = some (msg, rest) := by
  intro codec hcodec
  simp only [List.mem_append] at hcodec
  obtain ((hmining | hextended) | hdeclaration) | htemplate := hcodec
  · exact miningMessages_survive codec hmining
  · exact extendedMiningMessages_survive codec hextended
  · exact jobDeclarationMessages_survive codec hdeclaration
  · exact templateDistributionMessages_survive codec htemplate

/-- A job with one merkle step. -/
def sampleJob : Sv2NewExtendedMiningJob where
  channelId := 7
  jobId := 1
  minNtime := some 1700000000
  version := 0x20000000
  versionRollingAllowed := true
  merklePath := [List.replicate 32 0xab]
  coinbasePrefix := [1, 0, 0, 0]
  coinbaseSuffix := []

theorem sampleJob_inRange : sampleJob.InRange := by
  simp [Sv2NewExtendedMiningJob.InRange, sampleJob, IsU32, IsOptionU32, IsSeq0_255, IsU256,
    IsB0_64K]

theorem messages_roundTrip_sample :
    ∃ bytes, serializeNewExtendedMiningJob sampleJob = some bytes ∧
      ∀ rest, deserializeNewExtendedMiningJob.run (bytes ++ rest) = some (sampleJob, rest) :=
  messages_roundTrip ⟨_, Sv2NewExtendedMiningJob.InRange, serializeNewExtendedMiningJob,
    deserializeNewExtendedMiningJob⟩ (by simp [extendedMiningMessages]) sampleJob sampleJob_inRange

end PublicPool.Sv2
