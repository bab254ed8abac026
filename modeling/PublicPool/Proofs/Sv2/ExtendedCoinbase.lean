import PublicPool.Proofs.CoinbaseOutputs
import PublicPool.Proofs.Sv1.BlockHeader
import PublicPool.Proofs.Sv2.CurrentWork
import PublicPool.Proofs.Sv2.PrefixLeak
import PublicPool.Proofs.WrittenOutputs

/-!
# `PublicPool.Proofs.Sv2.ExtendedCoinbase`: the coinbases around an extranonce

The jobs of an extended channel send a coinbase in two halves. The halves of a pool job are cut for
the 12 bytes that an SV1 miner has, and the length byte of the script is patched to the size that
the channel has. It is at byte 41 whatever the height is, because the padding makes up for the
length of the height, and the script without its room has 23 bytes, so one byte is enough for every
size up to 229. Extended channels are opened with 14 (`PrefixesHeld`).

The halves of a custom job are written from the message. Its outputs come with their count in
front, as a miner serialized them, and may be any bytes that read as outputs. `Local` says of a
reader that it does not look behind what it takes; so the outputs are read in the coinbase as they
are read in the message.
-/

set_option autoImplicit false

namespace PublicPool.Proofs

open Sv2 Sv2.Context
open TxCodec

/-! ### Readers that do not look ahead -/

/-- What stands behind the bytes that a reader takes is left as it is. -/
def Local {α : Type} (reader : Reader α) : Prop :=
  ∀ b x rest more, reader.run b = some (x, rest) → reader.run (b ++ more) = some (x, rest ++ more)

section
variable {α β : Type}

theorem local_pure (x : α) : Local (pure x : Reader α) := by
  intro b y rest more h
  obtain ⟨rfl, rfl⟩ := run_pure_eq_some.mp h
  rfl

theorem Local.bind {reader : Reader α} {next : α → Reader β} (h : Local reader)
    (hnext : ∀ x, Local (next x)) : Local (reader >>= next) := by
  intro b y rest more hrun
  obtain ⟨x, left, hreader, hrest⟩ := run_bind_eq_some.mp hrun
  exact run_bind_eq_some.mpr ⟨x, left ++ more, h b x left more hreader,
    hnext x left y rest more hrest⟩

theorem local_getBytes (n : ℕ) : Local (getBytes n) := by
  intro b x rest more h
  obtain ⟨hle, rfl, rfl⟩ := run_getBytes_eq_some.mp h
  refine run_getBytes_eq_some.mpr ⟨?_, ?_, ?_⟩
  · rw [List.length_append]
    omega
  · exact (List.take_append_of_le_length hle).symm
  · exact (List.drop_append_of_le_length hle).symm

theorem local_getLE (n : ℕ) : Local (getLE n) := (local_getBytes n).bind fun _ => local_pure _

theorem local_getVarInt : Local getVarInt := by
  refine (local_getLE 1).bind fun first => ?_
  split
  · exact local_getLE 2
  · exact local_getLE 4
  · exact local_getLE 8
  · exact local_pure first

theorem local_getSlice : Local getSlice := local_getVarInt.bind fun n => local_getBytes n

theorem local_getOutput : Local getOutput :=
  (local_getLE 8).bind fun _ => local_getSlice.bind fun _ => local_pure _

theorem local_getMany {reader : Reader α} (h : Local reader) (n : ℕ) :
    Local (getMany reader n) := by
  induction n with
  | zero => exact local_pure []
  | succ n ih => exact h.bind fun _ => ih.bind fun _ => local_pure _

end

/-- Outputs after their count. -/
def getOutputs : Reader (List TxOutput) := do getMany getOutput (← getVarInt)

theorem local_getOutputs : Local getOutputs :=
  local_getVarInt.bind fun n => local_getMany local_getOutput n

/-- Bytes that are a list of outputs, and nothing else. -/
def ReadsOutputs (bytes : Bytes) (outs : List TxOutput) : Prop :=
  getOutputs.run bytes = some (outs, [])

/-- Outputs that are written are read. -/
theorem readsOutputs_written {outs : List TxOutput} (hcount : outs.length < 2 ^ 64)
    (houts : ∀ output ∈ outs, Writable output) :
    ReadsOutputs (putVarInt outs.length ++ outs.flatMap putOutput) outs := by
  refine run_bind_eq_some.mpr ⟨outs.length, outs.flatMap putOutput, ?_, ?_⟩
  · rw [run_getVarInt]
    exact readBitcoinVarInt_putVarInt hcount _
  · have hread := run_getOutputs_written houts []
    rwa [List.append_nil] at hread

/-! ### A coinbase and its bytes -/

/-- The input of a coinbase. -/
def coinbaseInput (script : Bytes) (sequence : ℕ) : TxInput where
  hash := List.replicate 32 0
  index := 0xffffffff
  script := script
  sequence := sequence
  witness := []

/-- The transaction of a coinbase. -/
def oneInputCoinbase (version : ℤ) (script : Bytes) (sequence : ℕ) (outs : List TxOutput)
    (locktime : ℕ) : Transaction where
  version := version
  ins := [coinbaseInput script sequence]
  outs := outs
  locktime := locktime

/-- Its bytes, with those of its outputs as they come. -/
def coinbaseAround (version : ℤ) (script : Bytes) (sequence : ℕ) (outputs : Bytes)
    (locktime : ℕ) : Bytes :=
  putLE 4 version ++ putVarInt 1
    ++ (List.replicate 32 0 ++ putLE 4 0xffffffff ++ putSlice script ++ putLE 4 sequence
      ++ (outputs ++ putLE 4 locktime))

theorem serialize_oneInput (version : ℤ) (script : Bytes) (sequence : ℕ) (outs : List TxOutput)
    (locktime : ℕ) :
    serialize false (oneInputCoinbase version script sequence outs locktime)
      = coinbaseAround version script sequence (putVarInt outs.length ++ outs.flatMap putOutput)
          locktime := by
  have hhash : fit 32 (List.replicate 32 (0 : UInt8)) = List.replicate 32 0 :=
    fit_of_length List.length_replicate
  simp only [serialize, oneInputCoinbase, coinbaseInput, coinbaseAround, putInput, hhash,
    Bool.false_and, Bool.false_eq_true, if_false, List.length_singleton, List.flatMap_cons,
    List.flatMap_nil, List.append_nil, List.append_assoc, Nat.cast_ofNat]

/-- The bytes are read as the transaction. -/
theorem deserialize_around {version sequence locktime : ℕ} {script outputs : Bytes}
    {outs : List TxOutput} (hversion : version < 2 ^ 32) (hsequence : sequence < 2 ^ 32)
    (hlocktime : locktime < 2 ^ 32) (hscript : script.length < 2 ^ 64)
    (houts : ReadsOutputs outputs outs) :
    deserialize (coinbaseAround version script sequence outputs locktime)
      = some (oneInputCoinbase (Js.toInt32 (some version)) script sequence outs locktime) := by
  have hrun : getTransaction.run (coinbaseAround version script sequence outputs locktime)
      = some (oneInputCoinbase (Js.toInt32 (some version)) script sequence outs locktime, []) := by
    obtain ⟨count, left, hcount, hmany⟩ := run_bind_eq_some.mp
      (local_getOutputs outputs outs [] (putLE 4 locktime) houts)
    have hins : (getMany getInput 1).run (List.replicate 32 0 ++ putLE 4 0xffffffff
        ++ putSlice script ++ putLE 4 sequence ++ (outputs ++ putLE 4 locktime))
        = some ([coinbaseInput script sequence], outputs ++ putLE 4 locktime) :=
      run_getInput_written List.length_replicate (by norm_num) hsequence hscript _
    have hlast : (getLE 4).run (putLE 4 locktime ++ []) = some (locktime, []) :=
      run_getLE_putLE (by omega) []
    rw [List.append_nil] at hlast
    rw [getTransaction, coinbaseAround, List.append_assoc]
    generalize List.replicate 32 0 ++ putLE 4 0xffffffff ++ putSlice script ++ putLE 4 sequence
      ++ (outputs ++ putLE 4 locktime) = inputs at hins ⊢
    have hone : getVarInt.run (putVarInt 1 ++ inputs) = some (1, inputs) := by
      rw [run_getVarInt]
      exact readBitcoinVarInt_putVarInt (by norm_num) _
    have hmarker : getSegwitMarker.run (putVarInt 1 ++ inputs)
        = some (false, putVarInt 1 ++ inputs) := rfl
    refine run_bind_eq_some.mpr ⟨version, _, run_getLE_putLE (by omega) _, ?_⟩
    -- a count of one is no marker
    refine run_bind_eq_some.mpr ⟨false, _, hmarker, ?_⟩
    refine run_bind_eq_some.mpr ⟨1, _, hone, ?_⟩
    refine run_bind_eq_some.mpr ⟨_, _, hins, ?_⟩
    refine run_bind_eq_some.mpr ⟨count, left, hcount, ?_⟩
    refine run_bind_eq_some.mpr ⟨outs, _, hmany, ?_⟩
    refine run_bind_eq_some.mpr ⟨_, _, rfl, ?_⟩
    exact run_bind_eq_some.mpr ⟨locktime, [], hlast, rfl⟩
  have hcodec : getTransaction (coinbaseAround version script sequence outputs locktime)
      = some (oneInputCoinbase (Js.toInt32 (some version)) script sequence outs locktime, []) := hrun
  rw [deserialize, hcodec]

/-! ### Jobs of the pool -/

section
variable {host : Externals} {network : Network} {jobId : String}
  {payoutInformation : List AddressObject} {jobTemplate : JobTemplate}
  {payoutWorker : Option String} {now : ℕ} {job : MiningJob}

/-- The values of a job's outputs have room in the format. -/
theorem values_create
    (hjob : MiningJob.create host network jobId payoutInformation jobTemplate payoutWorker now
      = some job) :
    ∀ output ∈ job.coinbaseTransaction.outs, 0 ≤ output.value ∧ output.value < 2 ^ 64 := by
  obtain ⟨-, -, -, -, -, hcoinbase⟩ := MiningJob.fields_create host hjob
  have hvalues : job.coinbaseTransaction.outs.all
      fun output => isSerializableValue output.value := by
    unfold MiningJob.create at hjob
    rw [hcoinbase, Option.bind_eq_bind, Option.bind_some] at hjob
    split at hjob
    · assumption
    · cases hjob
  intro output houtput
  have hvalue := List.all_eq_true.mp hvalues output houtput
  simp only [isSerializableValue, Bool.and_eq_true, decide_eq_true_eq] at hvalue
  exact ⟨hvalue.1, by omega⟩

/-- The prefix of an extended job has the length byte of its channel's extranonces, as long as one
byte is enough for it. -/
theorem patch_coinbasePart1 (hbitcoin : WritesBitcoin host)
    (hjob : MiningJob.create host network jobId payoutInformation jobTemplate payoutWorker now
      = some job) {total : ℕ} (htotal : total ≤ 229) :
    Context.patchCoinbasePrefixVarint (Js.bufferFromHex job.coinbasePart1) total
      = putLE 4 2 ++ putVarInt 1 ++ List.replicate 32 0 ++ putLE 4 0xffffffff
        ++ putVarInt (23 + total) ++ scriptStart host jobTemplate := by
  obtain ⟨hbefore, -⟩ := bufferFromHex_coinbaseParts hbitcoin hjob
  have hsplit : beforeScript
      = putLE 4 2 ++ putVarInt 1 ++ List.replicate 32 0 ++ putLE 4 0xffffffff ++ [35] := by
    decide +kernel
  have hlength : (putLE 4 2 ++ putVarInt 1 ++ List.replicate 32 0
      ++ putLE 4 0xffffffff : Bytes).length = 41 := by decide +kernel
  have hvarint : putVarInt (23 + total) = [UInt8.ofNat (23 + total)] := by
    rw [putVarInt, if_pos (by omega), putLE_succ, Nat.mod_eq_of_lt (by omega)]
    rfl
  rw [hbefore, hsplit, hvarint]
  generalize putLE 4 2 ++ putVarInt 1 ++ List.replicate 32 0 ++ putLE 4 0xffffffff = start
    at hlength ⊢
  have hbyte : (start ++ [35] ++ scriptStart host jobTemplate)[41]? = some 35 := by
    rw [List.append_assoc, List.getElem?_append_right (by omega), hlength]
    rfl
  have hset : (start ++ [35] ++ scriptStart host jobTemplate).set 41 (UInt8.ofNat (23 + total))
      = start ++ [UInt8.ofNat (23 + total)] ++ scriptStart host jobTemplate := by
    rw [List.append_assoc, List.set_append_right 41 _ (by omega), hlength, List.append_assoc]
    rfl
  unfold Context.patchCoinbasePrefixVarint
  by_cases hsame : total = totalExtranonceSizeBytes
  · -- the room that the job left is what the channel has
    rw [if_pos hsame, hsame]
    rfl
  · have hnext : ((35 : UInt8).toNat : ℤ) + ((total : ℤ) - totalExtranonceSizeBytes)
        = (23 + total : ℕ) := by
      have h35 : ((35 : UInt8).toNat : ℤ) = 35 := rfl
      rw [h35, totalExtranonceSizeBytes]
      push_cast
      ring
    simp only [if_neg hsame, hbyte, hnext]
    rw [if_neg (by omega), Int.toNat_natCast, hset]

end

/-- The coinbase of a job with an extranonce in the room that its script leaves. -/
def coinbaseWith (job : MiningJob) (extranonce : Bytes) : Transaction :=
  { job.coinbaseTransaction with
    ins := job.coinbaseTransaction.ins.map fun input =>
      { input with
        script := input.script.take (input.script.length - totalExtranonceSizeBytes) ++ extranonce
        witness := [] } }

/-- The lengths of a job's outputs can be written. -/
structure LengthsFit (job : MiningJob) : Prop where
  count : job.coinbaseTransaction.outs.length < 2 ^ 64
  scripts : ∀ output ∈ job.coinbaseTransaction.outs, output.script.length < 2 ^ 64

section
variable {host : Externals} {network : Network} {jobId : String}
  {payoutInformation : List AddressObject} {jobTemplate : JobTemplate}
  {payoutWorker : Option String} {now : ℕ} {job : MiningJob}

theorem coinbaseWith_eq (hbitcoin : WritesBitcoin host)
    (hjob : MiningJob.create host network jobId payoutInformation jobTemplate payoutWorker now
      = some job) (extranonce : Bytes) :
    coinbaseWith job extranonce
      = oneInputCoinbase 2 (scriptStart host jobTemplate ++ extranonce) 0xffffffff
          job.coinbaseTransaction.outs 0 := by
  obtain ⟨-, -, -, -, -, hcoinbase⟩ := MiningJob.fields_create host hjob
  have heq := jobCoinbase_eq hcoinbase
  have hroom : 35 - totalExtranonceSizeBytes = 23 := rfl
  rw [coinbaseWith, oneInputCoinbase, coinbaseInput, heq]
  simp only [List.map_cons, List.map_nil, hbitcoin.length_script, hroom, scriptStart]

variable {total : ℕ} {extranonce : Bytes}

/-- The halves around an extranonce, with a length byte that is right. -/
theorem written_around (hbitcoin : WritesBitcoin host)
    (hjob : MiningJob.create host network jobId payoutInformation jobTemplate payoutWorker now
      = some job) (hextranonce : extranonce.length = total) :
    putLE 4 2 ++ putVarInt 1 ++ List.replicate 32 0 ++ putLE 4 0xffffffff ++ putVarInt (23 + total)
        ++ scriptStart host jobTemplate ++ extranonce ++ coinbaseEnd job
      = serialize false (coinbaseWith job extranonce) := by
  have hlength : (scriptStart host jobTemplate ++ extranonce).length = 23 + total := by
    rw [List.length_append, length_scriptStart hbitcoin, hextranonce]
  rw [coinbaseWith_eq hbitcoin hjob, serialize_oneInput, coinbaseAround, putSlice, hlength,
    coinbaseEnd]
  simp only [List.append_assoc]
  rfl

/-- An extended job, with a script as long as its length byte says. -/
theorem extendedCoinbase_eq (hbitcoin : WritesBitcoin host)
    (hjob : MiningJob.create host network jobId payoutInformation jobTemplate payoutWorker now
      = some job) (htotal : total ≤ 229) (hextranonce : extranonce.length = total) :
    patchCoinbasePrefixVarint (Js.bufferFromHex job.coinbasePart1) total ++ extranonce
        ++ Js.bufferFromHex job.coinbasePart2 = serialize false (coinbaseWith job extranonce) := by
  obtain ⟨-, hafter⟩ := bufferFromHex_coinbaseParts hbitcoin hjob
  rw [patch_coinbasePart1 hbitcoin hjob htotal, hafter, written_around hbitcoin hjob hextranonce]

/-- The coinbase that an SV1 share hashes. -/
theorem coinbaseBytes_serialize (hbitcoin : WritesBitcoin host)
    (hjob : MiningJob.create host network jobId payoutInformation jobTemplate payoutWorker now
      = some job) {extraNonce extraNonce2 : List Char}
    (hlength : (Js.bufferFromHex (extraNonce ++ extraNonce2)).length = totalExtranonceSizeBytes) :
    job.coinbaseBytes extraNonce extraNonce2
      = serialize false (coinbaseWith job (Js.bufferFromHex (extraNonce ++ extraNonce2))) := by
  have hbefore : beforeScript = putLE 4 2 ++ putVarInt 1 ++ List.replicate 32 0
      ++ putLE 4 0xffffffff ++ putVarInt (23 + totalExtranonceSizeBytes) := by decide +kernel
  rw [coinbaseBytes_eq hbitcoin hjob, hbefore, written_around hbitcoin hjob hlength]

/-- What is written of a job is read as its coinbase. -/
theorem deserialize_coinbaseWith (hbitcoin : WritesBitcoin host)
    (hjob : MiningJob.create host network jobId payoutInformation jobTemplate payoutWorker now
      = some job) (hfit : LengthsFit job) (hshort : extranonce.length ≤ 229) :
    deserialize (serialize false (coinbaseWith job extranonce))
      = some (coinbaseWith job extranonce) := by
  have houts : ReadsOutputs (putVarInt job.coinbaseTransaction.outs.length
      ++ job.coinbaseTransaction.outs.flatMap putOutput) job.coinbaseTransaction.outs := by
    refine readsOutputs_written hfit.count fun output houtput => ?_
    obtain ⟨hnonneg, hlt⟩ := values_create hjob output houtput
    exact ⟨hnonneg, hlt, hfit.scripts output houtput⟩
  have hscript : (scriptStart host jobTemplate ++ extranonce).length < 2 ^ 64 := by
    rw [List.length_append, length_scriptStart hbitcoin]
    omega
  rw [coinbaseWith_eq hbitcoin hjob, serialize_oneInput]
  have hversion : (2 : ℕ) < 2 ^ 32 := by norm_num
  exact deserialize_around hversion (by norm_num) (by norm_num) hscript houts

end

/-! ### Custom jobs -/

/-- The coinbase that a message describes, with an extranonce. -/
def describedCoinbase (message : Sv2SetCustomMiningJob) (outs : List TxOutput)
    (extranonce : Bytes) : Transaction :=
  oneInputCoinbase (Js.toInt32 (some message.coinbaseTxVersion.toNat))
    (message.coinbasePrefix ++ extranonce) message.coinbaseTxInputNSequence.toNat outs
    message.coinbaseTxLocktime.toNat

theorem le32_eq_putLE (n : ℕ) : Js.le32 n = putLE 4 n := by
  have hwritten := putLE_leValue (Js.le32 n)
  have hmod : ((n : ℤ) % 2 ^ 32).toNat = n % 256 ^ 4 := by omega
  rw [length_le32, leValue_le32, hmod, putLE_mod] at hwritten
  exact hwritten.symm

/-- The halves of a custom job are read as the coinbase that its message describes. -/
theorem deserialize_customCoinbase {message : Sv2SetCustomMiningJob} {outs : List TxOutput}
    (houts : ReadsOutputs message.coinbaseTxOutputs outs) {total : ℕ} {extranonce : Bytes}
    (hextranonce : extranonce.length = total)
    (hlength : message.coinbasePrefix.length + total < 2 ^ 53) :
    deserialize ((buildSv2CoinbaseSplit message total).1 ++ extranonce
        ++ (buildSv2CoinbaseSplit message total).2)
      = some (describedCoinbase message outs extranonce) := by
  have hscript : (message.coinbasePrefix ++ extranonce).length
      = message.coinbasePrefix.length + total := by
    rw [List.length_append, hextranonce]
  have hbytes : (buildSv2CoinbaseSplit message total).1 ++ extranonce
        ++ (buildSv2CoinbaseSplit message total).2
      = coinbaseAround message.coinbaseTxVersion.toNat (message.coinbasePrefix ++ extranonce)
          message.coinbaseTxInputNSequence.toNat message.coinbaseTxOutputs
          message.coinbaseTxLocktime.toNat := by
    have hindex : Js.le32 0xffffffff = putLE 4 0xffffffff := by decide
    have hone : ([1] : Bytes) = putVarInt 1 := by decide
    simp only [buildSv2CoinbaseSplit, coinbaseAround, le32_eq_putLE, putSlice, hscript, hindex,
      hone, List.append_assoc]
  rw [hbytes, describedCoinbase]
  exact deserialize_around message.coinbaseTxVersion.toNat_lt
    message.coinbaseTxInputNSequence.toNat_lt message.coinbaseTxLocktime.toNat_lt (by omega) houts

/-! ### The sizes of the channels -/

section
variable (host : Externals) (config : Sv2Config)

/-- Extended channels are opened with 14 bytes of extranonce. -/
theorem extended_total (inputs : List Sv2Input) {id channelId : ℕ} {client : StratumV2Client}
    {channel : ChannelState}
    (hclient : ((sv2Machine host config).final .initial inputs).clients id = some client)
    (hchannel : client.channels.get? channelId = some channel)
    (htype : channel.channelType = .extended) :
    channel.extranoncePrefix.length + channel.extranonceSize = 14 := by
  have hmark : HasMark (holdersOf ((sv2Machine host config).final .initial inputs)) id channelId
      (markOf channel) := hasMark_holdersOf.mpr ⟨client, channel, hclient, hchannel, rfl⟩
  obtain ⟨hfour, hten⟩ :=
    (prefixesHeld_final host config inputs).extended id channelId (markOf channel) hmark htype
  have hfour' : channel.extranoncePrefix.length = 4 := hfour
  have hten' : channel.extranonceSize = 10 := hten
  omega

/-- The halves of a job around an extranonce of the negotiated size are its coinbase. For a channel
that a run has opened, every job of the pool, patched for the channel, makes up the coinbase of the
job with the extranonce at the end of the script, and so does the coinbase of an SV1 miner with its
12 bytes; written lengths are read back. The halves of a custom job make up the coinbase that the
message describes, for every size. -/
theorem coinbases_around_extranonce (hbitcoin : WritesBitcoin host) :
    (∀ (inputs : List Sv2Input) (id channelId : ℕ) (client : StratumV2Client)
      (channel : ChannelState),
      ((sv2Machine host config).final .initial inputs).clients id = some client →
      client.channels.get? channelId = some channel → channel.channelType = .extended →
      ∀ (network : Network) (jobId : String) (payoutInformation : List AddressObject)
        (jobTemplate : JobTemplate) (payoutWorker : Option String) (now : ℕ) (job : MiningJob),
        MiningJob.create host network jobId payoutInformation jobTemplate payoutWorker now
          = some job →
        ∀ extranonce : Bytes,
          extranonce.length = channel.extranoncePrefix.length + channel.extranonceSize →
          patchCoinbasePrefixVarint (Js.bufferFromHex job.coinbasePart1)
              (channel.extranoncePrefix.length + channel.extranonceSize) ++ extranonce
            ++ Js.bufferFromHex job.coinbasePart2 = serialize false (coinbaseWith job extranonce) ∧
          (LengthsFit job → deserialize (serialize false (coinbaseWith job extranonce))
            = some (coinbaseWith job extranonce))) ∧
    (∀ (network : Network) (jobId : String) (payoutInformation : List AddressObject)
      (jobTemplate : JobTemplate) (payoutWorker : Option String) (now : ℕ) (job : MiningJob),
      MiningJob.create host network jobId payoutInformation jobTemplate payoutWorker now
        = some job →
      ∀ extraNonce extraNonce2 : List Char,
        (Js.bufferFromHex (extraNonce ++ extraNonce2)).length = totalExtranonceSizeBytes →
        job.coinbaseBytes extraNonce extraNonce2
          = serialize false (coinbaseWith job (Js.bufferFromHex (extraNonce ++ extraNonce2)))) ∧
    ∀ (message : Sv2SetCustomMiningJob) (outs : List TxOutput) (total : ℕ) (extranonce : Bytes),
      ReadsOutputs message.coinbaseTxOutputs outs → extranonce.length = total →
      message.coinbasePrefix.length + total < 2 ^ 53 →
      deserialize ((buildSv2CoinbaseSplit message total).1 ++ extranonce
          ++ (buildSv2CoinbaseSplit message total).2)
        = some (describedCoinbase message outs extranonce) := by
  refine ⟨?_, ?_, ?_⟩
  · intro inputs id channelId client channel hclient hchannel htype network jobId payoutInformation
      jobTemplate payoutWorker now job hjob extranonce hextranonce
    have htotal := extended_total host config inputs hclient hchannel htype
    refine ⟨extendedCoinbase_eq hbitcoin hjob (by omega) hextranonce, fun hfit => ?_⟩
    exact deserialize_coinbaseWith hbitcoin hjob hfit (by omega)
  · intro network jobId payoutInformation jobTemplate payoutWorker now job hjob extraNonce
      extraNonce2 hlength
    exact coinbaseBytes_serialize hbitcoin hjob hlength
  · intro message outs total extranonce houts hextranonce hlength
    exact deserialize_customCoinbase houts hextranonce hlength

end

namespace Sv2Sample

/-- A custom job in a channel. -/
def customMessage : Sv2SetCustomMiningJob where
  channelId := 1
  requestId := 1
  token := [2]
  version := 0x20000000
  prevHash := List.replicate 32 7
  minNtime := 1700000000
  nBits := 0x17034219
  coinbaseTxVersion := 2
  coinbasePrefix := [3, 0, 0x35, 0x0c]
  coinbaseTxInputNSequence := 0xfffffffe
  coinbaseTxOutputs := 1 :: putOutput { value := 5000000000, script := [0x51] }
  coinbaseTxLocktime := 799999
  merklePath := []

theorem writesBitcoin_host : WritesBitcoin host where
  legacy _ := rfl
  height height := by
    show (putLE _ _).length ≤ 5
    rw [length_putLE]
    split_ifs <;> omega

/-- What the channel of `opened` and a job for `A` make of 14 bytes. -/
def extendedBytes (job : MiningJob) : Bytes :=
  patchCoinbasePrefixVarint (Js.bufferFromHex job.coinbasePart1) 14 ++ List.replicate 14 5
    ++ Js.bufferFromHex job.coinbasePart2

/-- A job for `A`, of a block at height 800000. -/
def jobOfA : Option MiningJob :=
  MiningJob.create host .mainnet "1" [{ address := "A", percent := some 100, amountSats := none }]
    (template 7 true) none 1700000000000

end Sv2Sample

open Sv2Sample in
theorem coinbases_around_extranonce_sample :
    (∃ job, jobOfA = some job ∧
      deserialize (extendedBytes job) = some (coinbaseWith job (List.replicate 14 5)) ∧
      job.coinbaseBytes "abcdef01".toList "0000000000000001".toList
        = serialize false (coinbaseWith job [0xab, 0xcd, 0xef, 1, 0, 0, 0, 0, 0, 0, 0, 1])) ∧
    deserialize ((buildSv2CoinbaseSplit customMessage 300).1 ++ List.replicate 300 5
        ++ (buildSv2CoinbaseSplit customMessage 300).2)
      = some (describedCoinbase customMessage [{ value := 5000000000, script := [0x51] }]
          (List.replicate 300 5)) := by
  obtain ⟨hextended, hsv1, hcustom⟩ := coinbases_around_extranonce host config writesBitcoin_host
  have hopened : ((((sv2Machine host config).final .initial opened).clients 0).bind fun client =>
      (client.channels.get? 1).filter fun channel =>
        decide (channel.channelType = .extended)).isSome = true := by decide +kernel
  obtain ⟨channel, hfound⟩ := Option.isSome_iff_exists.mp hopened
  obtain ⟨client, hclient, hfiltered⟩ := Option.bind_eq_some_iff.mp hfound
  obtain ⟨hchannel, htype⟩ := Option.filter_eq_some_iff.mp hfiltered
  have htotal := extended_total host config opened hclient hchannel (by simpa using htype)
  obtain ⟨job, hjob⟩ : ∃ job, jobOfA = some job :=
    Option.isSome_iff_exists.mp (by decide +kernel)
  have hfit : LengthsFit job := by
    have hlengths : ∀ job ∈ jobOfA, job.coinbaseTransaction.outs.length < 2 ^ 64 ∧
        ∀ output ∈ job.coinbaseTransaction.outs, output.script.length < 2 ^ 64 := by
      decide +kernel
    exact ⟨(hlengths job hjob).1, (hlengths job hjob).2⟩
  refine ⟨⟨job, hjob, ?_, ?_⟩, ?_⟩
  · obtain ⟨hbytes, hread⟩ := hextended opened 0 1 client channel hclient hchannel
      (by simpa using htype) _ _ _ _ _ _ job hjob (List.replicate 14 5)
      (by rw [htotal, List.length_replicate])
    rw [htotal] at hbytes
    rw [extendedBytes, hbytes]
    exact hread hfit
  · exact hsv1 _ _ _ _ _ _ job hjob "abcdef01".toList "0000000000000001".toList (by decide +kernel)
  · exact hcustom customMessage [{ value := 5000000000, script := [0x51] }] 300
      (List.replicate 300 5) (by unfold ReadsOutputs; decide +kernel) List.length_replicate
      (by decide)

end PublicPool.Proofs
