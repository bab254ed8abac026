import PublicPool.Proofs.Sv2.DoubleCredit

/-!
# `PublicPool.Proofs.Sv2.FoundBlock`: the header of a found block

A share is judged by the header of its channel's job, and a found block is built from the shared
job and its template. `found_block_header` says when the two have one header: in every run in
which a job that is sent without a `SetNewPrevHash` meets a channel whose latest previous block
and bits are the template's. For standard shares this is no condition; there the header and the
block take the same template.

`not_found_block_header_race` is a run in which the condition fails: a template is broadcast
while a second channel is still being opened.
-/

set_option autoImplicit false

namespace PublicPool.Proofs

open Lib (OrdMap Machine)
open Sv2
open Sv2.Context

/-- The block of a share starts with the header that the share was judged by. -/
def SameHeader (share : AcceptedShare) : Prop :=
  ∀ coinbase blockHex, share.block = some (some (coinbase, blockHex)) →
    blockHex.take 80 = share.header

section
variable {host : Externals} {config : Sv2Config}

theorem length_headerBytes (fields : HeaderFields) : fields.bytes.length = 80 := by
  simp only [HeaderFields.bytes, List.length_append, length_le32, fields.prevHash.length_eq,
    fields.merkleRoot.length_eq]

/-- The first 80 bytes of a block are its header. -/
theorem take_blockBytes (fields : HeaderFields) (transactions : List Transaction) :
    (blockBytes host fields.bytes transactions).take 80 = fields.bytes := by
  rw [blockBytes, List.append_assoc]
  exact List.take_left' (length_headerBytes fields)

/-- Flipping the bits in which a version differs from a template's gives the version. -/
theorem ofInt_rollVersion_bitXor (version templateVersion : ℤ) :
    BitVec.ofInt 32
        (rollVersion templateVersion (some (Js.bitXor (some version) (some templateVersion))))
      = BitVec.ofInt 32 version := by
  have htoInt32 (n : ℤ) : BitVec.ofInt 32 (Js.toInt32 (some n)) = BitVec.ofInt 32 n := by
    apply BitVec.eq_of_toNat_eq
    simp only [Js.toInt32, BitVec.toNat_ofInt]
    congr 1
    exact Int.bmod_emod ..
  rw [ofInt_rollVersion, Option.getD_some, Js.bitXor, BitVec.ofInt_toInt, htoInt32, htoInt32,
    BitVec.xor_comm (BitVec.ofInt 32 version), ← BitVec.xor_assoc, BitVec.xor_self,
    BitVec.zero_xor]

/-- What a channel's jobs have to do with the jobs service: a standard job was sent the merkle
root that its block will have, and an extended job has the previous block and bits of its
template. -/
structure ChannelSound (host : Externals) (jobs : StratumV1JobsService) (channel : ChannelState) :
    Prop where
  below : ∀ jobId merkleRoot, channel.jobIdToMerkleRoot jobId = some merkleRoot →
    jobId < jobs.latestJobId
  merkleRoot_eq : ∀ jobId merkleRoot, channel.jobIdToMerkleRoot jobId = some merkleRoot →
    ∀ job, jobs.getJobById (Js.toString16 jobId) = some job →
      ∃ coinbase, job.blockCoinbase host (Js.toHex channel.extranoncePrefix)
          fixedStandardExtranonce2 = some coinbase ∧
        merkleRoot = job.blockMerkleRoot host coinbase
  extended : ∀ jobId job, channel.extendedJobs jobId = some job →
    job.prevHash = job.jobTemplate.block.prevHash ∧ job.nBits = job.jobTemplate.block.bits

variable {jobs : StratumV1JobsService} {channel : ChannelState} {tuple : ShareTuple}
  {coinbase : Transaction} {blockHex header : Bytes}

theorem ChannelSound.forgets {jobs' : StratumV1JobsService} (hgrow : JobsGrow jobs jobs')
    {channel' : ChannelState} (h : ChannelSound host jobs channel)
    (hforgets : Forgets channel channel') : ChannelSound host jobs' channel' where
  below jobId merkleRoot hroot :=
    (h.below jobId merkleRoot (hforgets.merkleRoots _ _ hroot)).trans_le hgrow.counter
  merkleRoot_eq jobId merkleRoot hroot job hjob := by
    have hroot' := hforgets.merkleRoots jobId merkleRoot hroot
    rw [hforgets.extranoncePrefix]
    exact h.merkleRoot_eq jobId merkleRoot hroot' job
      (hgrow.before jobId (h.below jobId merkleRoot hroot') job hjob)
  extended jobId job' hjob' := by
    obtain ⟨job, retiredAt, hjob, rfl, -⟩ := hforgets.extendedJobs jobId job' hjob'
    exact h.extended jobId job hjob

theorem channelSound_new (h : IsNew channel) : ChannelSound host jobs channel where
  below jobId merkleRoot hroot := by
    rw [h.merkleRoots] at hroot
    cases hroot
  merkleRoot_eq jobId merkleRoot hroot := by
    rw [h.merkleRoots] at hroot
    cases hroot
  extended jobId job hjob := by
    rw [h.extendedJobs] at hjob
    cases hjob

/-- The block that `copyAndUpdateBlock` makes of a standard share. -/
theorem take_copyAndUpdateBlock {job : MiningJob} {jobTemplate : JobTemplate}
    {extraNonce extraNonce2 : List Char} {coinbase' : Transaction}
    (hcoinbase : job.blockCoinbase host extraNonce extraNonce2 = some coinbase')
    (hblock : job.copyAndUpdateBlock host jobTemplate
      (some (Js.bitXor (some tuple.version) (some jobTemplate.block.version)))
      (some tuple.nonce) extraNonce extraNonce2 (some tuple.ntime) = some (coinbase, blockHex))
    (hheader : shareHeader jobTemplate.block.prevHash jobTemplate.block.bits
      (job.blockMerkleRoot host coinbase') tuple = some header) : blockHex.take 80 = header := by
  unfold MiningJob.copyAndUpdateBlock at hblock
  rw [hcoinbase, Option.bind_eq_bind, Option.bind_some, Option.bind_eq_bind,
    Option.bind_eq_some_iff] at hblock
  obtain ⟨blockHeader, hblockHeader, hpair⟩ := hblock
  cases hpair
  rw [← blockHeaderBytes_eq_some hblockHeader, take_blockBytes, ← buildHeader_eq_some hheader]
  simp only [headerFieldsOf, ofInt_rollVersion_bitXor, Option.getD_some]

/-- The block that `reconstructExtendedBlock` makes of an extended share. -/
theorem take_reconstructExtendedBlock {job : ExtendedJobData} {merkleRoot : Digest}
    {coinbaseTxBytes : Bytes} (hprevHash : job.prevHash = job.jobTemplate.block.prevHash)
    (hnBits : job.nBits = job.jobTemplate.block.bits)
    (hblock : reconstructExtendedBlock host job tuple merkleRoot coinbaseTxBytes
      = some (coinbase, blockHex))
    (hheader : shareHeader job.prevHash job.nBits merkleRoot tuple = some header) :
    blockHex.take 80 = header := by
  unfold reconstructExtendedBlock at hblock
  rw [Option.bind_eq_bind, Option.bind_eq_some_iff] at hblock
  obtain ⟨coinbase', -, hblock⟩ := hblock
  rw [Option.bind_eq_bind, Option.bind_eq_some_iff] at hblock
  obtain ⟨blockHeader, hblockHeader, hpair⟩ := hblock
  cases hpair
  rw [← blockHeaderBytes_eq_some hblockHeader, take_blockBytes, ← buildHeader_eq_some hheader,
    hprevHash, hnBits]
  simp only [Option.getD_some]

/-- A share that is accepted on a sound channel has a block with its header. -/
theorem sameHeader_of_acceptsTuple {channelId : ℕ} {share : AcceptedShare}
    (h : ChannelSound host jobs channel)
    (haccepts : AcceptsTuple host jobs channelId channel tuple share) : SameHeader share := by
  intro coinbase blockHex hblock
  obtain ⟨sum, hstandard | ⟨extranonce, -, hextended⟩⟩ := haccepts.cases
  · obtain ⟨job, merkleRoot, jobTemplate, hjob, hroot, -, hheader, -, -, hbuilt⟩ :=
      judgeStandard_eq_accepted hstandard
    -- the block takes the coinbase whose merkle root the channel was sent
    obtain ⟨coinbase', hcoinbase, rfl⟩ := h.merkleRoot_eq _ _ hroot job hjob
    rw [hbuilt] at hblock
    split at hblock
    · exact take_copyAndUpdateBlock hcoinbase (Option.some.inj hblock) hheader
    · cases hblock
  · obtain ⟨job, merkleRoot, coinbaseTxBytes, hjob, -, hheader, -, -, -, hbuilt⟩ :=
      judgeExtended_eq_accepted hextended
    obtain ⟨hprevHash, hnBits⟩ := h.extended _ job hjob
    rw [hbuilt] at hblock
    split at hblock
    · exact take_reconstructExtendedBlock hprevHash hnBits (Option.some.inj hblock) hheader
    · cases hblock

/-! ### The condition -/

/-- The job that an input ends sending to a channel without a `SetNewPrevHash`, with the channel. -/
def keptPrevHash? (client : StratumV2Client) : Handled → Option (ChannelState × ExtendedPush)
  | .wait (.extendedJobFrame channelId push _) =>
    if push.sendPrevHash then none
    else (client.channels.get? channelId).map fun channel => (channel, push)
  | _ => none

/-- An extended job that is sent to the connection without a `SetNewPrevHash` meets a channel with
its template's previous block and bits. -/
def KeepsPrevHash (id : ℕ) (world : Sv2World) (_ : List Sv2Output) (input : Sv2Input) : Prop :=
  ∀ taken ∈ handledBy? world id input, ∀ kept ∈ keptPrevHash? taken.1 taken.2,
    kept.1.latestExtendedPrevHash = kept.2.jobTemplate.block.prevHash ∧
      kept.1.latestExtendedNBits = kept.2.jobTemplate.block.bits

instance (id : ℕ) (world : Sv2World) (history : List Sv2Output) (input : Sv2Input) :
    Decidable (KeepsPrevHash id world history input) :=
  inferInstanceAs (Decidable (∀ _ ∈ _, ∀ _ ∈ _, _))

/-! ### Runs -/

/-- The block that a handler has handed to the node, with its share. -/
def submitted (wait : Wait) : Option (AcceptedShare × Transaction × Bytes) :=
  match wait with
  | .submitBlock share coinbase blockHex => some (share, coinbase, blockHex)
  | _ => none

/-- The invariant of a connection. -/
structure BlockInv (host : Externals) (jobs : StratumV1JobsService) (client : StratumV2Client) :
    Prop where
  channels : EveryChannel (ChannelSound host jobs) client
  shares : EveryShare SameHeader client
  submits : ∀ block ∈ carried submitted client, block.1.block = some (some block.2)

section
variable {id : ℕ} {world : Sv2World}

/-- A custom job has the previous block and bits of its own template. -/
theorem channelSound_custom {jobs : StratumV1JobsService} {channel : ChannelState} (jobId : ℕ)
    {data : ExtendedJobData} (h : ChannelSound host jobs channel)
    (hdata : data.prevHash = data.jobTemplate.block.prevHash ∧
      data.nBits = data.jobTemplate.block.bits) :
    ChannelSound host jobs (channel.setExtendedJob jobId data) where
  below := h.below
  merkleRoot_eq := h.merkleRoot_eq
  extended id job hjob := by
    simp only [ChannelState.setExtendedJob] at hjob
    split at hjob
    · cases hjob
      exact hdata
    · exact h.extended id job hjob

/-- A turn keeps channels sound, if a job that is sent without a `SetNewPrevHash` meets a channel
with its previous block and bits. -/
theorem channelSound_turn {env : TurnEnv} {context : Context} {handled : Handled} {turn : Turn}
    (hturn : TurnCase host config env context handled turn)
    (hkeeps : turn.next ≠ .throws → ∀ kept ∈ keptPrevHash? context.client handled,
      kept.1.latestExtendedPrevHash = kept.2.jobTemplate.block.prevHash ∧
        kept.1.latestExtendedNBits = kept.2.jobTemplate.block.bits)
    (h : EveryChannel (ChannelSound host context.jobs) context.client) :
    EveryChannel (ChannelSound host turn.context.jobs) turn.context.client := by
  have hgrow := hturn.jobsGrow.1
  refine channels_turn hturn h (fun _ _ hP hforgets => hP.forgets hgrow hforgets)
    (fun _ => channelSound_new) ?_
  intro channel channel' hP hnext hgives
  have hP' := hP.forgets hgrow (.refl channel)
  have hkeeps := hkeeps hnext
  generalize turn.context.jobs = jobs' at hgives hP' hgrow ⊢
  cases hgives with
  | @standard _ _ _ _ _ _ job coinbase hsends htype hjob hcoinbase =>
    have hid := (MiningJob.fields_create host hjob).1
    have hnext := nextJobId_eq context
    refine ⟨?_, ?_, hP'.extended⟩
    · intro jobId merkleRoot hroot
      simp only [ChannelState.setStandardJob] at hroot
      split at hroot
      · rename_i hjobId
        rw [hjobId, hnext]
        exact Nat.lt_succ_self _
      · exact hP'.below jobId merkleRoot hroot
    · intro jobId merkleRoot hroot job' hjob'
      simp only [ChannelState.setStandardJob] at hroot
      split at hroot
      · -- the new job is the one under its id
        rename_i hjobId
        cases hroot
        rcases StratumV1JobsService.jobs_addJob hjob' with ⟨-, rfl⟩ | ⟨hne, -⟩
        · exact ⟨coinbase, hcoinbase, rfl⟩
        · refine absurd ?_ hne
          rw [hid, hjobId, hnext]
          rfl
      · exact hP'.merkleRoot_eq jobId merkleRoot hroot job' hjob'
  | @extended channelId push after _ hhandled hfound =>
    subst hhandled
    have hdata : (pushedJob channel push).prevHash = push.jobTemplate.block.prevHash ∧
        (pushedJob channel push).nBits = push.jobTemplate.block.bits := by
      simp only [pushedJob]
      cases hsend : push.sendPrevHash with
      | true => exact ⟨rfl, rfl⟩
      | false =>
        refine hkeeps (channel, push) ?_
        simp only [keptPrevHash?, hsend, hfound]
        rfl
    have hset := channelSound_custom push.jobId hP' hdata
    exact ⟨hset.below, hset.merkleRoot_eq, hset.extended⟩
  | custom => exact channelSound_custom _ hP' ⟨rfl, rfl⟩

/-- One step of the service keeps the invariant of a connection. -/
theorem blockInv_step {history : List Sv2Output} (input : Sv2Input)
    (h : ∀ client, world.clients id = some client → BlockInv host world.jobs client)
    (hkeeps : KeepsPrevHash id world history input) :
    ∀ client, (sv2Step host config world input).1.clients id = some client →
      BlockInv host (sv2Step host config world input).1.jobs client := by
  have hcase := sv2Step_cases host config world input
  generalize sv2Step host config world input = step at hcase ⊢
  obtain ⟨world', events⟩ := step
  have hgrow := hcase.jobsGrow.1
  intro client' hclient'
  cases hcase.client_cases id with
  | absent hbefore hafter hevents => cases hafter.symm.trans hclient'
  | connects hbefore hafter hevents =>
    cases hafter.symm.trans hclient'
    constructor
    · intro channelId channel hchannel
      cases hchannel
    · intro share hshare
      cases hshare
    · intro block hblock
      cases hblock
  | @moves client _ hbefore hafter hmoves hevents =>
    cases hafter.symm.trans hclient'
    have hinv := h client hbefore
    refine ⟨hinv.channels.via hmoves.forgets fun _ _ hP hforgets => hP.forgets hgrow hforgets,
      ?_, ?_⟩
    · intro share hshare
      rw [hmoves.carries _ _ rfl fun _ => rfl] at hshare
      exact hinv.shares share hshare
    · intro block hblock
      rw [hmoves.carries _ _ rfl fun _ => rfl] at hblock
      exact hinv.submits block hblock
  | @turns client taken handled origin env turn htakes hturn hgoes hworld hevents =>
    have hinv := h client htakes.client_eq
    subst hworld
    cases (clients_update_self id _).symm.trans hclient'
    have hchannels : EveryChannel (ChannelSound host world.jobs) taken := by
      rw [htakes.taken_eq]
      exact hinv.channels
    have hkept : turn.next ≠ .throws → ∀ kept ∈ keptPrevHash? taken handled,
        kept.1.latestExtendedPrevHash = kept.2.jobTemplate.block.prevHash ∧
          kept.1.latestExtendedNBits = kept.2.jobTemplate.block.bits := by
      rw [htakes.taken_eq]
      intro hnext kept hmem
      rcases hgoes with htaken | ⟨wait, rfl, rfl | hthrows⟩
      · exact hkeeps _ htaken kept hmem
      · cases hmem
      · exact absurd hthrows hnext
    have hleaves := shares_turn (R := SameHeader) hturn
      (fun share hshare => hinv.shares share (htakes.mem_carried rfl rfl (Or.inl hshare)))
      fun channelId channel tuple share _ hfresh =>
        sameHeader_of_acceptsTuple (hchannels channelId channel hfresh.found)
    obtain ⟨hjobs', -, hchannels'⟩ := quiet_endTurn origin turn
    constructor
    · refine (channelSound_turn hturn hkept hchannels).via hchannels'.forgets
        fun channel channel' hP hforgets => ?_
      show ChannelSound host (endTurn origin turn).1.jobs channel'
      rw [hjobs']
      exact hP.forgets (.refl _) hforgets
    · intro share hshare
      rcases mem_carried_endTurn hturn origin rfl (fun _ => rfl) hshare with hold | hnew
      · exact hinv.shares share (htakes.mem_carried rfl rfl (Or.inr hold))
      · exact hleaves.1 share hnew
    · rintro ⟨share, coinbase, blockHex⟩ hblock
      rcases mem_carried_endTurn hturn origin rfl (fun _ => rfl) hblock with hold | hnew
      · exact hinv.submits _ (htakes.mem_carried rfl rfl (Or.inr hold))
      · refine submitBlock_turn hturn ?_
        cases hnext : turn.next with
        | waits wait =>
          rw [hnext] at hnew
          cases wait with
          | submitBlock => cases hnew; rfl
          | _ => cases hnew
        | returns | throws =>
          rw [hnext] at hnew
          cases hnew

end

/-- The found block is the hashed block. In every run in which a job that is sent to the
connection without a `SetNewPrevHash` meets a channel with its template's previous block and bits,
the block that is handed to the node for a share starts with the header that the share was judged
by. -/
theorem found_block_header (host : Externals) (config : Sv2Config) (id : ℕ)
    (inputs : List Sv2Input)
    (hkeeps : (sv2Machine host config).Along (KeepsPrevHash id) .initial [] inputs)
    {client : StratumV2Client}
    (hclient : ((sv2Machine host config).final .initial inputs).clients id = some client)
    {share : AcceptedShare} {coinbase : Transaction} {blockHex : Bytes} {origin : Origin}
    (htask : ⟨.submitBlock share coinbase blockHex, origin⟩ ∈ client.tasks) :
    blockHex.take 80 = share.header := by
  let Inv (world : Sv2World) (_ : List Sv2Output) : Prop :=
    ∀ client, world.clients id = some client → BlockInv host world.jobs client
  have hstart : Inv .initial [] := by
    intro client hclient
    cases hclient
  have hstep : ∀ world history input, Inv world history → KeepsPrevHash id world history input →
      Inv ((sv2Machine host config).step world input).1
        (history ++ ((sv2Machine host config).step world input).2) :=
    fun _ _ input h hkeeps => blockInv_step input h hkeeps
  have hinv := (sv2Machine host config).history_invariant hstep hstart hkeeps client hclient
  have hshare : share ∈ carried Wait.share? client :=
    List.mem_filterMap.mpr ⟨_, htask, rfl⟩
  have hblock : (share, coinbase, blockHex) ∈ carried submitted client :=
    List.mem_filterMap.mpr ⟨_, htask, rfl⟩
  exact hinv.shares share hshare coinbase blockHex (hinv.submits _ hblock)

end

/-! ### A template while a channel is being opened -/

namespace Sv2Sample

/-- Every header hashes to `2 ^ 100`, which is enough for a block. -/
def blockHost : Externals := { host with hash256 := fun _ => Digest.ofNat (2 ^ 100) }

def openExtended : Sv2Message :=
  .openExtendedMiningChannel
    { requestId := 1, userIdentity := "A.rig", nominalHashRate := none,
      maxTarget := List.replicate 32 0xff, minExtranonceSize := 0 }

def extendedSubmission (channelId jobId : UInt32) : Sv2Message :=
  .submitSharesExtended
    { channelId, sequenceNumber := 0, jobId, nonce := 5, ntime := 1700000000,
      version := 0x20000000, extranonce := List.replicate 10 0 }

/-- Connection 0 opens an extended channel and has its jobs. -/
def opened : List Sv2Input :=
  [.connect 0 "s" .solo, .template (template 7 true) 1700000000000, .data 0 [openExtended]]
    ++ turns 20

/-- A second channel has its reply but no job when the template is refreshed; the loop over the
channels sends it job 4, and a share on job 4 makes a block. -/
def race : List Sv2Input :=
  opened ++ [.data 0 [openExtended], .resume 0 0 env, .resume 0 0 env,
      .template (template 7 false) 1700000060000]
    ++ List.replicate 5 (.resume 0 1 env)
    ++ [.data 0 [extendedSubmission 2 4], .resume 0 1 env, .resume 0 1 env]

/-- A handler that has handed a block to the node, with the block's header and the share's. -/
def headers? (task : Task) : Option (Bytes × Bytes) :=
  match task.wait with
  | .submitBlock share _ blockHex => some (blockHex.take 80, share.header)
  | _ => none

end Sv2Sample

open Sv2Sample in
/-- The share on the job without a previous block is hashed over a header that its block does not
have. -/
theorem not_found_block_header_race :
    ¬ ∀ client, ((sv2Machine blockHost config).final .initial race).clients 0 = some client →
      ∀ share coinbase blockHex origin,
        (⟨.submitBlock share coinbase blockHex, origin⟩ : Task) ∈ client.tasks →
          blockHex.take 80 = share.header := by
  intro h
  have hcheck : (((sv2Machine blockHost config).final .initial race).clients 0).any
      (fun client => client.tasks.any fun task =>
        (headers? task).any fun headers => headers.1 ≠ headers.2) = true := by
    decide +kernel
  obtain ⟨client, hclient, hany⟩ := (Option.any_eq_true _ _).mp hcheck
  obtain ⟨⟨wait, origin⟩, htask, hheaders⟩ := List.any_eq_true.mp hany
  cases wait with
  | submitBlock share coinbase blockHex =>
    have hne : blockHex.take 80 ≠ share.header := by simpa [headers?] using hheaders
    exact hne (h client hclient share coinbase blockHex origin htask)
  | _ => cases hheaders

open Sv2Sample in
theorem found_block_header_sample :
    ∃ client, ((sv2Machine blockHost config).final .initial
        (opened ++ [.data 0 [extendedSubmission 1 2]] ++ turns 2)).clients 0 = some client ∧
      ∃ share coinbase blockHex origin,
        (⟨.submitBlock share coinbase blockHex, origin⟩ : Task) ∈ client.tasks ∧
          blockHex.take 80 = share.header := by
  have hcheck : (((sv2Machine blockHost config).final .initial
      (opened ++ [.data 0 [extendedSubmission 1 2]] ++ turns 2)).clients 0).any
      (fun client => client.tasks.any fun task => (headers? task).isSome) = true := by
    decide +kernel
  obtain ⟨client, hclient, hany⟩ := (Option.any_eq_true _ _).mp hcheck
  obtain ⟨⟨wait, origin⟩, htask, hheaders⟩ := List.any_eq_true.mp hany
  cases wait with
  | submitBlock share coinbase blockHex =>
    exact ⟨client, hclient, share, coinbase, blockHex, origin, htask,
      found_block_header blockHost config 0 _ (by decide +kernel) hclient htask⟩
  | _ => cases hheaders

end PublicPool.Proofs
