import PublicPool.Proofs.Sv2.Identity
import PublicPool.Proofs.Sv2.FoundBlock

/-!
# `PublicPool.Proofs.Sv2.SoloWork`: the address that solo work pays

In solo mode a job of the pool pays the address of the connection that it is built for, and a
custom job is installed only if it does. A turn gives a channel no other work: `soloChannels_turn`
and, for an extended job whose frame is still being written, `soloPush_next`. The payout mode of a
connection never changes.
-/

set_option autoImplicit false

namespace PublicPool.Proofs

open Sv2
open Sv2.Context

/-! ### What pays an address -/

/-- The coinbase of a job pays an address, and nothing else but the commitment without a value. -/
def PaysSolo (host : Externals) (network : Network) (address : String) (coinbase : Transaction) :
    Prop :=
  ∃ value script commitment, getPaymentScript host network address = some script ∧
    coinbase.outs = [{ value, script }, commitment] ∧ commitment.value = 0

/-- The coinbase of a custom job, with zeros for the extranonce, pays an address and nobody else. -/
def PaysCustom (host : Externals) (network : Network) (address : String)
    (coinbasePrefix coinbaseSuffix : Bytes) : Prop :=
  ∃ extranonceSize coinbase value scriptPubKey,
    host.toOutputScript address network = some scriptPubKey ∧
    host.fromBuffer (coinbasePrefix ++ List.replicate extranonceSize 0 ++ coinbaseSuffix)
      = some coinbase ∧
    payoutOutputsOf coinbase = [{ value, scriptPubKey }]

/-- The jobs of a channel pay an address. -/
structure SoloJobs (host : Externals) (network : Network) (jobs : StratumV1JobsService)
    (address : String) (channel : ChannelState) : Prop where
  standard : ∀ jobId merkleRoot, channel.jobIdToMerkleRoot jobId = some merkleRoot →
    ∀ job, jobs.getJobById (Js.toString16 jobId) = some job →
      PaysSolo host network address job.coinbaseTransaction
  extended : ∀ jobId job, channel.extendedJobs jobId = some job → job.workProtocol ≠ .sv2Jdp →
    job.coinbaseSuffix = Js.bufferFromHex job.miningJob.coinbasePart2 ∧
      PaysSolo host network address job.miningJob.coinbaseTransaction
  custom : ∀ jobId job, channel.extendedJobs jobId = some job → job.workProtocol = .sv2Jdp →
    PaysCustom host network address job.coinbasePrefix job.coinbaseSuffix

section
variable {host : Externals} {config : Sv2Config}

/-! ### Jobs that pay an address -/

variable {address : String} {jobTemplate : JobTemplate} {network : Network}

/-- A pool job in solo mode pays the address it was built for. -/
theorem paysSolo_of_create {jobId : String} {now : ℕ} {job : MiningJob}
    (h : MiningJob.create host network jobId (getPayoutInformation .solo jobTemplate address)
      jobTemplate none now = some job) : PaysSolo host network address job.coinbaseTransaction := by
  obtain ⟨-, -, -, -, -, hcoinbase⟩ := MiningJob.fields_create host h
  simp only [getPayoutInformation, jobCoinbase, createCoinbaseTransaction, payoutOutputsFor,
    List.mapM_cons, List.mapM_nil, Option.bind_eq_bind, Option.bind_eq_some_iff, Option.pure_def,
    Option.some.injEq] at hcoinbase
  obtain ⟨unsigned, ⟨outs, ⟨paid, ⟨output, ⟨script, hscript, houtput⟩, tail, rfl, rfl⟩, houts⟩,
    rfl⟩, hjob⟩ := hcoinbase
  cases houts
  split at houtput
  · cases houtput
    rw [← hjob]
    exact ⟨_, script, _, hscript, rfl, rfl⟩
  · cases houtput

/-- A custom job that is valid in solo mode pays the address of its connection. -/
theorem paysCustom_of_valid {coinbasePrefix coinbaseSuffix : Bytes} {extranonceSize : ℕ}
    {coinbaseValue : ℤ} (h : validateCoinbasePayoutOutputs host network
      (coinbasePrefix ++ List.replicate extranonceSize 0 ++ coinbaseSuffix)
      (getPayoutInformation .solo jobTemplate address) coinbaseValue = some none) :
    PaysCustom host network address coinbasePrefix coinbaseSuffix := by
  unfold validateCoinbasePayoutOutputs at h
  split at h
  · cases h
  · rename_i coinbase hcoinbase
    split at h
    · cases h
    · rename_i expectedOutputs hexpected
      split at h
      · rename_i heq
        simp only [buildExpectedPayoutOutputs, getPayoutInformation, List.mapM_cons, List.mapM_nil,
          Option.bind_eq_bind, Option.bind_eq_some_iff, Option.pure_def, Option.some.injEq]
          at hexpected
        obtain ⟨outs, ⟨output, ⟨scriptPubKey, hscript, rfl⟩, tail, rfl, rfl⟩, houts⟩ := hexpected
        cases houts
        exact ⟨extranonceSize, coinbase, _, scriptPubKey, hscript, hcoinbase, heq⟩
      · cases h

/-- An extended job that is being sent pays the address of its connection. -/
def SoloPush (host : Externals) (network : Network) (address : Option String)
    (push : ExtendedPush) : Prop :=
  ∃ known, address = some known ∧
    push.coinbaseSuffix = Js.bufferFromHex push.miningJob.coinbasePart2 ∧
    PaysSolo host network known push.miningJob.coinbaseTransaction

/-- What a channel was given pays the address of its connection. -/
structure SoloChannel (host : Externals) (network : Network) (jobs : StratumV1JobsService)
    (address : Option String) (channel : ChannelState) : Prop where
  below : ∀ jobId merkleRoot, channel.jobIdToMerkleRoot jobId = some merkleRoot →
    jobId < jobs.latestJobId
  pays : ∀ known ∈ address, SoloJobs host network jobs known channel

section
variable {network : Network} {jobs jobs' : StratumV1JobsService} {address : Option String}
  {channel channel' : ChannelState}

theorem SoloChannel.forgets (h : SoloChannel host network jobs address channel)
    (hgrow : JobsGrow jobs jobs') (hforgets : Forgets channel channel') :
    SoloChannel host network jobs' address channel' where
  below jobId merkleRoot hroot :=
    (h.below jobId merkleRoot (hforgets.merkleRoots _ _ hroot)).trans_le hgrow.counter
  pays known hknown :=
    { standard := fun jobId merkleRoot hroot job hjob => by
        have hroot' := hforgets.merkleRoots jobId merkleRoot hroot
        exact (h.pays known hknown).standard jobId merkleRoot hroot' job
          (hgrow.before jobId (h.below jobId merkleRoot hroot') job hjob)
      extended := fun jobId job' hjob' hpool => by
        obtain ⟨job, retiredAt, hjob, rfl, -⟩ := hforgets.extendedJobs jobId job' hjob'
        exact (h.pays known hknown).extended jobId job hjob hpool
      custom := fun jobId job' hjob' hdeclared => by
        obtain ⟨job, retiredAt, hjob, rfl, -⟩ := hforgets.extendedJobs jobId job' hjob'
        exact (h.pays known hknown).custom jobId job hjob hdeclared }

theorem soloChannel_new (h : IsNew channel) : SoloChannel host network jobs address channel where
  below jobId merkleRoot hroot := by
    rw [h.merkleRoots] at hroot
    cases hroot
  pays known _ :=
    { standard := fun jobId merkleRoot hroot => by
        rw [h.merkleRoots] at hroot
        cases hroot
      extended := fun jobId job hjob => by
        rw [h.extendedJobs] at hjob
        cases hjob
      custom := fun jobId job hjob => by
        rw [h.extendedJobs] at hjob
        cases hjob }

theorem SoloChannel.setExtendedJob (h : SoloChannel host network jobs address channel)
    {jobId : ℕ} {data : ExtendedJobData}
    (hpool : data.workProtocol ≠ .sv2Jdp → ∀ known ∈ address,
      data.coinbaseSuffix = Js.bufferFromHex data.miningJob.coinbasePart2 ∧
        PaysSolo host network known data.miningJob.coinbaseTransaction)
    (hcustom : data.workProtocol = .sv2Jdp → ∀ known ∈ address,
      PaysCustom host network known data.coinbasePrefix data.coinbaseSuffix) :
    SoloChannel host network jobs address (channel.setExtendedJob jobId data) where
  below := h.below
  pays known hknown :=
    { standard := (h.pays known hknown).standard
      extended := fun id job hjob hprotocol => by
        simp only [ChannelState.setExtendedJob] at hjob
        split at hjob
        · cases hjob
          exact hpool hprotocol known hknown
        · exact (h.pays known hknown).extended id job hjob hprotocol
      custom := fun id job hjob hprotocol => by
        simp only [ChannelState.setExtendedJob] at hjob
        split at hjob
        · cases hjob
          exact hcustom hprotocol known hknown
        · exact (h.pays known hknown).custom id job hjob hprotocol }

/-- The end of sending an extended job. -/
theorem SoloChannel.finishPush (h : SoloChannel host network jobs address channel)
    {push : ExtendedPush} (hpush : SoloPush host network address push) :
    SoloChannel host network jobs address (finishPush push channel) := by
  obtain ⟨known, rfl, hsuffix, hpays⟩ := hpush
  have hset : SoloChannel host network jobs (some known)
      (channel.setExtendedJob push.jobId (pushedJob channel push)) := by
    refine h.setExtendedJob (fun _ known' hknown => ?_) fun hprotocol => by cases hprotocol
    cases hknown
    exact ⟨hsuffix, hpays⟩
  exact ⟨hset.below, fun known hknown =>
    ⟨(hset.pays known hknown).standard, (hset.pays known hknown).extended,
      (hset.pays known hknown).custom⟩⟩

end

section
variable {context : Context} {handled : Handled}

/-- Every channel of a connection pays the address, which is known once there are channels. -/
def EverySolo (host : Externals) (config : Sv2Config) (context : Context) : Prop :=
  EveryChannel (fun channel => context.client.address.isSome = true ∧
    SoloChannel host config.network context.jobs context.client.address channel) context.client

/-- A custom job is checked against the address of the connection. -/
theorem soloChannels_installCustomJob (hmode : context.client.payoutMode = .solo)
    (h : EverySolo host config context) (message : Sv2SetCustomMiningJob)
    (latestTemplate : JobTemplate) (now : ℕ) :
    EveryChannel (SoloChannel host config.network
        (context.installCustomJob host config message latestTemplate now).context.jobs
        context.client.address)
      (context.installCustomJob host config message latestTemplate now).context.client := by
  have hsame : EveryChannel (SoloChannel host config.network context.jobs context.client.address)
      context.client := fun id channel hchannel => (h id channel hchannel).2
  unfold installCustomJob
  split
  · rename_i channel address hchannel haddress
    simp only
    split
    · exact hsame
    · exact hsame
    · rename_i hvalid
      rw [hmode] at hvalid
      split
      · exact hsame
      · rename_i job hjob
        have hgrow := jobsGrow_addJob (MiningJob.fields_create host hjob).1
        refine h.modify (fun channel hP => hP.2.forgets hgrow (.refl channel)) ?_
        intro channel' hchannel'
        refine ((h _ channel' hchannel').2.forgets hgrow (.refl channel')).setExtendedJob
          (fun hprotocol => absurd rfl hprotocol) fun _ known hknown => ?_
        cases haddress.symm.trans hknown
        exact paysCustom_of_valid hvalid
  · exact hsame

variable {env : TurnEnv} {input : Sv2Input} {turn : Turn}

/-- A turn keeps the jobs of solo channels to the address. -/
theorem soloChannels_turn (hruns : RunsTurn host config context input handled turn)
    (hturn : TurnCase host config env context handled turn)
    (hmode : context.client.payoutMode = .solo) (h : EverySolo host config context)
    (haddress : ∀ known, context.client.address = some known →
      turn.context.client.address = some known)
    (hpush : ∀ push ∈ Handled.carried? Wait.push? handled,
      SoloPush host config.network context.client.address push) :
    EveryChannel (SoloChannel host config.network turn.context.jobs turn.context.client.address)
      turn.context.client := by
  have hsame (channel : ChannelState) (hP : context.client.address.isSome = true ∧
      SoloChannel host config.network context.jobs context.client.address channel) :
      turn.context.client.address = context.client.address := by
    obtain ⟨known, hknown⟩ := Option.isSome_iff_exists.mp hP.1
    rw [hknown, haddress known hknown]
  by_cases hcustom : ∃ message, handled = .wait (.customTemplate message)
  · obtain ⟨message, rfl⟩ := hcustom
    have hkept (id : ℕ) (channel : ChannelState)
        (hchannel : context.client.channels.get? id = some channel) :
        SoloChannel host config.network context.jobs context.client.address channel :=
      (h id channel hchannel).2
    cases hruns with
    | resumes _ _ env =>
      simp only [turn]
      split
      · exact hkept
      · simp only [resume, withTemplate]
        split
        · rename_i jobTemplate hlatest
          have hkeeps : (context.installCustomJob host config message jobTemplate
              env.now).context.client.address = context.client.address :=
            congrArg Prod.fst (identity_installCustomJob message jobTemplate env.now)
          rw [hkeeps]
          exact soloChannels_installCustomJob hmode h message jobTemplate env.now
        · exact hkept
  · have hgrow := hturn.jobsGrow.1
    refine channels_turn hturn h ?_ (fun _ => soloChannel_new) ?_
    · intro channel channel' hP hforgets
      rw [hsame channel hP]
      exact hP.2.forgets hgrow hforgets
    · intro channel channel' hP hnext hgives
      have hP' := hP.2.forgets hgrow (.refl channel)
      rw [hsame channel hP]
      generalize turn.context.jobs = jobs' at hgives hP' ⊢
      cases hgives with
      | @standard _ _ address _ _ _ job _ hsends _ hjob =>
        have hid := (MiningJob.fields_create host hjob).1
        have hnextId := nextJobId_eq context
        have hpays : PaysSolo host config.network address job.coinbaseTransaction := by
          rw [CreatesJob, hmode] at hjob
          exact paysSolo_of_create hjob
        refine ⟨?_, fun known hknown => ⟨?_, (hP'.pays known hknown).extended,
          (hP'.pays known hknown).custom⟩⟩
        · intro jobId merkleRoot hroot
          simp only [ChannelState.setStandardJob] at hroot
          split at hroot
          · rename_i hjobId
            rw [hjobId, hnextId]
            exact Nat.lt_succ_self _
          · exact hP'.below jobId merkleRoot hroot
        · intro jobId merkleRoot hroot job' hjob'
          simp only [ChannelState.setStandardJob] at hroot
          split at hroot
          · -- the job under the new id is the one that was just built
            rename_i hjobId
            rcases StratumV1JobsService.jobs_addJob hjob' with ⟨-, rfl⟩ | ⟨hne, -⟩
            · cases hsends.hasAddress.symm.trans hknown
              exact hpays
            · refine absurd ?_ hne
              rw [hid, hjobId, hnextId]
              rfl
          · exact (hP'.pays known hknown).standard jobId merkleRoot hroot job' hjob'
      | @extended channelId push after _ hhandled =>
        subst hhandled
        exact hP'.finishPush (hpush push rfl)
      | custom hhandled => exact absurd ⟨_, hhandled⟩ hcustom

/-- An extended job that a turn begins to send pays the address. -/
theorem soloPush_next (hturn : TurnCase host config env context handled turn)
    (hmode : context.client.payoutMode = .solo) {push : ExtendedPush}
    (hpush : push ∈ Next.carried? Wait.push? turn.next) :
    SoloPush host config.network context.client.address push := by
  cases hturn with
  | quiet _ _ _ hquiet =>
    rw [carried?_eq_none hquiet.push] at hpush
    cases hpush
  | subscribes _ hselection hsubscription =>
    rw [afterJob_subscribes hselection hsubscription] at hpush
    cases hpush
  | beginsExtended hsends _ hjob =>
    cases hpush
    rw [CreatesJob, hmode] at hjob
    exact ⟨_, hsends.hasAddress, rfl, paysSolo_of_create hjob⟩
  | remembers _ _ hleft =>
    rcases hleft with rfl | rfl
    · cases hpush
    · cases hpush
  | carries _ _ hshare =>
    have hnone : Wait.push? _ = none := push?_of_share? hshare
    simp only [Next.carried?, hnone] at hpush
    cases hpush
  | _ => cases hpush

/-! ### The payout mode -/

theorem payoutMode_closeSocket (context : Context) :
    context.closeSocket.client.payoutMode = context.client.payoutMode :=
  (quiet_closeSocket context).1.payoutMode

theorem payoutMode_onTemplate (client : StratumV2Client) (jobTemplate : JobTemplate) (now : ℕ) :
    (client.onTemplate jobTemplate now).payoutMode = client.payoutMode := by
  simp only [StratumV2Client.onTemplate, StratumV2Client.clearChannels]
  split
  · rfl
  · rfl

/-- A connection keeps its payout mode in a turn. -/
theorem TurnCase.payoutMode (h : TurnCase host config env context handled turn) :
    turn.context.client.payoutMode = context.client.payoutMode := by
  cases h with
  | quiet hquiet => exact hquiet.payoutMode
  | opens hopens => exact hopens.payoutMode
  | subscribes _ hselection hsubscription =>
    rw [afterJob_subscribes hselection hsubscription]
    show (subscribing context.client _ _).payoutMode = _
    unfold subscribing
    split
    · exact payoutMode_onTemplate ..
    · rfl
  | _ => rfl

theorem payoutMode_endTurn (origin : Origin) (turn : Turn) :
    (endTurn origin turn).1.client.payoutMode = turn.context.client.payoutMode := by
  simp only [endTurn]
  split
  · exact payoutMode_closeSocket _
  · rfl

theorem Moved.payoutMode {world : Sv2World} {client client' : StratumV2Client}
    (h : Moved world input client client') : client'.payoutMode = client.payoutMode := by
  cases h with
  | stays => rfl
  | closes => exact payoutMode_closeSocket _
  | template =>
    unfold StratumV2Client.receiveTemplate
    split
    · exact payoutMode_onTemplate ..
    · rfl
  | data =>
    unfold StratumV2Client.receive
    split
    · rfl
    · rfl

end

end

end PublicPool.Proofs
