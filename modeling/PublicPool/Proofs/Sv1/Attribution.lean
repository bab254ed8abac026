import PublicPool.Proofs.Sv1.Steps
import PublicPool.TxCodec

/-!
# `PublicPool.Proofs.Sv1.Attribution`: whom a Stratum V1 share is recorded for

A job remembers the last recipient of its coinbase as the address it was built for. In solo
mode the list has one recipient, the miner. In pplns mode it is the payout list of the
template, and its last entry is whoever stands there. `recorded_for_identity_in_force` is what
remains: every share and block goes to the identity in force when its job was built, in every
run whose pplns jobs are built for lists that happen to end with that address.
-/

set_option autoImplicit false

namespace PublicPool.Proofs

open Sv1 Sv1.StratumV1Client
open Lib (Machine)

section
variable (host : Externals) (config : Sv1Config)

/-- A share or a block is recorded for the identity that was in force where and when its job
was built. -/
def Attributed (history : List (ℕ × Sv1Event)) : Sv1Event → Prop
  | .shareRecorded share _ job _ =>
    ∃ built ∈ history, built.2 = .jobBuilt job ⟨share.address, share.clientName⟩
  | .blockSaved block job =>
    ∃ built ∈ history, built.2 = .jobBuilt job ⟨block.minerAddress, block.worker⟩
  | _ => True

instance (history : List (ℕ × Sv1Event)) : DecidablePred (Attributed history) := fun event => by
  rcases event with _ | _ <;> unfold Attributed <;> infer_instance

/-- Jobs are built in solo mode, or for a template without a payout list, or for one whose last
recipient is the address in force. -/
def LastPaysInForce (world : Sv1World) (_ : List (ℕ × Sv1Event)) : Sv1Input → Prop
  | .sendJob id k _ _ _ =>
    ∀ client ∈ world.clients id, ∀ jobTemplate ∈ client.pendingJobs[k]?,
      ∀ authorization ∈ client.clientAuthorization, client.payoutMode = .pplns →
        ∀ output ∈ (jobTemplate.blockData.payoutOutputs.getD []).getLast?,
          output.address = (client.inForce authorization).address
  | _ => True

instance (world : Sv1World) (history : List (ℕ × Sv1Event)) :
    DecidablePred (LastPaysInForce world history) := fun input => by
  rcases input with _ | _ <;> unfold LastPaysInForce <;> infer_instance

variable {jobTemplate : JobTemplate} {history : List (ℕ × Sv1Event)} {event : Sv1Event}

theorem getLast?_getPayoutInformation {payoutMode : PayoutMode} {address : String}
    (h : payoutMode = .pplns →
      ∀ output ∈ (jobTemplate.blockData.payoutOutputs.getD []).getLast?,
        output.address = address) :
    (getPayoutInformation payoutMode jobTemplate address).getLast?.map (·.address)
      = some address := by
  unfold getPayoutInformation
  split
  · rename_i output outputs houtputs
    rw [houtputs] at h
    have hlast := List.getLast?_eq_some_getLast (List.cons_ne_nil output outputs)
    rw [hlast, Option.map_some, h rfl _ hlast]
  · rfl

/-- A job carries the identity it was built for. -/
def CarriesIdentity (history : List (ℕ × Sv1Event)) (job : MiningJob) : Prop :=
  ∃ owner inForce, (owner, .jobBuilt job inForce) ∈ history ∧
    job.payoutAddress = some inForce.address ∧ job.payoutWorker = some inForce.workerName

structure AttributionInv (world : Sv1World) (history : List (ℕ × Sv1Event)) : Prop where
  jobs : ∀ id job, world.service.jobs id = some job → CarriesIdentity history job
  events : ∀ event ∈ history, Attributed history event.2

theorem Attributed.append (h : Attributed history event) (more : List (ℕ × Sv1Event)) :
    Attributed (history ++ more) event := by
  cases event with
  | shareRecorded share submission job header =>
    obtain ⟨built, hbuilt, hjob⟩ := h
    exact ⟨built, List.mem_append_left _ hbuilt, hjob⟩
  | blockSaved block job =>
    obtain ⟨built, hbuilt, hjob⟩ := h
    exact ⟨built, List.mem_append_left _ hbuilt, hjob⟩
  | _ => trivial

/-- A record of a job that carries its identity is attributed. -/
theorem attributed_of_isRecordOf {client : StratumV1Client} {submission : MiningSubmitMessage}
    {job : MiningJob} {header : Bytes} (hjob : CarriesIdentity history job)
    (h : IsRecordOf host client submission job jobTemplate header event) :
    Attributed history event := by
  obtain ⟨owner, inForce, hbuilt, haddress, hworker⟩ := hjob
  have hidentity : recordedIdentity (client.clientAuthorization.getD ⟨"", ""⟩) job = inForce := by
    simp only [recordedIdentity, haddress, hworker, Option.getD_some]
  cases event with
  | shareRecorded share submission' job' header' =>
    obtain ⟨⟨blockSubmissionResult, rfl⟩, -, rfl, -⟩ := h
    refine ⟨_, hbuilt, ?_⟩
    simp only [shareRecord, hidentity]
  | blockSaved block job' =>
    obtain ⟨hblock, rfl⟩ := h
    exact ⟨_, hbuilt, by rw [← hblock, hidentity]⟩
  | _ => trivial

theorem attributionInv_step {world : Sv1World} {input : Sv1Input} (h : AttributionInv world history)
    (hcond : LastPaysInForce world history input) :
    AttributionInv (sv1Step host config world input).1
      (history ++ (sv1Step host config world input).2) := by
  have happend (job : MiningJob) (hjob : CarriesIdentity history job) :
      CarriesIdentity (history ++ (sv1Step host config world input).2) job := by
    obtain ⟨owner, inForce, hbuilt, hfields⟩ := hjob
    exact ⟨owner, inForce, List.mem_append_left _ hbuilt, hfields⟩
  constructor
  · intro id job hjob
    rcases sv1Step_service host config world input with
      hsame | ⟨template, now, -, hpublish⟩ |
        ⟨owner, k, _, _, now, client, jobTemplate, authorization, job', rfl, hbuilds, hadd, hevents⟩
    · rw [hsame] at hjob
      exact happend job (h.jobs id job hjob)
    · rw [hpublish] at hjob
      exact happend job (h.jobs id job (StratumV1JobsService.jobs_publish hjob).1)
    · rw [hadd] at hjob
      rcases StratumV1JobsService.jobs_addJob hjob with ⟨-, rfl⟩ | ⟨-, hjob⟩
      · obtain ⟨-, -, -, haddress, hworker, -⟩ := MiningJob.fields_create host hbuilds.create_eq
        refine ⟨owner, client.inForce authorization, ?_, ?_, hworker⟩
        · rw [hevents]
          exact List.mem_append_right _ (List.mem_singleton.mpr rfl)
        · rw [haddress]
          exact getLast?_getPayoutInformation (hcond client hbuilds.client_eq jobTemplate
            hbuilds.pending_eq authorization hbuilds.authorization_eq)
      · exact happend job (h.jobs id job hjob)
  · rintro ⟨id, event⟩ hevent
    rcases List.mem_append.mp hevent with hold | hnew
    · exact (h.events _ hold).append _
    · rcases sv1Step_records host config world hnew with
        hreply | ⟨_, _, _, _, _, _, _, _, -, -, rfl⟩ |
          ⟨_, _, _, client, submission, job, jobTemplate, header, -, haccepts, hrecord⟩
      · cases event <;> first | exact trivial | cases hreply
      · trivial
      · obtain ⟨hjob, -⟩ := judgeSubmission_eq_accepted haccepts.verdict_eq
        exact attributed_of_isRecordOf host (happend job (h.jobs _ job hjob)) hrecord

end

/-! ### A payout list that ends with another miner -/

namespace Sv1Sample

/-- Every header hashes to `2 ^ 200`: enough for a share of the first difficulty, not for a block
at the difficulty of `template`. -/
def host : Externals :=
  Externals.reference (fun _ => Digest.ofNat (2 ^ 200))
    [("A", 0x00 :: 0x14 :: List.replicate 20 1), ("B", 0x00 :: 0x14 :: List.replicate 20 2)]

def config : Sv1Config where
  network := .mainnet
  minimumDifficulty := none

/-- A template with a payout list for `A` and the given recipient. -/
def template (last : String) : JobTemplate where
  block :=
    { version := 0x20000000
      prevHash := List.replicate 32 7
      bits := 0x17034219
      timestamp := 1700000000
      witnessCommit := List.replicate 32 9
      transactions := [] }
  merkleBranch := []
  blockData :=
    { id := ""
      creation := 0
      coinbasevalue := 5000000000
      networkDifficulty := calculateNetworkDifficulty 0x17034219
      height := 800000
      clearJobs := true
      payoutSnapshotId := some 1
      payoutOutputs := some
        [{ address := "A", percent := some 60, amountSats := some 3000000000 },
          { address := last, percent := some 40, amountSats := some 2000000000 }]
      transactions := []
      sigoplimit := none
      sizelimit := none
      weightlimit := none }

/-- A submission on the job with the given id. -/
def submission (jobId extraNonce2 nonce : String) : List JsonValue :=
  [.text "A.rig", .text jobId, .text extraNonce2, .text "6553f101", .text nonce]

/-- The connection `id` subscribes and authorizes as `user`. -/
def login (id : ℕ) (payoutMode : PayoutMode) (user : String) : List Sv1Input :=
  [.connect id payoutMode .sv1, .subscribe id "0a0b0c0d", .authorize id user none,
    .subscribeTemplates id]

/-- `A` mines a share in pplns mode, on a template whose payout list ends with `last`. -/
def run (last : String) : List Sv1Input :=
  login 0 .pplns "A.rig" ++
    [.template (template last) 1700000000000,
      .sendJob 0 0 true true 1700000000001,
      .submit 0 (submission "1" "0000000000000001" "00000005") none none]

/-- Whether a run records a share. -/
def recordsShare (history : List (ℕ × Sv1Event)) : Bool :=
  history.any fun
    | (_, .shareRecorded ..) => true
    | _ => false

end Sv1Sample

end PublicPool.Proofs
