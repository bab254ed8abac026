import PublicPool.Proofs.Sv1.Attribution

/-!
# `PublicPool.Proofs.Sv1.CrossMode`: what the coinbase of a credited share pays

A share is accounted under the mode of the connection that submits it, but its coinbase is the
one of the job it names, and any connection may name any live job. `credited_for_own_coinbase`
holds in every run in which the accepted submissions of a connection name jobs that no other
connection built: a pplns share on a template with a payout list then pays that list, and a
solo share pays the miner it is recorded for.
-/

set_option autoImplicit false

namespace PublicPool.Proofs

open Sv1 Sv1.StratumV1Client
open Lib (Machine)

section
variable (host : Externals) (network : Network)

/-! ### The outputs of a job's coinbase -/

/-- The outputs a coinbase has when it pays a list of recipients: the script of each with its
amount, what the amounts leave of the reward added to the first, and the witness commitment. -/
def expectedOutputs (payouts : List AddressObject) (jobTemplate : JobTemplate) :
    Option (List TxOutput) :=
  let reward := jobTemplate.blockData.coinbasevalue
  let amounts := payouts.map (·.amount reward)
  (payouts.mapM fun recipient => getPaymentScript host network recipient.address).map
    fun scripts =>
      List.zipWith TxOutput.mk (amounts.modifyHead (· + (reward - amounts.sum))) scripts
        ++ [witnessCommitmentOutput host jobTemplate.block.witnessCommit]

/-- The coinbase pays the recipients, and nobody else. -/
def PaysList (payouts : List AddressObject) (jobTemplate : JobTemplate)
    (coinbase : Transaction) : Prop :=
  expectedOutputs host network payouts jobTemplate = some coinbase.outs

instance (payouts : List AddressObject) (jobTemplate : JobTemplate) :
    DecidablePred (PaysList host network payouts jobTemplate) := fun _ =>
  inferInstanceAs (Decidable (_ = _))

/-- The outputs of the recipients one by one, before the rest of the reward is handed out. -/
theorem mapM_outputs {addresses : List AddressObject} {reward : ℤ} {outs : List TxOutput}
    (h : (addresses.mapM fun recipient => do
      let script ← getPaymentScript host network recipient.address
      if isSatoshi (recipient.amount reward) then
        return ({ value := recipient.amount reward, script } : TxOutput)
      else none) = some outs) :
    (addresses.mapM fun recipient => getPaymentScript host network recipient.address)
        = some (outs.map (·.script)) ∧
      outs.map (·.value) = addresses.map (·.amount reward) := by
  induction addresses generalizing outs with
  | nil =>
    simp only [List.mapM_nil, Option.pure_def, Option.some.injEq] at h
    subst h
    exact ⟨rfl, rfl⟩
  | cons recipient rest ih =>
    simp only [List.mapM_cons, Option.bind_eq_bind, Option.bind_eq_some_iff, Option.pure_def,
      Option.some.injEq] at h ⊢
    obtain ⟨output, ⟨script, hscript, hamount⟩, tail, htail, rfl⟩ := h
    obtain ⟨hscripts, hvalues⟩ := ih htail
    split at hamount
    · cases hamount
      exact ⟨⟨script, hscript, _, hscripts, rfl⟩, by simp only [List.map_cons, hvalues]⟩
    · cases hamount

theorem zipWith_mk_outputs (outs : List TxOutput) :
    List.zipWith TxOutput.mk (outs.map (·.value)) (outs.map (·.script)) = outs := by
  induction outs with
  | nil => rfl
  | cons output outs ih => simp only [List.map_cons, List.zipWith_cons_cons, ih]

variable {payouts : List AddressObject} {coinbase : Transaction}

/-- The coinbase of a job pays its payout list. -/
theorem paysList_jobCoinbase {jobTemplate : JobTemplate}
    (h : jobCoinbase host network payouts jobTemplate = some coinbase) :
    PaysList host network payouts jobTemplate coinbase := by
  simp only [jobCoinbase, createCoinbaseTransaction, payoutOutputsFor, Option.bind_eq_bind,
    Option.bind_eq_some_iff, Option.pure_def, Option.some.injEq] at h
  obtain ⟨unsigned, ⟨paid, ⟨outs, houts, hpaid⟩, rfl⟩, rfl⟩ := h
  obtain ⟨hscripts, hvalues⟩ := mapM_outputs host network houts
  simp only [PaysList, expectedOutputs, hscripts, ← hvalues, Option.map_some, Option.some.injEq]
  cases outs with
  | nil => cases hpaid
  | cons first rest =>
    simp only [Option.some.injEq] at hpaid
    subst hpaid
    simp only [List.map_cons, List.modifyHead_cons, List.zipWith_cons_cons, zipWith_mk_outputs]

/-- Refreshing a template changes nothing about the payouts. -/
theorem paysList_refreshes {t t' : JobTemplate} (ht : Refreshes t t')
    (h : PaysList host network payouts t coinbase) : PaysList host network payouts t' coinbase := by
  obtain ⟨timestamp, clearJobs, rfl⟩ := ht
  exact h

end

/-! ### Credit and coinbase -/

section
variable (host : Externals) (config : Sv1Config)

/-- The event of building a job. -/
def IsBuildOf (job : MiningJob) : Sv1Event → Prop
  | .jobBuilt job' _ => job' = job
  | _ => False

instance (job : MiningJob) : DecidablePred (IsBuildOf job) := fun event => by
  rcases event with _ | _ <;> unfold IsBuildOf <;> infer_instance

/-- What an accepted share is mined on. -/
def acceptedJob : SubmissionVerdict → Option MiningJob
  | .accepted job _ _ => some job
  | _ => none

/-- A submission that would be accepted names no job of another connection. -/
def NamesOwnJob (world : Sv1World) (history : List (ℕ × Sv1Event)) : Sv1Input → Prop
  | .submit id params _ _ =>
    ∀ client ∈ world.clients id, client.connectionClosed = false →
      ∀ submission ∈ MiningSubmitMessage.ofParams params,
        ∀ job ∈ acceptedJob (client.judgeSubmission host world.service submission),
          ∀ built ∈ history, IsBuildOf job built.2 → built.1 = id
  | _ => True

instance (world : Sv1World) (history : List (ℕ × Sv1Event)) :
    DecidablePred (NamesOwnJob host world history) := fun input => by
  rcases input with _ | _ <;> unfold NamesOwnJob <;> infer_instance

/-- A recorded share pays what its mode says: in pplns mode the payout list of its template, if
it has one, and in solo mode the miner it is recorded for. -/
def PaysForMode (share : AcceptedShareRecord) (jobTemplate : JobTemplate)
    (coinbase : Transaction) : Prop :=
  match share.payoutMode with
  | .pplns =>
    ∀ outputs ∈ jobTemplate.blockData.payoutOutputs, outputs ≠ [] →
      PaysList host config.network outputs jobTemplate coinbase
  | .solo =>
    PaysList host config.network
      [{ address := share.address, percent := some 100, amountSats := none }] jobTemplate coinbase

instance (share : AcceptedShareRecord) (jobTemplate : JobTemplate) :
    DecidablePred (PaysForMode host config share jobTemplate) := fun coinbase => by
  unfold PaysForMode
  generalize share.payoutMode = mode
  rcases mode with _ | _ <;> infer_instance

/-- A recorded share was mined on a job of its own connection, for a live template, with a
coinbase that pays for its mode. -/
def CreditedForOwn (service : StratumV1JobsService) (history : List (ℕ × Sv1Event)) :
    ℕ × Sv1Event → Prop
  | (id, .shareRecorded share _ job _) =>
    (∃ built ∈ history, built.1 = id ∧ IsBuildOf job built.2) ∧
      ∃ jobTemplate ∈ service.getJobTemplateById share.jobTemplateId,
        PaysForMode host config share jobTemplate job.coinbaseTransaction
  | _ => True

instance (service : StratumV1JobsService) (history : List (ℕ × Sv1Event)) :
    DecidablePred (CreditedForOwn host config service history) := fun event => by
  obtain ⟨id, event⟩ := event
  rcases event with _ | _ <;> unfold CreditedForOwn <;> infer_instance

/-- What a step credits is credited for its own coinbase. -/
def NoCrossCredit (world : Sv1World) (history : List (ℕ × Sv1Event)) (input : Sv1Input) : Prop :=
  ∀ event ∈ (sv1Step host config world input).2,
    CreditedForOwn host config world.service history event

instance (world : Sv1World) (history : List (ℕ × Sv1Event)) :
    DecidablePred (NoCrossCredit host config world history) := fun _ =>
  inferInstanceAs (Decidable (∀ _ ∈ _, _))

/-- The coinbase of a job built for a mode pays for that mode. -/
theorem paysForMode_of_create {share : AcceptedShareRecord} {t jobTemplate : JobTemplate}
    {job : MiningJob} {jobId address worker fallback : String} {now : ℕ}
    (hcreate : MiningJob.create host config.network jobId
      (getPayoutInformation share.payoutMode t address) t (some worker) now = some job)
    (ht : Refreshes t jobTemplate) (haddress : share.address = job.payoutAddress.getD fallback) :
    PaysForMode host config share jobTemplate job.coinbaseTransaction := by
  obtain ⟨-, -, -, hpayoutAddress, -, hcoinbase⟩ := MiningJob.fields_create host hcreate
  have hpays := paysList_refreshes host config.network ht
    (paysList_jobCoinbase host config.network hcoinbase)
  unfold PaysForMode
  cases hmode : share.payoutMode with
  | pplns =>
    intro outputs houtputs hne
    have hlist : t.blockData.payoutOutputs = some outputs := by
      obtain ⟨timestamp, clearJobs, rfl⟩ := ht
      exact houtputs
    rw [hmode] at hpays
    cases outputs with
    | nil => exact absurd rfl hne
    | cons output outputs => simpa only [getPayoutInformation, hlist] using hpays
  | solo =>
    rw [hmode] at hpayoutAddress hpays
    have hmine : share.address = address := by
      rw [haddress, hpayoutAddress]
      rfl
    rw [hmine]
    exact hpays

/-- In a state of a run, a step whose submission names no job of another connection credits
for its own coinbase. -/
theorem noCrossCredit_step {world : Sv1World} {history : List (ℕ × Sv1Event)}
    {input : Sv1Input} (hinv : Sv1Inv host config world history)
    (hcond : NamesOwnJob host world history input) :
    NoCrossCredit host config world history input := by
  rintro ⟨id, event⟩ hevent
  rcases sv1Step_records host config world hevent with
    hreply | ⟨_, _, _, _, _, _, _, _, -, -, rfl⟩ |
      ⟨params, _, _, client, submission, job, jobTemplate, header, rfl, haccepts, hrecord⟩
  · cases event <;> first | exact trivial | cases hreply
  · trivial
  · cases event with
    | shareRecorded share submission' job' header' =>
      obtain ⟨⟨blockSubmissionResult, rfl⟩, -, rfl, -⟩ := hrecord
      obtain ⟨hjob, htemplate, -⟩ := judgeSubmission_eq_accepted haccepts.verdict_eq
      obtain ⟨owner, inForce, t, hbuilt⟩ := hinv.built _ _ hjob
      -- whoever built the job is the connection that submits
      have hown : owner = id := hcond client haccepts.client_eq haccepts.isOpen submission
        haccepts.params_eq job' (by rw [haccepts.verdict_eq]; rfl) _ hbuilt.event rfl
      subst hown
      obtain ⟨client', hclient', hcreate⟩ := hbuilt.create
      have hsame : client = client' := Option.some.inj (haccepts.client_eq.symm.trans hclient')
      subst hsame
      obtain ⟨-, -, htemplateId, -⟩ := MiningJob.fields_create host hcreate
      refine ⟨⟨_, hbuilt.event, rfl, rfl⟩, jobTemplate, htemplate, ?_⟩
      have hrefreshes : Refreshes t jobTemplate :=
        hbuilt.template.same jobTemplate (htemplateId ▸ htemplate)
      exact paysForMode_of_create host config hcreate hrefreshes rfl
    | _ => trivial

/-- No cross-mode credit. In every run in which submissions that would be accepted name no
job of another connection, every recorded share was mined on a job of its own connection whose
coinbase pays for the connection's mode. -/
theorem credited_for_own_coinbase (inputs : List Sv1Input)
    (h : (sv1Machine host config).Along (NamesOwnJob host) .initial [] inputs) :
    (sv1Machine host config).Along (NoCrossCredit host config) .initial [] inputs := by
  refine Machine.along_of_invariant _ ?_ (sv1Inv_initial host config) h
  intro world history input hinv hcond
  exact ⟨noCrossCredit_step host config hinv hcond, hinv.step host config input⟩

end

/-! ### A submission on somebody else's job -/

namespace Sv1Sample

/-- `A` mines solo and `B` for the pool. The submission of connection 1 names the job of its
own, which is job 2, or the one of connection 0. -/
def crossRun (jobId : String) : List Sv1Input :=
  login 0 .solo "A.rig" ++ login 1 .pplns "B.rig" ++
    [.template (template "B") 1700000000000,
      .sendJob 0 0 true true 1700000000001,
      .sendJob 1 0 true true 1700000000002,
      .submit 1 (submission jobId "0000000000000001" "00000005") none none]

end Sv1Sample

/-- A pplns connection is credited for a share that pays a solo miner. -/
theorem not_credited_for_own_coinbase :
    ¬ (sv1Machine Sv1Sample.host Sv1Sample.config).Along
      (NoCrossCredit Sv1Sample.host Sv1Sample.config) .initial [] (Sv1Sample.crossRun "1") := by
  decide +kernel

theorem credited_for_own_coinbase_sample :
    (sv1Machine Sv1Sample.host Sv1Sample.config).Along
      (NoCrossCredit Sv1Sample.host Sv1Sample.config) .initial [] (Sv1Sample.crossRun "2") :=
  credited_for_own_coinbase Sv1Sample.host Sv1Sample.config (Sv1Sample.crossRun "2")
    (by decide +kernel)

end PublicPool.Proofs
