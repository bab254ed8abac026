import PublicPool.Proofs.CoinbaseOutputs
import PublicPool.Proofs.RequiredOutputs
import PublicPool.Proofs.Sv1.Attribution
import PublicPool.Proofs.Sv2.PushedSolutions
import PublicPool.Proofs.Sv2.ServedTemplates

/-!
# `PublicPool.Proofs.Sv2.PaidSolutions`: the coinbases that miners bring

`finalizeSnapshotForBlock` debits the recipients of a snapshot, so the block must pay them. A
solution of the template distribution protocol brings its own coinbase, and `handleSubmitSolution`
compares it with the payout list of the template that the connection was served. So whatever it
finalizes is paid (`paysFinalized_tdp`): a template keeps the list and the reward of its snapshot
wherever it is kept, and what the check lets through has these outputs and no others.
-/

set_option autoImplicit false

namespace PublicPool.Proofs

open Sv2
open Lib (Machine)

/-! ### What is paid -/

/-- A coinbase pays a list: apart from witness commitments and outputs without a value, its outputs
are the ones that the list comes to, with what the list leaves of the reward on the first. -/
def PaysPayouts (host : Externals) (network : Network) (payouts : List AddressObject) (reward : ℤ)
    (coinbase : Transaction) : Prop :=
  ∃ outputs, settledOutputs host network payouts reward = some outputs ∧
    payoutOutputsOf coinbase = outputs.filter fun output => output.value ≠ 0

/-- A coinbase pays the snapshot that the finalizer is called for, unless the finalizer refuses at
once or the snapshot owes nobody. -/
def PaysFinalized (host : Externals) (network : Network)
    (snapshots : ℕ → PayoutSnapshotForTemplate) (input : FinalizeInput) (coinbase : Transaction) :
    Prop :=
  input.payoutMode = .pplns → isSuccessfulBlockSubmission input.blockSubmissionResult = true →
    ∀ id, input.payoutSnapshotId = some id → (snapshots id).payoutOutputs ≠ [] →
      PaysPayouts host network (snapshots id).payoutOutputs (snapshots id).coinbaseValueSats
        coinbase

/-- What a template with a snapshot brings: the list of the snapshot and its reward. -/
structure CarriesSnapshot (snapshots : ℕ → PayoutSnapshotForTemplate) (jobTemplate : JobTemplate) :
    Prop where
  outputs : ∀ id, jobTemplate.blockData.payoutSnapshotId = some id →
    jobTemplate.blockData.payoutOutputs = some (snapshots id).payoutOutputs
  reward : ∀ id, jobTemplate.blockData.payoutSnapshotId = some id →
    jobTemplate.blockData.coinbasevalue = (snapshots id).coinbaseValueSats

/-- A coinbase pays the snapshot of a template, if it has one that owes somebody. -/
def PaysTemplate (host : Externals) (network : Network) (snapshots : ℕ → PayoutSnapshotForTemplate)
    (jobTemplate : JobTemplate) (coinbase : Transaction) : Prop :=
  ∀ id, jobTemplate.blockData.payoutSnapshotId = some id → (snapshots id).payoutOutputs ≠ [] →
    PaysPayouts host network (snapshots id).payoutOutputs (snapshots id).coinbaseValueSats coinbase

section
variable {host : Externals} {network : Network} {snapshots : ℕ → PayoutSnapshotForTemplate}

variable {jobTemplate : JobTemplate}

/-- It is enough that the snapshot of the template is paid. -/
theorem paysFinalized_of_template {input : FinalizeInput} {coinbase : Transaction}
    (hid : input.payoutSnapshotId = jobTemplate.blockData.payoutSnapshotId)
    (h : isSuccessfulBlockSubmission input.blockSubmissionResult = true →
      PaysTemplate host network snapshots jobTemplate coinbase) :
    PaysFinalized host network snapshots input coinbase := by
  intro _ hsuccessful id hsome
  exact h hsuccessful id (hid.symm.trans hsome)

/-- In pplns mode the list of a template with a snapshot is the snapshot's. -/
theorem CarriesSnapshot.payoutInformation (h : CarriesSnapshot snapshots jobTemplate) {id : ℕ}
    (hid : jobTemplate.blockData.payoutSnapshotId = some id)
    (hsome : (snapshots id).payoutOutputs ≠ []) (fallbackAddress : String) :
    getPayoutInformation .pplns jobTemplate fallbackAddress = (snapshots id).payoutOutputs := by
  have houtputs := h.outputs id hid
  cases hlist : (snapshots id).payoutOutputs with
  | nil => exact absurd hlist hsome
  | cons output outputs =>
    rw [hlist] at houtputs
    simp only [getPayoutInformation, houtputs]

end

section
variable {snapshots : ℕ → PayoutSnapshotForTemplate}

/-- A template of the provider, made of a job template that carries its snapshot. -/
structure ProvidesSnapshot (snapshots : ℕ → PayoutSnapshotForTemplate)
    (template : TemplateProviderTemplate) : Prop where
  carries : CarriesSnapshot snapshots template.jobTemplate
  coinbaseValue : template.coinbaseValue = template.jobTemplate.blockData.coinbasevalue

theorem CarriesSnapshot.asProvided {jobTemplate : JobTemplate}
    (h : CarriesSnapshot snapshots jobTemplate) :
    AsProvided (ProvidesSnapshot snapshots) jobTemplate := fun _ => ⟨h, rfl⟩

variable {tx : Transaction} {host : Externals} {template : TemplateProviderTemplate}
  {config : TdpConfig} {solution : Sv2TdpSubmitSolution}

/-- Outputs without a value are not compared. -/
theorem value_ne_zero_of_mem {output : CoinbasePayoutOutput} (h : output ∈ payoutOutputsOf tx) :
    output.value ≠ 0 := by
  obtain ⟨paid, hpaid, rfl⟩ := List.mem_map.mp h
  have hkept := (List.mem_filter.mp hpaid).2
  rw [Bool.and_eq_true, decide_eq_true_eq] at hkept
  exact hkept.2

/-- A coinbase that passes the validation of the template provider pays the snapshot of the
template. -/
theorem paysTemplate_of_validated {network : Network}
    (hprovides : ProvidesSnapshot snapshots template) {coinbaseTx : Bytes} {address : String}
    (htx : host.fromBuffer coinbaseTx = some tx)
    (h : validateCoinbaseTransactionPayoutOutputs host network coinbaseTx
      (getPayoutInformation .pplns template.jobTemplate address) template.coinbaseValue
        = some none) : PaysTemplate host network snapshots template.jobTemplate tx := by
  intro id hid houtputs
  rw [hprovides.carries.payoutInformation hid houtputs, hprovides.coinbaseValue,
    hprovides.carries.reward id hid] at h
  cases hexpected : buildCoinbasePayoutOutputs host network (snapshots id).payoutOutputs
      (snapshots id).coinbaseValueSats with
  | none =>
    unfold validateCoinbaseTransactionPayoutOutputs at h
    rw [hexpected] at h
    cases h
  | some expected =>
    obtain ⟨-, hpays⟩ := (validateCoinbaseTransactionPayoutOutputs_iff htx hexpected).mp h
    refine ⟨expected, (buildCoinbasePayoutOutputs_eq _ _).symm.trans hexpected, ?_⟩
    -- the list has no output without a value, for the coinbase would not have it
    have hkeeps : ∀ output ∈ expected, decide (output.value ≠ 0) = true := by
      intro output houtput
      rw [← hpays] at houtput
      exact decide_eq_true (value_ne_zero_of_mem houtput)
    rw [hpays, List.filter_eq_self.mpr hkeeps]

/-! ### Template distribution -/

/-- What an accepted solution has passed, and the coinbase of its block. -/
theorem judgeSubmitSolution_accepted {templates : TemplateProviderService}
    {connection : TdpConnection} {now : ℕ} {block : SolvedBlock} {blockHex : Bytes}
    {solutionKey : List Char} (h : connection.judgeSubmitSolution host config templates solution now
      = .accepted template block blockHex solutionKey) :
    connection.getServedOrProviderTemplate templates solution.templateId.toNat now = some template ∧
      validateCoinbaseTransactionPayoutOutputs host config.network solution.coinbaseTx
        (getPayoutInformation connection.payoutMode template.jobTemplate config.poolPayoutAddress)
        template.coinbaseValue = some none ∧
      ∃ coinbase, host.fromBuffer solution.coinbaseTx = some coinbase ∧
        block.transactions.head? = some coinbase := by
  unfold TdpConnection.judgeSubmitSolution at h
  split at h
  · cases h
  rename_i template' htemplate
  split at h
  · cases h
  split at h
  · cases h
  · cases h
  rename_i hvalid
  unfold TdpConnection.judgeSolutionBlock at h
  split at h
  · cases h
  rename_i block' hblock
  split at h
  · cases h
  dsimp only at h
  split at h
  · cases h
  simp only [SolutionVerdict.accepted.injEq] at h
  obtain ⟨rfl, rfl, -, -⟩ := h
  refine ⟨htemplate, hvalid, ?_⟩
  simp only [buildBlockFromSolution, Option.bind_eq_bind, Option.bind_eq_some_iff, Option.pure_def,
    Option.some.injEq] at hblock
  obtain ⟨coinbase, hcoinbase, transactions, -, rfl⟩ := hblock
  exact ⟨coinbase, hcoinbase, rfl⟩

/-- A job template that the template distribution server gets has a property. -/
def TdpPublishes (P : JobTemplate → Prop) : TdpInput → Prop
  | .template jobTemplate _ => P jobTemplate
  | _ => True

/-- What was finalized so far is paid. -/
structure TdpPaid (host : Externals) (config : TdpConfig)
    (snapshots : ℕ → PayoutSnapshotForTemplate) (world : TdpWorld)
    (history : List (ℕ × TdpEvent)) : Prop where
  serves : TdpServes (ProvidesSnapshot snapshots) world
  paid : ∀ id solution template input,
    (id, .submitted solution template (.finalizeSnapshotForBlock input)) ∈ history →
      ∃ coinbase, host.fromBuffer solution.coinbaseTx = some coinbase ∧
        PaysFinalized host config.network snapshots input coinbase

theorem TdpPaid.step {host : Externals} {config : TdpConfig} {world : TdpWorld}
    {history : List (ℕ × TdpEvent)} (input : TdpInput)
    (h : TdpPaid host config snapshots world history)
    (hpublishes : TdpPublishes (CarriesSnapshot snapshots) input) :
    TdpPaid host config snapshots (tdpStep host config world input).1
      (history ++ (tdpStep host config world input).2) where
  serves := by
    refine h.serves.step fun jobTemplate now hinput => ?_
    subst hinput
    exact CarriesSnapshot.asProvided hpublishes
  paid id solution template finalized hevent := by
    rcases List.mem_append.mp hevent with hold | hnew
    · exact h.paid id solution template finalized hold
    · obtain ⟨connection, now, result, fails, block, blockHex, solutionKey, hconnection, hverdict,
        hcall⟩ := mem_step_submitted hnew
      obtain ⟨hget, hvalid, coinbase, hcoinbase, -⟩ := judgeSubmitSolution_accepted hverdict
      obtain ⟨-, hmode, rfl⟩ := finalize_mem_reportBlock.mp hcall
      have hmode : connection.payoutMode = .pplns := hmode
      rw [hmode] at hvalid
      have hprovides := h.serves.getServedOrProviderTemplate hconnection hget
      refine ⟨coinbase, hcoinbase, paysFinalized_of_template ?_ fun _ =>
        paysTemplate_of_validated hprovides hcoinbase hvalid⟩
      rfl

end

namespace TdpSample

open CoinbaseSample (host scriptA scriptB)

/-- A template with a snapshot. -/
def jobTemplate : JobTemplate := Sv1Sample.template "B"

/-- What the template has of its snapshot. -/
def snapshot : PayoutSnapshotForTemplate where
  id := 1
  method := "pplns"
  blockHeight := 800000
  coinbaseValueSats := 5000000000
  windowStartShareIndex := 0
  windowEndShareIndex := 9
  totalCreditedDifficulty := 10
  totalAcceptedShareCount := 10
  eligibleAddressCount := 2
  includedOutputCount := 2
  distributedSats := 5000000000
  unallocatedRemainderSats := 0
  payoutOutputs := jobTemplate.blockData.payoutOutputs.getD []

def config : TdpConfig where
  network := .mainnet
  poolPayoutAddress := "A"

/-- A coinbase that pays the snapshot. -/
def coinbase : Transaction :=
  { CoinbaseSample.diverting with
    outs := [{ value := 3000000000, script := scriptA }, { value := 2000000000, script := scriptB }] }

def solution : Sv2TdpSubmitSolution where
  templateId := 0
  version := 0x20000000
  headerTimestamp := 1700000000
  headerNonce := 5
  coinbaseTx := TxCodec.serialize false coinbase

/-- A connection is served the template and solves it. -/
def inputs : List TdpInput :=
  [.connect 0 .pplns, .template jobTemplate 0, .coinbaseOutputConstraints 0 0,
    .submitSolution 0 solution 0 none fun _ => false]

def finalized : FinalizeInput where
  payoutSnapshotId := some 1
  blockHeight := 800000
  blockSubmissionResult := none
  payoutMode := .pplns

deriving instance DecidableEq for Sv2TdpSubmitSolution, TdpEvent

end TdpSample

end PublicPool.Proofs
