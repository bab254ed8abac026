import PublicPool.Mining.Job
import PublicPool.Proofs.Payout.StoredSnapshots
import PublicPool.TxCodec

/-!
# `PublicPool.Proofs.Payout.CoinbasePays`: the coinbase pays what the snapshot records

A job adds what its payout list leaves of the reward to the first output, so the coinbase pays
what a snapshot records only if the recorded payouts are worth the whole coinbase value. They are
when the reward of the distribution could be placed (`sum_distributeTemplate_iff`), and
`coinbase_pays_snapshot` follows this from the statement that reads the balances to the snapshot
that is returned, and on to the jobs built from it. The condition is `PlacesReward`.

Where the reward can not be placed the first recipient is paid more than the ledger knows:
`not_coinbase_pays_snapshot`.
-/

set_option autoImplicit false

namespace PublicPool.Proofs

open Lib (OrdMap Machine)

/-! ### What a coinbase has to pay -/

/-- An output that pays an entry what is recorded for it. -/
def PaysEntry (host : Externals) (network : Network) (entry : PayoutDistributionEntry)
    (output : TxOutput) : Prop :=
  getPaymentScript host network entry.address = some output.script ∧
    output.value = entry.payoutSats

/-- The outputs of a coinbase pay each recorded output its amount, and nothing else but the
commitment to the witnesses, which carries no value. What is recorded for the other entries is
nothing. -/
structure PaysRecorded (host : Externals) (network : Network) (jobTemplate : JobTemplate)
    (entries : List PayoutDistributionEntry) (outs : List TxOutput) : Prop where
  outputs : ∃ paid, List.Forall₂ (PaysEntry host network) (outputsOf entries) paid ∧
    outs = paid ++ [witnessCommitmentOutput host jobTemplate.block.witnessCommit]
  others : ∀ entry ∈ entries, entry ∉ outputsOf entries → entry.payoutSats = 0
  remainder : jobTemplate.blockData.coinbasevalue
    - ((outputsOf entries).map (·.payoutSats)).sum = 0

section
variable {host : Externals} {network : Network}

variable {coinbaseValueSats : ℤ} {entries : List PayoutDistributionEntry} {outs : List TxOutput}

/-- The outputs of recipients before the remainder is added. -/
theorem mapM_recipientOf {reward : ℤ}
    (h : (entries.map (recipientOf coinbaseValueSats)).mapM (fun recipient => do
        let script ← getPaymentScript host network recipient.address
        let amount := recipient.amount reward
        if isSatoshi amount then return { value := amount, script : TxOutput } else none)
      = some outs) : List.Forall₂ (PaysEntry host network) entries outs := by
  induction entries generalizing outs with
  | nil =>
    cases h
    exact List.Forall₂.nil
  | cons entry entries ih =>
    rw [List.map_cons, List.mapM_cons] at h
    simp only [Option.bind_eq_bind, Option.bind_eq_some_iff, Option.pure_def,
      Option.some.injEq] at h
    obtain ⟨first, ⟨script, hscript, hfirst⟩, rest, hrest, rfl⟩ := h
    refine List.Forall₂.cons ?_ (ih hrest)
    split at hfirst
    · cases hfirst
      exact ⟨hscript, rfl⟩
    · cases hfirst

theorem values_of_paysEntry (h : List.Forall₂ (PaysEntry host network) entries outs) :
    outs.map (·.value) = entries.map (·.payoutSats) := by
  induction h with
  | nil => rfl
  | cons hfirst _ ih => rw [List.map_cons, List.map_cons, hfirst.2, ih]

/-- The coinbase of a job for recorded outputs that are worth the reward. -/
theorem outs_miningJob {jobId : String} {jobTemplate : JobTemplate} {payoutWorker : Option String}
    {now : ℕ} {job : MiningJob}
    (hsum : (entries.map (·.payoutSats)).sum = jobTemplate.blockData.coinbasevalue)
    (h : MiningJob.create host network jobId (entries.map (recipientOf coinbaseValueSats))
      jobTemplate payoutWorker now = some job) :
    ∃ paid, List.Forall₂ (PaysEntry host network) entries paid ∧
      job.coinbaseTransaction.outs
        = paid ++ [witnessCommitmentOutput host jobTemplate.block.witnessCommit] := by
  obtain ⟨-, -, -, -, -, hcoinbase⟩ := MiningJob.fields_create host h
  simp only [jobCoinbase, createCoinbaseTransaction, payoutOutputsFor, Option.bind_eq_bind,
    Option.bind_eq_some_iff, Option.pure_def, Option.some.injEq] at hcoinbase
  obtain ⟨coinbase, ⟨settled, ⟨outs, hmap, hsettled⟩, rfl⟩, hjob⟩ := hcoinbase
  have hpays := mapM_recipientOf hmap
  rw [← hjob]
  refine ⟨settled, ?_, rfl⟩
  cases outs with
  | nil => cases hsettled
  | cons first rest =>
    -- nothing is left for the first output
    have hzero : jobTemplate.blockData.coinbasevalue
        - ((first :: rest).map (·.value)).sum = 0 := by
      rw [values_of_paysEntry hpays, hsum, sub_self]
    simp only [Option.some.injEq] at hsettled
    rw [← hsettled, hzero, add_zero]
    exact hpays

end

/-! ### The snapshots of a run -/

/-- Entries with outputs, which are worth a coinbase value. -/
structure Spends (entries : List PayoutDistributionEntry) (coinbaseValueSats : ℤ) : Prop where
  outputs : outputsOf entries ≠ []
  sum : ((outputsOf entries).map (·.payoutSats)).sum = coinbaseValueSats

theorem spends_keepsOrder : KeepsOrder Spends := by
  intro entries entries' coinbaseValueSats h hperm
  refine ⟨fun hnil => ?_, ((hperm.filter _).map _).sum_eq.trans h.sum⟩
  have houtputs : (outputsOf entries').Perm (outputsOf entries) := hperm.filter _
  rw [hnil] at houtputs
  exact h.outputs houtputs.nil_eq.symm

/-- The condition: whenever a call reads the balances and comes to a distribution, its reward can
be placed. -/
def PlacesReward (env : PayoutEnv) (config : PayoutConfig) (world : PayoutWorld)
    (_history : List PayoutEvent) : PayoutInput → Prop
  | .statement id =>
    match world.calls id with
    | some (.create input (.readBalances _ addressWork)) =>
      (distributeTemplate env config input.coinbaseValueSats addressWork
          (getOpenBalances world.db)).isNone = true ∨
        RewardPlaced env (templateInput config input.coinbaseValueSats addressWork
          (getOpenBalances world.db)) config.maxCoinbaseOutputs
    | _ => True
  | _ => True

instance (env : PayoutEnv) (config : PayoutConfig) (world : PayoutWorld)
    (history : List PayoutEvent) (input : PayoutInput) :
    Decidable (PlacesReward env config world history input) := by
  rcases input with _ | _ | id | _ | _ <;> unfold PlacesReward
  case statement =>
    dsimp only
    generalize world.calls id = call
    rcases call with _ | (⟨input, stage⟩ | _)
    case some.create =>
      rcases stage with _ | _ | _ | _ | _ | _ | _ | _ <;> dsimp only <;> infer_instance
    all_goals exact isTrue trivial
  all_goals exact isTrue trivial

section
variable {env : PayoutEnv} {config : PayoutConfig} {world : PayoutWorld}
  {history : List PayoutEvent}

/-- A reward that is placed is spent. -/
theorem PlacesReward.distributes {input : PayoutInput}
    (h : PlacesReward env config world history input) :
    Distributes Spends env config world input := by
  intro id create window addressWork entries consideredAddressCount hinput hcall hdistribute
  subst hinput
  simp only [PlacesReward, hcall, hdistribute] at h
  have hplaced := h.resolve_left (by simp)
  exact ⟨(distributeTemplate_eq_some env hdistribute).2,
    (sum_distributeTemplate_iff env hdistribute).mpr hplaced⟩

/-! ### The result -/

variable (env config) in
/-- The ledger equals the chain. In every run in which the reward of every distribution can be
placed, a snapshot that was returned is stored as it was returned, and the coinbase of every job
that is built from it pays what is recorded. -/
theorem coinbase_pays_snapshot (inputs : List PayoutInput)
    (hplaced : (payoutMachine env config).Along (PlacesReward env config) .initial [] inputs)
    {input : CreateSnapshotInput} {snapshot : PayoutSnapshotForTemplate}
    (hreturned : .created input (.snapshot snapshot)
      ∈ (payoutMachine env config).history .initial inputs)
    (host : Externals) (network : Network) (jobId : String) (jobTemplate : JobTemplate)
    (hvalue : jobTemplate.blockData.coinbasevalue = input.coinbaseValueSats)
    (houtputs : jobTemplate.blockData.payoutOutputs = some snapshot.payoutOutputs)
    (fallbackAddress : String) (payoutWorker : Option String) (now : ℕ) {job : MiningJob}
    (hjob : MiningJob.create host network jobId
      (getPayoutInformation .pplns jobTemplate fallbackAddress) jobTemplate payoutWorker now
        = some job) :
    let db := ((payoutMachine env config).final .initial inputs).db
    getSnapshotById db snapshot.id = some snapshot ∧
      PaysRecorded host network jobTemplate (db.entriesOf snapshot.id)
        job.coinbaseTransaction.outs := by
  have hstep : ∀ world history input, StoredInv Spends world history →
      PlacesReward env config world history input →
      StoredInv Spends ((payoutMachine env config).step world input).1
        (history ++ ((payoutMachine env config).step world input).2) :=
    fun world history input hinv hplaced => hinv.step spends_keepsOrder hplaced.distributes
  have hinv := (payoutMachine env config).history_invariant hstep storedInv_initial hplaced
  rw [List.nil_append] at hinv
  obtain ⟨hget, hsats⟩ := hinv.returned input snapshot hreturned
  refine ⟨hget, ?_⟩
  obtain ⟨row, hrow, hid, -, hrowSats, hpayouts⟩ := getSnapshotById_eq_some hget
  have hspends := hinv.stored row hrow
  rw [hid, ← hrowSats, hsats, ← hvalue] at hspends
  have hinformation : getPayoutInformation .pplns jobTemplate fallbackAddress
      = snapshot.payoutOutputs := by
    unfold getPayoutInformation
    rw [houtputs]
    cases hlist : snapshot.payoutOutputs with
    | nil =>
      rw [hlist] at hpayouts
      exact absurd (List.map_eq_nil_iff.mp hpayouts.symm) hspends.outputs
    | cons first rest => rfl
  rw [hinformation, hpayouts] at hjob
  refine ⟨outs_miningJob hspends.sum hjob, ?_, by rw [hspends.sum, sub_self]⟩
  intro entry hentry hother
  refine (hinv.create.entryBalanced _ entry hentry).unpaid ?_
  exact Bool.eq_false_iff.mpr fun hincluded => hother (mem_outputsOf.mpr ⟨hentry, hincluded⟩)

end

/-! ### A fee and one miner -/

namespace FeeSample

deriving instance DecidableEq for PayoutSnapshotForTemplate
deriving instance DecidableEq for CreateSnapshotInput
deriving instance DecidableEq for CreateSnapshotResult
deriving instance DecidableEq for PayoutEvent

def host : Externals :=
  Externals.reference (fun _ => ⟨List.replicate 32 0, by decide⟩) [("A", [0x51]), ("F", [0x52])]

/-- A pool that takes a fee of one percent. -/
def config (maxCoinbaseOutputs : ℕ) : PayoutConfig where
  snapshotsEnabled := true
  method := "pplns"
  windowFactor := 1
  bootstrapWindow := false
  maxCoinbaseOutputs := maxCoinbaseOutputs
  minOutputSats := 546
  feeAddress := "F"
  feePercent := 1
  coinbaseWeightBudget := 4000

def template : CreateSnapshotInput where
  blockHeight := 5
  coinbaseValueSats := 1000000
  networkDifficulty := 100

/-- `A` did all the work, and a snapshot is taken. -/
def inputs : List PayoutInput :=
  [.rollup [⟨1, 1, 10, 10, 100⟩] [⟨1, "A", 100, 10⟩], .createSnapshotForTemplate template]
    ++ List.replicate 10 (.statement 0)

/-- The pool after the run. -/
def db (maxCoinbaseOutputs : ℕ) : Database :=
  ((payoutMachine sampleEnv (config maxCoinbaseOutputs)).final .initial inputs).db

/-- The job template that the snapshot is attached to. -/
def jobTemplate (snapshot : PayoutSnapshotForTemplate) : JobTemplate where
  block :=
    { version := 0x20000000
      prevHash := List.replicate 32 0
      bits := 0x207fffff
      timestamp := 1
      witnessCommit := List.replicate 32 0
      transactions := [] }
  merkleBranch := []
  blockData :=
    { id := "1"
      creation := 1
      coinbasevalue := 1000000
      networkDifficulty := some 1
      height := 5
      clearJobs := true
      payoutSnapshotId := some snapshot.id
      payoutOutputs := some snapshot.payoutOutputs
      transactions := []
      sigoplimit := none
      sizelimit := none
      weightlimit := none }

/-- The job that is built from it. -/
def job (snapshot : PayoutSnapshotForTemplate) : Option MiningJob :=
  MiningJob.create host .mainnet "1" (getPayoutInformation .pplns (jobTemplate snapshot) "A")
    (jobTemplate snapshot) none 1

end FeeSample

open FeeSample in
/-- With room for both outputs, the coinbase pays what is recorded. -/
theorem coinbase_pays_snapshot_sample :
    ∃ snapshot built, getSnapshotById (db 20) 1 = some snapshot ∧ job snapshot = some built ∧
      PaysRecorded host .mainnet (jobTemplate snapshot) ((db 20).entriesOf snapshot.id)
        built.coinbaseTransaction.outs := by
  have hsome : (getSnapshotById (db 20) 1).isSome := by decide +kernel
  have hreturned : ∀ snapshot ∈ getSnapshotById (db 20) 1,
      .created template (.snapshot snapshot)
        ∈ (payoutMachine sampleEnv (config 20)).history .initial inputs := by decide +kernel
  have hbuilt : ∀ snapshot ∈ getSnapshotById (db 20) 1, (job snapshot).isSome := by
    decide +kernel
  obtain ⟨snapshot, hsnapshot⟩ := Option.isSome_iff_exists.mp hsome
  obtain ⟨built, hjob⟩ := Option.isSome_iff_exists.mp (hbuilt snapshot hsnapshot)
  exact ⟨snapshot, built, hsnapshot, hjob,
    (coinbase_pays_snapshot sampleEnv (config 20) inputs (by decide +kernel)
      (hreturned snapshot hsnapshot) host .mainnet "1" (jobTemplate snapshot) rfl rfl "A" none 1
      hjob).2⟩

open FeeSample in
/-- With room for one output only, it is that of the fee. The snapshot records 10000 sats for it,
and the coinbase pays it the million. -/
theorem not_coinbase_pays_snapshot :
    ∃ snapshot built, .created template (.snapshot snapshot)
        ∈ (payoutMachine sampleEnv (config 1)).history .initial inputs ∧
      job snapshot = some built ∧
      ((db 1).entriesOf snapshot.id).map (fun entry => (entry.address, entry.payoutSats))
        = [("F", 10000), ("A", 0)] ∧
      built.coinbaseTransaction.outs.map (fun output => (output.script.take 1, output.value))
        = [([0x52], 1000000), ([0x6a], 0)] ∧
      ¬ PaysRecorded host .mainnet (jobTemplate snapshot) ((db 1).entriesOf snapshot.id)
        built.coinbaseTransaction.outs := by
  have hsome : (getSnapshotById (db 1) 1).isSome := by decide +kernel
  have hreturned : ∀ snapshot ∈ getSnapshotById (db 1) 1,
      .created template (.snapshot snapshot)
        ∈ (payoutMachine sampleEnv (config 1)).history .initial inputs ∧
      ((db 1).entriesOf snapshot.id).map (fun entry => (entry.address, entry.payoutSats))
        = [("F", 10000), ("A", 0)] := by decide +kernel
  have hbuilt : ∀ snapshot ∈ getSnapshotById (db 1) 1, (job snapshot).isSome ∧
      ∀ built ∈ job snapshot,
        built.coinbaseTransaction.outs.map (fun output => (output.script.take 1, output.value))
          = [([0x52], 1000000), ([0x6a], 0)] := by decide +kernel
  have hremainder : ∀ snapshot ∈ getSnapshotById (db 1) 1,
      (jobTemplate snapshot).blockData.coinbasevalue
        - ((outputsOf ((db 1).entriesOf snapshot.id)).map (·.payoutSats)).sum ≠ 0 := by
    decide +kernel
  obtain ⟨snapshot, hsnapshot⟩ := Option.isSome_iff_exists.mp hsome
  obtain ⟨hjob, houts⟩ := hbuilt snapshot hsnapshot
  obtain ⟨built, hjob⟩ := Option.isSome_iff_exists.mp hjob
  obtain ⟨hevent, hentries⟩ := hreturned snapshot hsnapshot
  exact ⟨snapshot, built, hevent, hjob, hentries, houts built hjob,
    fun hpays => hremainder snapshot hsnapshot hpays.remainder⟩

end PublicPool.Proofs
