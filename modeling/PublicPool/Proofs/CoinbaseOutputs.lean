import PublicPool.Proofs.Datum
import PublicPool.Sv2.Client

/-!
# `PublicPool.Proofs.CoinbaseOutputs`: the outputs of a coinbase

Four functions of the pool turn a payout list into outputs, and three more compare a miner's
coinbase with such outputs. `settle` is what the four have in common: every recipient has its
amount, and the first one takes what the amounts leave of the reward. `payout_outputs_agree`
says that they agree and that the coinbase of a job passes all three validators.

The validators leave out outputs shaped like a witness commitment, whatever they carry.
`accepted_total_iff` is the exact account of that: a coinbase that is accepted spends what the
payout list spends if and only if no such output has a value.
-/

set_option autoImplicit false

namespace PublicPool.Proofs

open Datum
open Sv2
open Lib (subtractRounded subtractRounded_of_fixed)

/-! ### Handing out a reward -/

/-- The value that outputs carry together. -/
def totalValue (outputs : List CoinbasePayoutOutput) : ℤ :=
  (outputs.map (·.value)).sum

/-- The first output takes what the outputs leave of a reward. -/
def settle (reward : ℤ) (outputs : List CoinbasePayoutOutput) : List CoinbasePayoutOutput :=
  outputs.modifyHead fun first =>
    { first with value := first.value + (reward - totalValue outputs) }

/-- The output of a recipient, or `none` when its address has no script. -/
def recipientOutput (script : String → Option Bytes) (reward : ℤ) (recipient : AddressObject) :
    Option CoinbasePayoutOutput :=
  (script recipient.address).map fun scriptPubKey =>
    { value := recipient.amount reward, scriptPubKey }

theorem totalValue_cons (first : CoinbasePayoutOutput) (rest : List CoinbasePayoutOutput) :
    totalValue (first :: rest) = first.value + totalValue rest := by
  simp [totalValue]

section
variable {reward : ℤ} {outputs : List CoinbasePayoutOutput}

/-- After settling, the outputs carry the whole reward. -/
theorem totalValue_settle (hne : outputs ≠ []) : totalValue (settle reward outputs) = reward := by
  cases outputs with
  | nil => exact absurd rfl hne
  | cons first rest =>
    rw [settle, List.modifyHead_cons, totalValue_cons, totalValue_cons]
    show first.value + (reward - (first.value + totalValue rest)) + totalValue rest = reward
    omega

/-- What is left of the reward makes no output smaller. -/
theorem settle_pos (hpos : ∀ output ∈ outputs, 0 < output.value)
    (hsum : totalValue outputs ≤ reward) : ∀ output ∈ settle reward outputs, 0 < output.value := by
  cases outputs with
  | nil =>
    intro output houtput
    cases houtput
  | cons first rest =>
    intro output houtput
    rw [settle, List.modifyHead_cons, List.mem_cons] at houtput
    rcases houtput with rfl | hrest
    · have hfirst := hpos first List.mem_cons_self
      show 0 < first.value + (reward - totalValue (first :: rest))
      omega
    · exact hpos output (List.mem_cons_of_mem _ hrest)

/-- Settling moves no script. -/
theorem scripts_settle (reward : ℤ) (outputs : List CoinbasePayoutOutput) :
    (settle reward outputs).map (·.scriptPubKey) = outputs.map (·.scriptPubKey) := by
  cases outputs with
  | nil => rfl
  | cons first rest => rfl

/-- The recipients' outputs have their amounts, and scripts of their addresses. -/
theorem mapM_recipientOutput {script : String → Option Bytes} {recipients : List AddressObject}
    (h : recipients.mapM (recipientOutput script reward) = some outputs) :
    outputs.map (·.value) = recipients.map (·.amount reward) ∧
      ∀ output ∈ outputs, ∃ address, script address = some output.scriptPubKey := by
  induction recipients generalizing outputs with
  | nil =>
    cases h
    exact ⟨rfl, fun _ h => nomatch h⟩
  | cons recipient rest ih =>
    simp only [List.mapM_cons, Option.bind_eq_bind, Option.bind_eq_some_iff, Option.pure_def,
      Option.some.injEq] at h
    obtain ⟨output, houtput, tail, htail, rfl⟩ := h
    obtain ⟨scriptPubKey, hscript, rfl⟩ := Option.map_eq_some_iff.mp houtput
    obtain ⟨hvalues, hscripts⟩ := ih htail
    constructor
    · rw [List.map_cons, List.map_cons, hvalues]
    · intro output hmem
      rcases List.mem_cons.mp hmem with rfl | hrest
      · exact ⟨recipient.address, hscript⟩
      · exact hscripts output hrest

end

/-! ### The four builders -/

section
variable (host : Externals) (network : Network)

/-- The outputs that a payout list comes to. -/
def settledOutputs (payouts : List AddressObject) (reward : ℤ) :
    Option (List CoinbasePayoutOutput) :=
  (payouts.mapM (recipientOutput (host.toOutputScript · network) reward)).map (settle reward)

/-- What an output of a transaction pays. -/
def paidBy (output : TxOutput) : CoinbasePayoutOutput where
  value := output.value
  scriptPubKey := output.script

variable {host network}

variable (payouts : List AddressObject) (reward : ℤ)

/-- The common body of the builders. -/
theorem settled_eq :
    (do
      let outputs ← payouts.mapM fun recipient => do
        let scriptPubKey ← host.toOutputScript recipient.address network
        return { value := recipient.amount reward, scriptPubKey : CoinbasePayoutOutput }
      let rewardBalance := reward - (outputs.map (·.value)).sum
      match outputs with
      | [] => return []
      | first :: rest => return { first with value := first.value + rewardBalance } :: rest)
      = settledOutputs host network payouts reward := by
  have hrecipient : (fun recipient : AddressObject => do
      let scriptPubKey ← host.toOutputScript recipient.address network
      return ({ value := recipient.amount reward, scriptPubKey } : CoinbasePayoutOutput))
        = recipientOutput (host.toOutputScript · network) reward := by
    funext recipient
    rw [recipientOutput]
    cases host.toOutputScript recipient.address network <;> rfl
  rw [settledOutputs, hrecipient]
  cases payouts.mapM (recipientOutput (host.toOutputScript · network) reward) with
  | none => rfl
  | some outputs => cases outputs <;> rfl

theorem buildCoinbasePayoutOutputs_eq :
    buildCoinbasePayoutOutputs host network payouts reward
      = settledOutputs host network payouts reward :=
  settled_eq payouts reward

variable {reward : ℤ} {payouts : List AddressObject} {expected outputs : List CoinbasePayoutOutput}
  {coinbaseTx : Bytes} {tx : Transaction}

theorem buildExpectedPayoutOutputs_eq (payouts : List AddressObject) (hreward : 0 ≤ reward) :
    Context.buildExpectedPayoutOutputs host network payouts reward
      = settledOutputs host network payouts reward := by
  unfold Context.buildExpectedPayoutOutputs
  rw [max_eq_right hreward]
  exact settled_eq payouts reward

/-- The output of a recipient as a job makes it. -/
def jobOutput (host : Externals) (network : Network) (reward : ℤ) (recipient : AddressObject) :
    Option TxOutput := do
  let script ← getPaymentScript host network recipient.address
  let amount := recipient.amount reward
  if isSatoshi amount then return { value := amount, script : TxOutput } else none

/-- The outputs of a job's recipients, when the two ways to a script agree. -/
theorem mapM_jobOutput (hscripts : ∀ address, getPaymentScript host network address
      = host.toOutputScript address network)
    (hamounts : ∀ recipient ∈ payouts, isSatoshi (recipient.amount reward) = true) :
    (payouts.mapM (jobOutput host network reward)).map (List.map paidBy)
      = payouts.mapM (recipientOutput (host.toOutputScript · network) reward) := by
  induction payouts with
  | nil => rfl
  | cons recipient rest ih =>
    have hrest := ih fun other hother => hamounts other (List.mem_cons_of_mem _ hother)
    have hamount := hamounts recipient List.mem_cons_self
    have hfirst : (jobOutput host network reward recipient).map paidBy
        = recipientOutput (host.toOutputScript · network) reward recipient := by
      rw [jobOutput, hscripts, recipientOutput]
      cases host.toOutputScript recipient.address network with
      | none => rfl
      | some script => simp [hamount, paidBy]
    rw [List.mapM_cons, List.mapM_cons, ← hrest, ← hfirst]
    cases jobOutput host network reward recipient with
    | none => rfl
    | some output => cases rest.mapM (jobOutput host network reward) <;> rfl

/-- The coinbase of a job pays the same outputs. -/
theorem createCoinbaseTransaction_eq (hne : payouts ≠ [])
    (hscripts : ∀ address, getPaymentScript host network address
      = host.toOutputScript address network)
    (hamounts : ∀ recipient ∈ payouts, isSatoshi (recipient.amount reward) = true) :
    (createCoinbaseTransaction host network payouts reward).map (·.outs.map paidBy)
      = settledOutputs host network payouts reward := by
  have houtputs := mapM_jobOutput hscripts hamounts
  rw [createCoinbaseTransaction, settledOutputs, ← houtputs, payoutOutputsFor]
  show Option.map _ (((payouts.mapM (jobOutput host network reward)).bind _).bind _) = _
  cases hjob : payouts.mapM (jobOutput host network reward) with
  | none => rfl
  | some outs =>
    cases outs with
    | nil =>
      -- a list with a recipient has an output
      rw [hjob] at houtputs
      have hvalues := (mapM_recipientOutput houtputs.symm).1
      exact absurd (List.map_eq_nil_iff.mp hvalues.symm) hne
    | cons first rest =>
      simp only [Option.bind_some, Option.pure_def, Option.map_some, List.map_cons, settle,
        List.modifyHead_cons, totalValue, List.map_map]
      rfl

/-! ### The three validators -/

/-- A witness commitment starts with `OP_RETURN`. -/
theorem isWitnessCommitmentOutput_eq_false {script : Bytes}
    (h : script.head? ≠ some opReturn) : isWitnessCommitmentOutput script = false := by
  unfold isWitnessCommitmentOutput
  cases script with
  | nil => rfl
  | cons byte rest =>
    have hbyte : byte ≠ opReturn := by simpa using h
    have hheader : (byte :: rest).take 6 ≠ witnessCommitmentHeader := by
      rw [List.take_succ_cons, witnessCommitmentHeader, Ne, List.cons.injEq]
      exact fun heq => hbyte heq.1
    rw [decide_eq_false hheader, Bool.and_false]

theorem firstOutputMismatch_eq_none_iff {i : ℕ} {submitted : List CoinbasePayoutOutput}
    (hlength : submitted.length = expected.length) :
    firstOutputMismatch i expected submitted = none ↔ submitted = expected := by
  induction expected generalizing i submitted with
  | nil => simpa [firstOutputMismatch] using hlength
  | cons a as ih =>
    cases submitted with
    | nil => cases hlength
    | cons b bs =>
      rw [firstOutputMismatch, List.cons.injEq]
      by_cases hab : a = b
      · rw [if_pos hab, ih (by simpa using hlength)]
        simp [hab]
      · rw [if_neg hab]
        simp [Ne.symm hab]

/-- What the template provider accepts. -/
theorem validateCoinbaseTransactionPayoutOutputs_iff (htx : host.fromBuffer coinbaseTx = some tx)
    (hexpected : buildCoinbasePayoutOutputs host network payouts reward = some expected) :
    validateCoinbaseTransactionPayoutOutputs host network coinbaseTx payouts reward = some none ↔
      expected ≠ [] ∧ payoutOutputsOf tx = expected := by
  unfold validateCoinbaseTransactionPayoutOutputs
  simp only [hexpected, htx, Option.bind_eq_bind, Option.bind_some, Option.pure_def]
  by_cases hempty : expected = []
  · simp [hempty]
  · rw [if_neg hempty]
    by_cases hlength : (payoutOutputsOf tx).length = expected.length
    · have hmismatch := firstOutputMismatch_eq_none_iff (i := 0) hlength
      simp [hlength, hempty, hmismatch]
    · have hne : payoutOutputsOf tx ≠ expected := fun heq => hlength (by rw [heq])
      simp [hlength, hne]

/-- What the validation of a custom job accepts. -/
theorem validateCoinbasePayoutOutputs_iff (htx : host.fromBuffer coinbaseTx = some tx)
    (hexpected : Context.buildExpectedPayoutOutputs host network payouts reward = some expected) :
    Context.validateCoinbasePayoutOutputs host network coinbaseTx payouts reward = some none ↔
      payoutOutputsOf tx = expected := by
  unfold Context.validateCoinbasePayoutOutputs
  simp only [hexpected, htx]
  split
  · rename_i heq
    simp [heq]
  · rename_i hne
    simp [hne]

/-- The outputs of a coinbase that the DATUM validation compares. -/
def datumOutputsOf (tx : Transaction) : List CoinbasePayoutOutput :=
  (tx.outs.filter fun output => !isIgnoredCoinbaseMetadataOutput output).map paidBy

/-- The coinbase of a DATUM submission, with its target byte if this submission names its
index. -/
def submittedCoinbase (coinbase : CoinbasePair) (pow : DatumPowSubmit) : Option Bytes :=
  patchTargetByte (coinbase.coinb1 ++ pow.extranonce ++ coinbase.coinb2) pow.targetByteIndex
    (pow.targetByteIndex.map fun _ => pow.targetByte)

variable {coinbase : CoinbasePair} {pow : DatumPowSubmit} {config : DatumConfig}
  {paid : List TxOutput} {commitment : TxOutput}

theorem paysOutputs_iff (hsubmitted : submittedCoinbase coinbase pow = some coinbaseTx)
    (htx : host.fromBuffer coinbaseTx = some tx) :
    paysOutputs host coinbase pow expected = true ↔
      expected ≠ [] ∧ datumOutputsOf tx = expected := by
  unfold submittedCoinbase at hsubmitted
  unfold paysOutputs
  simp only [hsubmitted, htx, Bool.and_eq_true, decide_eq_true_eq]
  rfl

/-- The reward that the DATUM validation of a job goes by. -/
def datumReward (latestTemplate : JobTemplate) (datumJob : DatumJobCache) : ℤ :=
  match datumJob.coinbaseValue with
  | none => latestTemplate.blockData.coinbasevalue
  | some value => Js.roundToDouble value

/-- The outputs that a DATUM job is held to in the first place. -/
def datumExpected? (host : Externals) (config : DatumConfig) (latestTemplate : JobTemplate)
    (datumJob : DatumJobCache) (state : DatumClientState) : Option (List CoinbasePayoutOutput) :=
  datumJob.expectedPayoutOutputs.or
    (getDatumPayoutOutputs host config latestTemplate.blockData.payoutOutputs
      (datumReward latestTemplate datumJob) state.payoutMode)

/-- Another answer of the session that a DATUM coinbase may pay. -/
def matchesContext (host : Externals) (coinbase : CoinbasePair) (pow : DatumPowSubmit)
    (datumJob : DatumJobCache) (state : DatumClientState) : CoinbaserPayoutContext → Bool :=
  fun context => context.payoutMode = state.payoutMode &&
    !failsWith datumJob.height (fun height => context.blockHeight ≠ (height : ℤ)) &&
    some context.payoutOutputs ≠ datumJob.expectedPayoutOutputs &&
    paysOutputs host coinbase pow context.payoutOutputs

theorem validateDatumCoinbasePayoutContext_eq (host : Externals) (config : DatumConfig)
    (coinbase : CoinbasePair) (pow : DatumPowSubmit) (latestTemplate : JobTemplate)
    (datumJob : DatumJobCache) (state : DatumClientState) :
    validateDatumCoinbasePayoutContext host config coinbase pow latestTemplate datumJob state
      = match datumExpected? host config latestTemplate datumJob state with
        | none => .threw
        | some expected =>
          if paysOutputs host coinbase pow expected then .valid
          else
            match state.coinbaserPayoutContexts.values.find?
                (matchesContext host coinbase pow datumJob state) with
            | some context => .validFor context
            | none => .invalid := by
  unfold validateDatumCoinbasePayoutContext datumExpected? datumReward matchesContext
  cases datumJob.expectedPayoutOutputs <;> rfl

/-- The outputs that a DATUM coinbase was accepted for. -/
def acceptedOutputs (expected : List CoinbasePayoutOutput) :
    PayoutValidation → Option (List CoinbasePayoutOutput)
  | .valid => some expected
  | .validFor context => some context.payoutOutputs
  | _ => none

/-- A DATUM coinbase that is accepted pays the outputs it is accepted for. -/
theorem paysOutputs_of_accepted {latestTemplate : JobTemplate} {datumJob : DatumJobCache}
    {state : DatumClientState}
    (hexpected : datumExpected? host config latestTemplate datumJob state = some expected)
    (h : acceptedOutputs expected (validateDatumCoinbasePayoutContext host config coinbase pow
      latestTemplate datumJob state) = some outputs) :
    paysOutputs host coinbase pow outputs = true := by
  have hform := validateDatumCoinbasePayoutContext_eq host config coinbase pow latestTemplate
    datumJob state
  rw [hexpected] at hform
  simp only [hform] at h
  by_cases hpays : paysOutputs host coinbase pow expected = true
  · rw [if_pos hpays] at h
    cases h
    exact hpays
  · rw [if_neg hpays] at h
    cases hfound : state.coinbaserPayoutContexts.values.find?
        (matchesContext host coinbase pow datumJob state) with
    | none =>
      rw [hfound] at h
      cases h
    | some context =>
      rw [hfound] at h
      cases h
      have hcontext := List.find?_some hfound
      rw [matchesContext, Bool.and_eq_true] at hcontext
      exact hcontext.2

/-! ### The pool's own coinbase -/

/-- What the template provider and the custom jobs compare in a coinbase of the pool. -/
theorem payoutOutputsOf_own (houts : tx.outs = paid ++ [commitment])
    (hcommitment : commitment.value = 0) (hpaid : ∀ output ∈ paid, 0 < output.value)
    (hplain : ∀ output ∈ paid, output.script.head? ≠ some opReturn) :
    payoutOutputsOf tx = paid.map paidBy := by
  have hkept : paid.filter (fun output =>
      !isWitnessCommitmentOutput output.script && output.value ≠ 0) = paid := by
    refine List.filter_eq_self.mpr fun output houtput => ?_
    have hvalue : output.value ≠ 0 := (hpaid output houtput).ne'
    have hscript : isWitnessCommitmentOutput output.script = false :=
      isWitnessCommitmentOutput_eq_false (hplain output houtput)
    simp [hvalue, hscript]
  rw [payoutOutputsOf, houts, List.filter_append, hkept, List.filter_cons_of_neg (by simp [hcommitment]),
    List.filter_nil, List.append_nil]
  rfl

/-- What the DATUM validation compares in a coinbase of the pool. -/
theorem datumOutputsOf_own (houts : tx.outs = paid ++ [commitment])
    (hcommitment : commitment.value = 0) (hopReturn : commitment.script.head? = some opReturn)
    (hplain : ∀ output ∈ paid, output.script.head? ≠ some opReturn) :
    datumOutputsOf tx = paid.map paidBy := by
  have hkept : paid.filter (fun output => !isIgnoredCoinbaseMetadataOutput output) = paid := by
    refine List.filter_eq_self.mpr fun output houtput => ?_
    have hscript := hplain output houtput
    simp [isIgnoredCoinbaseMetadataOutput, isWitnessCommitmentOutput_eq_false hscript, hscript]
  have hdropped : isIgnoredCoinbaseMetadataOutput commitment = true := by
    simp [isIgnoredCoinbaseMetadataOutput, hcommitment, hopReturn]
  rw [datumOutputsOf, houts, List.filter_append, hkept,
    List.filter_cons_of_neg (by simp [hdropped]), List.filter_nil, List.append_nil]

/-- A payout list whose amounts are positive and come to no more than the reward. -/
structure PayableList (payouts : List AddressObject) (reward : ℤ) : Prop where
  ne_nil : payouts ≠ []
  pos : ∀ recipient ∈ payouts, 0 < recipient.amount reward
  sum_le : (payouts.map (·.amount reward)).sum ≤ reward

/-- No recipient gets more than the reward. -/
theorem PayableList.amount_le (h : PayableList payouts reward) {recipient : AddressObject}
    (hmem : recipient ∈ payouts) : recipient.amount reward ≤ reward := by
  refine (List.single_le_sum ?_ _ (List.mem_map_of_mem hmem)).trans h.sum_le
  intro amount hamount
  obtain ⟨other, hother, rfl⟩ := List.mem_map.mp hamount
  exact (h.pos other hother).le

theorem PayableList.reward_nonneg (h : PayableList payouts reward) : 0 ≤ reward := by
  obtain ⟨recipient, hmem⟩ := List.exists_mem_of_ne_nil payouts h.ne_nil
  have hpos := h.pos recipient hmem
  have hle := h.amount_le hmem
  omega

/-- A payout list of a reward that doubles can hold is handed out without rounding. -/
theorem PayableList.subtractRounded_eq (h : PayableList payouts reward) (hreward : reward < 2 ^ 53)
    :
    subtractRounded Js.toDouble reward (payouts.map (·.amount reward))
      = reward - (payouts.map (·.amount reward)).sum := by
  have hnonneg : ∀ amount ∈ payouts.map (·.amount reward), 0 ≤ amount := by
    intro amount hamount
    obtain ⟨recipient, hmem, rfl⟩ := List.mem_map.mp hamount
    exact (h.pos recipient hmem).le
  refine subtractRounded_of_fixed _ ?_
  rintro first ⟨rest, hamounts⟩
  rw [← hamounts] at hnonneg
  have hfirst : 0 ≤ first.sum :=
    List.sum_nonneg fun amount hmem => hnonneg amount (List.mem_append_left _ hmem)
  have hrest : 0 ≤ rest.sum :=
    List.sum_nonneg fun amount hmem => hnonneg amount (List.mem_append_right _ hmem)
  have hsum : first.sum + rest.sum ≤ reward := by
    rw [← List.sum_append, hamounts]
    exact h.sum_le
  exact Js.toDouble_of_lt (by omega) (by omega)

/-- The amounts of such a list are doubles. -/
theorem PayableList.mapM_toDouble (h : PayableList payouts reward) (hreward : reward < 2 ^ 53) :
    (payouts.mapM fun recipient => do
      let scriptPubKey ← host.toOutputScript recipient.address network
      return ({ value := Js.toDouble (recipient.amount reward), scriptPubKey } :
        CoinbasePayoutOutput))
      = payouts.mapM (recipientOutput (host.toOutputScript · network) reward) := by
  have hrecipient : ∀ recipient ∈ payouts, (do
      let scriptPubKey ← host.toOutputScript recipient.address network
      return ({ value := Js.toDouble (recipient.amount reward), scriptPubKey } :
        CoinbasePayoutOutput))
        = recipientOutput (host.toOutputScript · network) reward recipient := by
    intro recipient hmem
    have hpos := h.pos recipient hmem
    have hle := h.amount_le hmem
    rw [recipientOutput, Js.toDouble_of_lt (by omega) (by omega)]
    cases host.toOutputScript recipient.address network <;> rfl
  clear h hreward
  induction payouts with
  | nil => rfl
  | cons recipient rest ih =>
    rw [List.mapM_cons, List.mapM_cons, hrecipient recipient List.mem_cons_self,
      ih fun other hother => hrecipient other (List.mem_cons_of_mem _ hother)]

/-- In pplns mode a DATUM gateway is given the payout list of the template. -/
theorem getDatumPayoutOutputs_eq (h : PayableList payouts reward) (hreward : reward < 2 ^ 53) :
    getDatumPayoutOutputs host config (some payouts) reward .pplns
      = settledOutputs host config.network payouts reward := by
  unfold getDatumPayoutOutputs
  rw [max_eq_right h.reward_nonneg, Option.getD_some, settledOutputs]
  simp only [ne_eq, h.ne_nil, not_false_eq_true, and_self, if_true]
  rw [h.mapM_toDouble hreward]
  cases hcase : payouts.mapM (recipientOutput (host.toOutputScript · config.network) reward) with
  | none => rfl
  | some outputs =>
    obtain ⟨hvalues, -⟩ := mapM_recipientOutput hcase
    have hbalance := h.subtractRounded_eq hreward
    rw [← hvalues] at hbalance
    simp only [Option.bind_eq_bind, Option.bind_some, Option.pure_def, Option.map_some, hbalance]
    cases outputs <;> rfl

theorem isSatoshi_iff {value : ℤ} : isSatoshi value = true ↔ 0 ≤ value ∧ value ≤ 21 * 10 ^ 14 := by
  simp [isSatoshi]

/-- The outputs for a payable list are positive, come to the reward and pay scripts of
addresses. -/
theorem settledOutputs_sound (h : PayableList payouts reward)
    (houtputs : settledOutputs host network payouts reward = some outputs) :
    outputs ≠ [] ∧ totalValue outputs = reward ∧ (∀ output ∈ outputs, 0 < output.value) ∧
      ∀ output ∈ outputs, ∃ address, host.toOutputScript address network
        = some output.scriptPubKey := by
  obtain ⟨unsettled, hunsettled, rfl⟩ := Option.map_eq_some_iff.mp houtputs
  obtain ⟨hvalues, hscripts⟩ := mapM_recipientOutput hunsettled
  have hne : unsettled ≠ [] := by
    rintro rfl
    exact h.ne_nil (List.map_eq_nil_iff.mp hvalues.symm)
  refine ⟨?_, totalValue_settle hne, settle_pos ?_ ?_, ?_⟩
  · intro heq
    have hlength := congrArg List.length heq
    rw [settle, List.length_modifyHead] at hlength
    exact hne (List.length_eq_zero_iff.mp hlength)
  · intro output houtput
    have hamount : output.value ∈ payouts.map (·.amount reward) :=
      hvalues ▸ List.mem_map_of_mem houtput
    obtain ⟨recipient, hmem, heq⟩ := List.mem_map.mp hamount
    rw [← heq]
    exact h.pos recipient hmem
  · rw [totalValue, hvalues]
    exact h.sum_le
  · intro output houtput
    have hscript : output.scriptPubKey ∈ unsettled.map (·.scriptPubKey) :=
      scripts_settle reward unsettled ▸ List.mem_map_of_mem houtput
    obtain ⟨other, hother, heq⟩ := List.mem_map.mp hscript
    obtain ⟨address, haddress⟩ := hscripts other hother
    exact ⟨address, heq ▸ haddress⟩

/-- The coinbase of a job for a payable list: outputs that pay the list, then the commitment. -/
theorem exists_miningJob (h : PayableList payouts reward) (hreward : reward ≤ 21 * 10 ^ 14)
    (hscripts : ∀ address, getPaymentScript host network address
      = host.toOutputScript address network)
    (houtputs : settledOutputs host network payouts reward = some outputs) (jobId : String)
    {jobTemplate : JobTemplate} (hcoinbasevalue : jobTemplate.blockData.coinbasevalue = reward)
    (worker : Option String) (now : ℕ) :
    ∃ job paid, MiningJob.create host network jobId payouts jobTemplate worker now = some job ∧
      paid.map paidBy = outputs ∧ job.coinbaseTransaction.outs
        = paid ++ [witnessCommitmentOutput host jobTemplate.block.witnessCommit] := by
  have hamounts : ∀ recipient ∈ payouts, isSatoshi (recipient.amount reward) = true := by
    intro recipient hmem
    exact isSatoshi_iff.mpr ⟨(h.pos recipient hmem).le, (h.amount_le hmem).trans hreward⟩
  have hcreated := createCoinbaseTransaction_eq h.ne_nil hscripts hamounts
  rw [houtputs] at hcreated
  obtain ⟨coinbase, hcoinbase, hpaid⟩ := Option.map_eq_some_iff.mp hcreated
  obtain ⟨-, htotal, hpos, -⟩ := settledOutputs_sound h houtputs
  -- every output fits the eight bytes it is written in
  have hfits : ∀ output ∈ coinbase.outs, isSerializableValue output.value = true := by
    intro output houtput
    have hmem : paidBy output ∈ outputs := hpaid ▸ List.mem_map_of_mem houtput
    have hvalue : 0 < output.value := hpos _ hmem
    have hle : output.value ≤ totalValue outputs := by
      refine List.single_le_sum ?_ _ (List.mem_map_of_mem (f := CoinbasePayoutOutput.value) hmem)
      intro value hvalue
      obtain ⟨other, hother, rfl⟩ := List.mem_map.mp hvalue
      exact (hpos other hother).le
    rw [htotal] at hle
    simp only [isSerializableValue, Bool.and_eq_true, decide_eq_true_eq]
    omega
  have hall : (coinbase.outs ++ [witnessCommitmentOutput host jobTemplate.block.witnessCommit]).all
      (fun output => isSerializableValue output.value) = true := by
    rw [List.all_append, Bool.and_eq_true]
    exact ⟨List.all_eq_true.mpr hfits, rfl⟩
  unfold MiningJob.create jobCoinbase
  rw [hcoinbasevalue, hcoinbase]
  simp only [Option.bind_eq_bind, Option.bind_some, Option.pure_def, hall, if_true]
  exact ⟨_, coinbase.outs, rfl, hpaid, rfl⟩

end

/-! ### The builders agree -/

section
variable (host : Externals) (config : DatumConfig) (payouts : List AddressObject) (reward : ℤ)

/-- The four builders make the same outputs, or all throw, and the outputs come to the reward. -/
structure BuildersAgree (outputs : Option (List CoinbasePayoutOutput)) : Prop where
  templateProvider : buildCoinbasePayoutOutputs host config.network payouts reward = outputs
  customJob : Context.buildExpectedPayoutOutputs host config.network payouts reward = outputs
  datum : getDatumPayoutOutputs host config (some payouts) reward .pplns = outputs
  miningJob : (createCoinbaseTransaction host config.network payouts reward).map
    (·.outs.map paidBy) = outputs
  total : ∀ paid ∈ outputs, totalValue paid = reward

/-- A transaction that is read from some bytes is accepted by the three validators. A DATUM job
may name the reward and the outputs, or leave them to the template. -/
structure AcceptedByAll (outputs : List CoinbasePayoutOutput) (coinbaseTx : Bytes) : Prop where
  templateProvider : validateCoinbaseTransactionPayoutOutputs host config.network coinbaseTx
    payouts reward = some none
  customJob : Context.validateCoinbasePayoutOutputs host config.network coinbaseTx payouts reward
    = some none
  datum : ∀ coinbase pow latestTemplate datumJob (state : DatumClientState),
    submittedCoinbase coinbase pow = some coinbaseTx →
    latestTemplate.blockData.payoutOutputs = some payouts →
    latestTemplate.blockData.coinbasevalue = reward →
    (∀ value : ℕ, datumJob.coinbaseValue = some value → (value : ℤ) = reward) →
    (∀ expected ∈ datumJob.expectedPayoutOutputs, expected = outputs) →
    state.payoutMode = .pplns →
    validateDatumCoinbasePayoutContext host config coinbase pow latestTemplate datumJob state
      = .valid

variable {host config payouts reward}

theorem buildersAgree (h : PayableList payouts reward) (hreward : reward ≤ 21 * 10 ^ 14)
    (hscripts : ∀ address, getPaymentScript host config.network address
      = host.toOutputScript address config.network) :
    BuildersAgree host config payouts reward
      (settledOutputs host config.network payouts reward) where
  templateProvider := buildCoinbasePayoutOutputs_eq payouts reward
  customJob := buildExpectedPayoutOutputs_eq payouts h.reward_nonneg
  datum := getDatumPayoutOutputs_eq h (by omega)
  miningJob := createCoinbaseTransaction_eq h.ne_nil hscripts fun recipient hmem =>
    isSatoshi_iff.mpr ⟨(h.pos recipient hmem).le, (h.amount_le hmem).trans hreward⟩
  total _ hpaid := (settledOutputs_sound h hpaid).2.1

/-- A number below `2 ^ 53` is a double. -/
theorem roundToDouble_of_lt {n : ℕ} (h : n < 2 ^ 53) : Js.roundToDouble n = n := if_pos h

/-- A coinbase that pays a list, with a commitment besides, is accepted. -/
theorem acceptedByAll {outputs : List CoinbasePayoutOutput} {coinbaseTx : Bytes}
    {tx : Transaction} {paid : List TxOutput} {commitment : TxOutput}
    (h : PayableList payouts reward) (hreward : reward ≤ 21 * 10 ^ 14)
    (houtputs : settledOutputs host config.network payouts reward = some outputs)
    (hplain : ∀ address script, host.toOutputScript address config.network = some script →
      script.head? ≠ some opReturn)
    (htx : host.fromBuffer coinbaseTx = some tx) (houts : tx.outs = paid ++ [commitment])
    (hpaid : paid.map paidBy = outputs) (hcommitment : commitment.value = 0)
    (hopReturn : commitment.script.head? = some opReturn) :
    AcceptedByAll host config payouts reward outputs coinbaseTx := by
  obtain ⟨hne, -, hpos, hscripts⟩ := settledOutputs_sound h houtputs
  have hpaidPos : ∀ output ∈ paid, 0 < output.value := by
    intro output houtput
    exact hpos (paidBy output) (hpaid ▸ List.mem_map_of_mem houtput)
  have hpaidPlain : ∀ output ∈ paid, output.script.head? ≠ some opReturn := by
    intro output houtput
    obtain ⟨address, haddress⟩ := hscripts (paidBy output) (hpaid ▸ List.mem_map_of_mem houtput)
    exact hplain address _ haddress
  have hcompared : payoutOutputsOf tx = outputs := by
    rw [payoutOutputsOf_own houts hcommitment hpaidPos hpaidPlain, hpaid]
  have hdatum : datumOutputsOf tx = outputs := by
    rw [datumOutputsOf_own houts hcommitment hopReturn hpaidPlain, hpaid]
  refine ⟨?_, ?_, ?_⟩
  · have hexpected := (buildCoinbasePayoutOutputs_eq payouts reward).trans houtputs
    exact (validateCoinbaseTransactionPayoutOutputs_iff htx hexpected).mpr ⟨hne, hcompared⟩
  · have hexpected := (buildExpectedPayoutOutputs_eq payouts h.reward_nonneg).trans houtputs
    exact (validateCoinbasePayoutOutputs_iff htx hexpected).mpr hcompared
  · intro coinbase pow latestTemplate datumJob state hsubmitted hpayouts hvalue hjobValue
      hjobOutputs hmode
    have hdatumReward : datumReward latestTemplate datumJob = reward := by
      unfold datumReward
      cases hcase : datumJob.coinbaseValue with
      | none => exact hvalue
      | some value =>
        have heq := hjobValue value hcase
        have hlt : value < 2 ^ 53 := by omega
        show ((Js.roundToDouble value : ℕ) : ℤ) = reward
        rw [roundToDouble_of_lt hlt]
        exact heq
    have hexpected : datumExpected? host config latestTemplate datumJob state = some outputs := by
      unfold datumExpected?
      cases hcase : datumJob.expectedPayoutOutputs with
      | none =>
        rw [Option.none_or, hdatumReward, hpayouts, hmode,
          getDatumPayoutOutputs_eq h (by omega)]
        exact houtputs
      | some expected => rw [Option.some_or, hjobOutputs expected hcase]
    have hpays : paysOutputs host coinbase pow outputs = true :=
      (paysOutputs_iff hsubmitted htx).mpr ⟨hne, hdatum⟩
    rw [validateDatumCoinbasePayoutContext_eq, hexpected]
    exact if_pos hpays

/-- The four builders agree, and the pool's own coinbase passes the three validators. For a
payable list whose reward an output can carry, the builders make the same outputs, which come to
the reward; and whatever miners put into the input of a job's coinbase, a transaction with its
outputs is accepted. -/
theorem payout_outputs_agree (host : Externals) (config : DatumConfig)
    (payouts : List AddressObject) (reward : ℤ) (h : PayableList payouts reward)
    (hreward : reward ≤ 21 * 10 ^ 14)
    (hscripts : ∀ address, getPaymentScript host config.network address
      = host.toOutputScript address config.network)
    (hplain : ∀ address script, host.toOutputScript address config.network = some script →
      script.head? ≠ some opReturn)
    (hopReturn : ∀ data, (host.compileOpReturn data).head? = some opReturn) :
    ∃ built, BuildersAgree host config payouts reward built ∧
      ∀ outputs ∈ built, ∀ jobId jobTemplate worker now,
        jobTemplate.blockData.coinbasevalue = reward →
        ∃ job, MiningJob.create host config.network jobId payouts jobTemplate worker now
            = some job ∧
          ∀ coinbaseTx tx, host.fromBuffer coinbaseTx = some tx →
            tx.outs = job.coinbaseTransaction.outs →
              AcceptedByAll host config payouts reward outputs coinbaseTx := by
  refine ⟨_, buildersAgree h hreward hscripts, ?_⟩
  intro outputs houtputs jobId jobTemplate worker now hvalue
  obtain ⟨job, paid, hjob, hpaid, houts⟩ :=
    exists_miningJob h hreward hscripts houtputs jobId hvalue worker now
  refine ⟨job, hjob, fun coinbaseTx tx htx htxOuts => ?_⟩
  exact acceptedByAll h hreward houtputs hplain htx (htxOuts.trans houts) hpaid rfl
    (hopReturn _)

end

namespace CoinbaseSample

def scriptA : Bytes := 0x00 :: 0x14 :: List.replicate 20 1

def scriptB : Bytes := 0x00 :: 0x14 :: List.replicate 20 2

def host : Externals :=
  Externals.reference (fun _ => Digest.ofNat 0) [("A", scriptA), ("B", scriptB)]

def config : DatumConfig where
  network := .mainnet
  poolPayoutAddress := some "A"
  shareDifficulty := 1

/-- A third of the reward for `A` and a fixed amount for `B`. -/
def payouts : List AddressObject :=
  [{ address := "A", percent := some (100 / 3), amountSats := none },
    { address := "B", percent := none, amountSats := some 1000 }]

/-- More than the coins there will ever be, for `A`. -/
def hugePayouts : List AddressObject :=
  [{ address := "A", percent := none, amountSats := some (21 * 10 ^ 14 + 1) }]

theorem getPaymentScript_host (address : String) :
    getPaymentScript host config.network address = host.toOutputScript address config.network := by
  simp only [getPaymentScript, host, Externals.reference]
  cases List.lookup address [("A", scriptA), ("B", scriptB)] <;> rfl

theorem plain_host {address : String} {script : Bytes}
    (h : host.toOutputScript address config.network = some script) :
    script.head? ≠ some opReturn := by
  obtain ⟨before, after, hscripts, -⟩ := List.lookup_eq_some_iff.mp h
  have hmem : (address, script) ∈ [("A", scriptA), ("B", scriptB)] := by
    rw [hscripts]
    exact List.mem_append_right _ List.mem_cons_self
  rw [List.mem_cons, List.mem_singleton] at hmem
  obtain ⟨rfl, rfl⟩ | ⟨rfl, rfl⟩ := hmem.imp Prod.mk.inj Prod.mk.inj
  · decide
  · decide

end CoinbaseSample

open CoinbaseSample in
/-- A job can not carry an amount that no output can carry; the other builders can. -/
theorem not_payout_outputs_agree_huge :
    PayableList hugePayouts (21 * 10 ^ 14 + 1) ∧
      ¬ ∃ built, BuildersAgree host config hugePayouts (21 * 10 ^ 14 + 1) built := by
  constructor
  · refine ⟨by decide, ?_, by decide +kernel⟩
    intro recipient hmem
    rw [List.mem_singleton.mp hmem]
    decide +kernel
  · rintro ⟨built, hagree⟩
    have hsame := hagree.miningJob.trans hagree.templateProvider.symm
    revert hsame
    decide +kernel

open CoinbaseSample in
theorem payout_outputs_agree_sample :
    ∃ built, BuildersAgree host config payouts 5000000000 built ∧
      ∀ outputs ∈ built, ∀ jobId jobTemplate worker now,
        jobTemplate.blockData.coinbasevalue = 5000000000 →
        ∃ job, MiningJob.create host config.network jobId payouts jobTemplate worker now
            = some job ∧
          ∀ coinbaseTx tx, host.fromBuffer coinbaseTx = some tx →
            tx.outs = job.coinbaseTransaction.outs →
              AcceptedByAll host config payouts 5000000000 outputs coinbaseTx := by
  have hpayable : PayableList payouts 5000000000 := by
    refine ⟨by decide, ?_, by decide +kernel⟩
    intro recipient hmem
    rcases List.mem_cons.mp hmem with rfl | hrest
    · decide +kernel
    · rw [List.mem_singleton.mp hrest]
      decide +kernel
  exact payout_outputs_agree host config payouts 5000000000 hpayable (by decide)
    getPaymentScript_host (fun _ _ => plain_host) fun _ => rfl

/-! ### What the validators leave out -/

/-- A miner's coinbase is accepted for a list of outputs, by one of the three validators. -/
inductive AcceptsCoinbase (host : Externals) : Transaction → List CoinbasePayoutOutput → Prop
  | templateProvider {network : Network} {coinbaseTx : Bytes} {payouts : List AddressObject}
      {reward : ℤ} {tx : Transaction} {expected : List CoinbasePayoutOutput}
      (htx : host.fromBuffer coinbaseTx = some tx)
      (hexpected : buildCoinbasePayoutOutputs host network payouts reward = some expected)
      (hvalid : validateCoinbaseTransactionPayoutOutputs host network coinbaseTx payouts reward
        = some none) :
      AcceptsCoinbase host tx expected
  | customJob {network : Network} {coinbaseTx : Bytes} {payouts : List AddressObject}
      {reward : ℤ} {tx : Transaction} {expected : List CoinbasePayoutOutput}
      (htx : host.fromBuffer coinbaseTx = some tx)
      (hexpected : Context.buildExpectedPayoutOutputs host network payouts reward = some expected)
      (hvalid : Context.validateCoinbasePayoutOutputs host network coinbaseTx payouts reward
        = some none) :
      AcceptsCoinbase host tx expected
  | datum {config : DatumConfig} {coinbase : CoinbasePair} {pow : DatumPowSubmit}
      {latestTemplate : JobTemplate} {datumJob : DatumJobCache} {state : DatumClientState}
      {coinbaseTx : Bytes} {tx : Transaction} {expected outputs : List CoinbasePayoutOutput}
      (hsubmitted : submittedCoinbase coinbase pow = some coinbaseTx)
      (htx : host.fromBuffer coinbaseTx = some tx)
      (hexpected : datumExpected? host config latestTemplate datumJob state = some expected)
      (hvalid : acceptedOutputs expected (validateDatumCoinbasePayoutContext host config coinbase
        pow latestTemplate datumJob state) = some outputs) :
      AcceptsCoinbase host tx outputs

/-- The value of all outputs of a transaction. -/
def spentValue (tx : Transaction) : ℤ := (tx.outs.map (·.value)).sum

/-- The value of the outputs that are shaped like a witness commitment. -/
def commitmentValue (outs : List TxOutput) : ℤ :=
  ((outs.filter fun output => isWitnessCommitmentOutput output.script).map (·.value)).sum

theorem commitmentValue_cons (output : TxOutput) (outs : List TxOutput) :
    commitmentValue (output :: outs)
      = (if isWitnessCommitmentOutput output.script then output.value else 0)
        + commitmentValue outs := by
  cases hshape : isWitnessCommitmentOutput output.script <;> simp [commitmentValue, hshape]

/-- A comparison that leaves out the commitment-shaped outputs, and besides them outputs without
value only. -/
theorem totalValue_compared {keeps : TxOutput → Bool}
    (hcommitment : ∀ output, isWitnessCommitmentOutput output.script = true → keeps output = false)
    (hkeeps : ∀ output, isWitnessCommitmentOutput output.script = false → keeps output = false →
      output.value = 0) (outs : List TxOutput) :
    totalValue ((outs.filter keeps).map paidBy) + commitmentValue outs
      = (outs.map (·.value)).sum := by
  induction outs with
  | nil => rfl
  | cons output outs ih =>
    rw [commitmentValue_cons, List.map_cons, List.sum_cons, ← ih]
    cases hshape : isWitnessCommitmentOutput output.script with
    | true =>
      rw [List.filter_cons_of_neg (by simp [hcommitment output hshape]), if_pos rfl]
      omega
    | false =>
      rw [if_neg Bool.false_ne_true]
      cases hkept : keeps output with
      | true =>
        rw [List.filter_cons_of_pos hkept, List.map_cons, totalValue_cons]
        show output.value + _ + _ = _
        omega
      | false =>
        rw [List.filter_cons_of_neg (by simp [hkept]), hkeeps output hshape hkept]
        omega

section
variable {host : Externals} {tx : Transaction} {outputs : List CoinbasePayoutOutput}

/-- A coinbase that is accepted spends what the list spends, and what its commitment-shaped
outputs carry. -/
theorem AcceptsCoinbase.totalValue_eq (h : AcceptsCoinbase host tx outputs) :
    spentValue tx = totalValue outputs + commitmentValue tx.outs := by
  have hcompared : payoutOutputsOf tx = outputs ∨ datumOutputsOf tx = outputs := by
    cases h with
    | templateProvider htx hexpected hvalid =>
      exact Or.inl ((validateCoinbaseTransactionPayoutOutputs_iff htx hexpected).mp hvalid).2
    | customJob htx hexpected hvalid =>
      exact Or.inl ((validateCoinbasePayoutOutputs_iff htx hexpected).mp hvalid)
    | datum hsubmitted htx hexpected hvalid =>
      have hpays := paysOutputs_of_accepted hexpected hvalid
      exact Or.inr ((paysOutputs_iff hsubmitted htx).mp hpays).2
  rcases hcompared with rfl | rfl
  · refine (totalValue_compared ?_ ?_ tx.outs).symm
    · intro output hshape
      simp [hshape]
    · intro output hshape hkept
      simpa [hshape] using hkept
  · refine (totalValue_compared ?_ ?_ tx.outs).symm
    · intro output hshape
      simp [isIgnoredCoinbaseMetadataOutput, hshape]
    · intro output hshape hkept
      simp only [isIgnoredCoinbaseMetadataOutput, hshape, Bool.false_or, Bool.not_eq_false',
        Bool.and_eq_true, decide_eq_true_eq] at hkept
      exact hkept.1

end

/-- Soundness of the validators. A coinbase that is accepted spends exactly what the payout list
spends if and only if its outputs shaped like a witness commitment carry no value. Values are
read from the bytes as unsigned numbers. -/
theorem accepted_total_iff (host : Externals)
    (hvalues : ∀ coinbaseTx tx, host.fromBuffer coinbaseTx = some tx →
      ∀ output ∈ tx.outs, 0 ≤ output.value)
    {tx : Transaction} {outputs : List CoinbasePayoutOutput}
    (h : AcceptsCoinbase host tx outputs) :
    spentValue tx = totalValue outputs ↔
      ∀ output ∈ tx.outs, isWitnessCommitmentOutput output.script = true → output.value = 0 := by
  have hnonneg : ∀ output ∈ tx.outs, 0 ≤ output.value := by
    cases h with
    | templateProvider htx | customJob htx | datum _ htx => exact hvalues _ _ htx
  rw [h.totalValue_eq]
  constructor
  · intro htotal output houtput hshape
    have hzero : commitmentValue tx.outs = 0 := by omega
    refine List.all_zero_of_le_zero_le_of_sum_eq_zero ?_ hzero
      (List.mem_map_of_mem (List.mem_filter.mpr ⟨houtput, hshape⟩))
    intro value hvalue
    obtain ⟨other, hother, rfl⟩ := List.mem_map.mp hvalue
    exact hnonneg other (List.mem_of_mem_filter hother)
  · intro hempty
    have hzero : commitmentValue tx.outs = 0 := by
      refine List.sum_eq_zero fun value hvalue => ?_
      obtain ⟨output, hmem, rfl⟩ := List.mem_map.mp hvalue
      obtain ⟨houtput, hshape⟩ := List.mem_filter.mp hmem
      exact hempty output houtput hshape
    omega

namespace CoinbaseSample

/-- Everything to `A`. -/
def wholePayouts : List AddressObject :=
  [{ address := "A", percent := none, amountSats := some 5000000000 }]

def wholeOutputs : List CoinbasePayoutOutput := [{ value := 5000000000, scriptPubKey := scriptA }]

/-- A coinbase that pays `A` everything, and some more to an output shaped like a witness
commitment. -/
def diverting : Transaction where
  version := 2
  ins := [{
    hash := List.replicate 32 0, index := 0xffffffff, script := [3, 0, 0x35, 0x0c],
    sequence := 0xffffffff, witness := [] }]
  outs := [{ value := 5000000000, script := scriptA },
    { value := 1000, script := witnessCommitmentHeader ++ List.replicate 32 9 }]
  locktime := 0

def divertingBytes : Bytes := TxCodec.serialize false diverting

/-- A DATUM submission of the coinbase. -/
def divertingPair : CoinbasePair where
  coinb1 := divertingBytes
  coinb2 := []

/-- A submission that names no target byte. -/
def divertingPow : DatumPowSubmit :=
  { DatumSample.pow false with extranonce := [], targetByteIndex := none }

/-- The environment, with the readings of one transaction only. -/
def narrowHost : Externals :=
  { host with
    fromBuffer := fun coinbaseTx => if coinbaseTx = divertingBytes then some diverting else none }

end CoinbaseSample

open CoinbaseSample in
/-- All three validators accept a coinbase that spends more than the payout list. -/
theorem not_accepted_total_commitment :
    host.fromBuffer divertingBytes = some diverting ∧
      validateCoinbaseTransactionPayoutOutputs host .mainnet divertingBytes wholePayouts
        5000000000 = some none ∧
      Context.validateCoinbasePayoutOutputs host .mainnet divertingBytes wholePayouts
        5000000000 = some none ∧
      paysOutputs host divertingPair divertingPow wholeOutputs = true ∧
      buildCoinbasePayoutOutputs host .mainnet wholePayouts 5000000000 = some wholeOutputs ∧
      spentValue diverting ≠ totalValue wholeOutputs := by
  decide +kernel

open CoinbaseSample in
theorem accepted_total_iff_sample :
    spentValue diverting = totalValue wholeOutputs ↔
      ∀ output ∈ diverting.outs,
        isWitnessCommitmentOutput output.script = true → output.value = 0 := by
  have hvalues : ∀ coinbaseTx tx, narrowHost.fromBuffer coinbaseTx = some tx →
      ∀ output ∈ tx.outs, 0 ≤ output.value := by
    intro coinbaseTx tx htx
    simp only [narrowHost] at htx
    split at htx
    · cases htx
      decide
    · cases htx
  have hexpected : buildCoinbasePayoutOutputs narrowHost .mainnet wholePayouts 5000000000
      = some wholeOutputs := by decide +kernel
  have hvalid : validateCoinbaseTransactionPayoutOutputs narrowHost .mainnet divertingBytes
      wholePayouts 5000000000 = some none := by decide +kernel
  exact accepted_total_iff narrowHost hvalues
    (.templateProvider (if_pos rfl) hexpected hvalid)

end PublicPool.Proofs
