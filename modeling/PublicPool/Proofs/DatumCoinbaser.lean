import PublicPool.Datum.Coinbaser
import PublicPool.Lib.PartialMaps
import PublicPool.Proofs.CoinbaseOutputs
import PublicPool.Proofs.DatumSessions

/-!
# `PublicPool.Proofs.DatumCoinbaser`: coinbaser answers that can be paid

A gateway asks for the outputs of a reward that it names. Every recipient has its amount, and what is
left of the reward goes to the first one, also when it is negative: the amounts are those of the
template, and the gateway's reward may be smaller. Amounts and balance are doubles, so that above
`2 ^ 53` the outputs may come to another sum than the reward.

`answersPayable_iff` is the exact account: an answer is sent, its outputs are not negative and come to
the reward, exactly if there are recipients with scripts that fit, the amounts behind the first are
not negative and within the reward, and rounding loses nothing. `roundsExactly_of_lt` says that it
loses nothing below `2 ^ 53`.
-/

set_option autoImplicit false

namespace PublicPool.Proofs

open Datum
open Lib

section
variable (host : Externals) (config : DatumConfig)

/-! ### Requests -/

/-- The recipients of an answer: those of the template in pplns mode, or the pool's own address. -/
def payoutRecipients (payoutOutputs : Option (List AddressObject)) (rewardValue : ℕ)
    (payoutMode : PayoutMode) : List AddressObject :=
  if payoutMode = .pplns ∧ payoutOutputs.getD [] ≠ [] then payoutOutputs.getD []
  else getDatumFallbackPayoutOutputs config (Js.toDouble rewardValue)

/-- What a recipient gets, in doubles. -/
def doubleAmount (rewardValue : ℕ) (recipient : AddressObject) : ℤ :=
  Js.toDouble (recipient.amount (Js.toDouble rewardValue))

/-- The errors of reading a reward as a double and of subtracting amounts from it cancel out. -/
def RoundsExactly (rewardValue : ℕ) (amounts : List ℤ) : Prop :=
  (Js.toDouble rewardValue - rewardValue)
    + (roundingErrors Js.toDouble (Js.toDouble rewardValue) amounts).sum = 0

/-- A request for a reward that can be handed out. -/
structure PayableRequest (recipients : List AddressObject) (rewardValue : ℕ) : Prop where
  ne_nil : recipients ≠ []
  scripts : ∀ recipient ∈ recipients, ∃ script,
    host.toOutputScript recipient.address config.network = some script ∧ script.length ≤ 255
  /-- No amount but that of the first is negative. -/
  others : ∀ recipient ∈ recipients.tail, 0 ≤ doubleAmount rewardValue recipient
  /-- The others leave something of the reward. -/
  covered : (recipients.tail.map (doubleAmount rewardValue)).sum ≤ rewardValue
  exact : RoundsExactly rewardValue (recipients.map (doubleAmount rewardValue))

/-- A request is answered with outputs that are not negative and come to the reward, and the answer
can be written. -/
def AnswersPayable (latestTemplate : JobTemplate) (state : DatumClientState) (rewardValue : ℕ) :
    Prop :=
  ∃ outputs coinbaserId,
    (handleCoinbaserFetch host config latestTemplate state rewardValue).2
      = [.coinbaserResponse rewardValue outputs coinbaserId] ∧
    (∀ output ∈ outputs, 0 ≤ output.value) ∧ totalValue outputs = rewardValue ∧
    (serializeDatumCoinbaserFetchResponse rewardValue outputs coinbaserId).isSome = true

variable {rewardValue : ℕ} {outputs : List CoinbasePayoutOutput}

/-- Below `2 ^ 53` nothing is lost. -/
theorem roundsExactly_of_lt {amounts : List ℤ} (hreward : rewardValue < 2 ^ 53)
    (hnonneg : ∀ amount ∈ amounts, 0 ≤ amount) (hsum : amounts.sum ≤ rewardValue) :
    RoundsExactly rewardValue amounts := by
  have hdouble : Js.toDouble rewardValue = rewardValue := Js.toDouble_of_lt (by omega) (by omega)
  have herrors : ∀ error ∈ roundingErrors Js.toDouble (rewardValue : ℤ) amounts, error = 0 := by
    refine roundingErrors_of_fixed Js.toDouble ?_
    rintro first ⟨rest, rfl⟩
    have hfirst : 0 ≤ first.sum :=
      List.sum_nonneg fun amount hmem => hnonneg amount (List.mem_append_left _ hmem)
    have hrest : 0 ≤ rest.sum :=
      List.sum_nonneg fun amount hmem => hnonneg amount (List.mem_append_right _ hmem)
    rw [List.sum_append] at hsum
    exact Js.toDouble_of_lt (by omega) (by omega)
  rw [RoundsExactly, hdouble, List.sum_eq_zero herrors]
  omega

/-! ### The outputs of an answer -/

/-- The output of a recipient, before the first one is given the rest. -/
def datumOutput (rewardValue : ℕ) (recipient : AddressObject) : Option CoinbasePayoutOutput :=
  (host.toOutputScript recipient.address config.network).map fun scriptPubKey =>
    { value := doubleAmount rewardValue recipient, scriptPubKey }

/-- What is left of a reward goes to the first output. -/
def addBalance (rewardValue : ℕ) : List CoinbasePayoutOutput → List CoinbasePayoutOutput
  | [] => []
  | first :: rest =>
    { first with
      value := first.value + subtractRounded Js.toDouble (Js.toDouble rewardValue)
        ((first :: rest).map (·.value)) } :: rest

theorem getDatumPayoutOutputs_eq_map (payoutOutputs : Option (List AddressObject))
    (rewardValue : ℕ) (payoutMode : PayoutMode) :
    getDatumPayoutOutputs host config payoutOutputs (Js.roundToDouble rewardValue) payoutMode
      = ((payoutRecipients config payoutOutputs rewardValue payoutMode).mapM
          (datumOutput host config rewardValue)).map (addBalance rewardValue) := by
  have houtput : (fun recipient : AddressObject => do
      let scriptPubKey ← host.toOutputScript recipient.address config.network
      return ({ value := Js.toDouble (recipient.amount (Js.toDouble rewardValue)), scriptPubKey } :
        CoinbasePayoutOutput)) = datumOutput host config rewardValue := by
    funext recipient
    rw [datumOutput]
    cases host.toOutputScript recipient.address config.network <;> rfl
  have hnonneg : max 0 (Js.toDouble rewardValue) = Js.toDouble rewardValue := by
    rw [Js.toDouble_natCast]
    exact max_eq_right (Int.natCast_nonneg _)
  rw [← Js.toDouble_natCast, getDatumPayoutOutputs, houtput, hnonneg, payoutRecipients]
  cases (if payoutMode = .pplns ∧ payoutOutputs.getD [] ≠ [] then payoutOutputs.getD []
    else getDatumFallbackPayoutOutputs config (Js.toDouble rewardValue)).mapM
      (datumOutput host config rewardValue) with
  | none => rfl
  | some outputs => cases outputs <;> rfl

variable {recipients : List AddressObject} {latestTemplate : JobTemplate} {state : DatumClientState}
  {first : CoinbasePayoutOutput} {rest : List CoinbasePayoutOutput}

/-- The amounts of the outputs. -/
theorem values_of_mapM (h : recipients.mapM (datumOutput host config rewardValue) = some outputs) :
    outputs.map (·.value) = recipients.map (doubleAmount rewardValue) := by
  have hvalues := mapM_eq_some_iff.mp h
  clear h
  induction hvalues with
  | nil => rfl
  | cons hvalue _ ih =>
    obtain ⟨scriptPubKey, -, rfl⟩ := Option.map_eq_some_iff.mp hvalue
    rw [List.map_cons, List.map_cons, ih]

/-- The scripts of the outputs fit exactly if those of the recipients do. -/
theorem scripts_of_mapM (h : recipients.mapM (datumOutput host config rewardValue) = some outputs) :
    (∀ output ∈ outputs, output.scriptPubKey.length ≤ 255) ↔
      ∀ recipient ∈ recipients, ∃ script,
        host.toOutputScript recipient.address config.network = some script ∧
          script.length ≤ 255 := by
  have hvalues := mapM_eq_some_iff.mp h
  clear h
  induction hvalues with
  | nil => exact ⟨fun _ _ hmem => (List.not_mem_nil hmem).elim, fun _ _ hmem =>
      (List.not_mem_nil hmem).elim⟩
  | cons hvalue _ ih =>
    obtain ⟨scriptPubKey, hscript, rfl⟩ := Option.map_eq_some_iff.mp hvalue
    rw [List.forall_mem_cons, List.forall_mem_cons, hscript]
    simp only [Option.some.injEq, exists_eq_left']
    exact and_congr_right fun _ => ih

/-- All amounts come to the reward, up to the errors of rounding. -/
theorem totalValue_addBalance (hne : outputs ≠ []) :
    totalValue (addBalance rewardValue outputs) = Js.toDouble rewardValue
      + (roundingErrors Js.toDouble (Js.toDouble rewardValue) (outputs.map (·.value))).sum := by
  cases outputs with
  | nil => exact absurd rfl hne
  | cons first rest =>
    rw [addBalance, totalValue_cons, subtractRounded_eq, List.map_cons, List.sum_cons]
    show first.value + (_ - (first.value + totalValue rest) + _) + totalValue rest = _
    omega

/-! ### Answers -/

/-- Outputs that come to the reward can be written exactly if none is negative and the scripts
fit. -/
theorem isSerializable_iff (hreward : rewardValue < 2 ^ 64)
    (htotal : totalValue outputs = rewardValue) :
    isSerializable outputs = true ↔ (∀ output ∈ outputs, 0 ≤ output.value) ∧
      ∀ output ∈ outputs, output.scriptPubKey.length ≤ 255 := by
  rw [isSerializable, List.all_eq_true]
  simp only [Bool.and_eq_true, decide_eq_true_eq]
  constructor
  · intro h
    exact ⟨fun output hmem => (h output hmem).1.1, fun output hmem => (h output hmem).2⟩
  · rintro ⟨hnonneg, hscripts⟩ output hmem
    have hle : output.value ≤ totalValue outputs := by
      refine List.single_le_sum ?_ _ (List.mem_map_of_mem (f := CoinbasePayoutOutput.value) hmem)
      intro value hvalue
      obtain ⟨other, hother, rfl⟩ := List.mem_map.mp hvalue
      exact hnonneg other hother
    exact ⟨⟨hnonneg output hmem, by omega⟩, hscripts output hmem⟩

/-- What is answered when there are outputs. -/
theorem answersPayable_of_outputs (hreward : rewardValue < 2 ^ 64)
    (hid : state.nextCoinbaserId ≤ 254)
    (houtputs : getDatumPayoutOutputs host config latestTemplate.blockData.payoutOutputs
      (Js.roundToDouble rewardValue) state.payoutMode = some (first :: rest)) :
    AnswersPayable host config latestTemplate state rewardValue ↔
      (∀ output ∈ first :: rest, 0 ≤ output.value) ∧ totalValue (first :: rest) = rewardValue ∧
        ∀ output ∈ first :: rest, output.scriptPubKey.length ≤ 255 := by
  have hevents : (handleCoinbaserFetch host config latestTemplate state rewardValue).2 =
      if isSerializable (first :: rest) then
        [.coinbaserResponse rewardValue (first :: rest) state.nextCoinbaserId]
      else [.closed] := by
    simp only [handleCoinbaserFetch, houtputs, nextDatumCoinbaserId]
    split <;> rfl
  have hwritten := serializeDatumCoinbaserFetchResponse_isSome hreward
    (hid.trans (by decide : 254 ≤ 255)) (first :: rest)
  constructor
  · rintro ⟨outputs, coinbaserId, hanswer, hnonneg, htotal, -⟩
    rw [hevents] at hanswer
    split at hanswer
    · rename_i hserializable
      obtain ⟨-, rfl, rfl⟩ := DatumEvent.coinbaserResponse.inj (List.cons.inj hanswer).1
      exact ⟨hnonneg, htotal, ((isSerializable_iff hreward htotal).mp hserializable).2⟩
    · cases (List.cons.inj hanswer).1
  · rintro ⟨hnonneg, htotal, hscripts⟩
    have hserializable := (isSerializable_iff hreward htotal).mpr ⟨hnonneg, hscripts⟩
    refine ⟨first :: rest, state.nextCoinbaserId, ?_, hnonneg, htotal, hwritten.trans hserializable⟩
    rw [hevents, if_pos hserializable]

/-- The amounts behind the first are not negative and leave something for it exactly if no output
is negative, once the outputs come to the reward. -/
theorem nonneg_addBalance_iff
    (htotal : totalValue (addBalance rewardValue (first :: rest)) = rewardValue) :
    (∀ output ∈ addBalance rewardValue (first :: rest), 0 ≤ output.value) ↔
      (∀ output ∈ rest, 0 ≤ output.value) ∧ totalValue rest ≤ rewardValue := by
  rw [addBalance, totalValue_cons] at htotal
  rw [addBalance, List.forall_mem_cons]
  constructor
  · rintro ⟨hfirst, hrest⟩
    exact ⟨hrest, by omega⟩
  · rintro ⟨hrest, hcovered⟩
    exact ⟨by omega, hrest⟩

/-- A request is answered with what its recipients come to. -/
theorem answersPayable_iff_payableRequest (hreward : rewardValue < 2 ^ 64)
    (hid : state.nextCoinbaserId ≤ 254) :
    AnswersPayable host config latestTemplate state rewardValue ↔
      PayableRequest host config (payoutRecipients config latestTemplate.blockData.payoutOutputs
        rewardValue state.payoutMode) rewardValue := by
  generalize hrecipients : payoutRecipients config latestTemplate.blockData.payoutOutputs
    rewardValue state.payoutMode = recipients
  have houtputs := getDatumPayoutOutputs_eq_map host config
    latestTemplate.blockData.payoutOutputs rewardValue state.payoutMode
  rw [hrecipients] at houtputs
  cases hmap : recipients.mapM (datumOutput host config rewardValue) with
  | none =>
    -- some recipient has no script, and the handler throws
    rw [hmap] at houtputs
    constructor
    · rintro ⟨outputs, coinbaserId, hevents, -⟩
      simp only [handleCoinbaserFetch, houtputs, Option.map_none, List.cons.injEq] at hevents
      cases hevents.1
    · intro h
      have hsome : ∃ outputs, recipients.mapM (datumOutput host config rewardValue) = some outputs := by
        refine exists_mapM_iff.mpr fun recipient hmem => ?_
        obtain ⟨script, hscript, -⟩ := h.scripts recipient hmem
        exact ⟨_, by rw [datumOutput, hscript]; rfl⟩
      obtain ⟨outputs, hsome⟩ := hsome
      rw [hmap] at hsome
      cases hsome
  | some unsettled =>
    have hvalues := values_of_mapM host config hmap
    have hscripts := scripts_of_mapM host config hmap
    rw [hmap, Option.map_some] at houtputs
    cases unsettled with
    | nil =>
      have hnil : recipients = [] := List.map_eq_nil_iff.mp hvalues.symm
      constructor
      · rintro ⟨outputs, coinbaserId, hevents, -⟩
        simp only [handleCoinbaserFetch, houtputs, addBalance, List.cons.injEq] at hevents
        cases hevents.1
      · intro h
        exact absurd hnil h.ne_nil
    | cons first rest =>
      cases recipients with
      | nil => cases hvalues
      | cons recipient recipients =>
        have hne : first :: rest ≠ [] := List.cons_ne_nil first rest
        have htail := (List.cons.inj hvalues).2
        have hothers : (∀ output ∈ rest, 0 ≤ output.value) ↔
            ∀ other ∈ recipients, 0 ≤ doubleAmount rewardValue other := by
          rw [← List.forall_mem_map (f := CoinbasePayoutOutput.value) (P := (0 ≤ ·)), htail,
            List.forall_mem_map]
        have hexact : totalValue (addBalance rewardValue (first :: rest)) = rewardValue ↔
            RoundsExactly rewardValue ((recipient :: recipients).map (doubleAmount rewardValue)) := by
          rw [totalValue_addBalance hne, hvalues, RoundsExactly]
          omega
        rw [answersPayable_of_outputs host config hreward hid houtputs]
        constructor
        · rintro ⟨hnonneg, htotal, hfits⟩
          obtain ⟨hrest, hcovered⟩ := (nonneg_addBalance_iff htotal).mp hnonneg
          refine ⟨List.cons_ne_nil _ _, hscripts.mp ?_, hothers.mp hrest, ?_, hexact.mp htotal⟩
          · -- the balance changes no script
            exact List.forall_mem_cons.mpr (List.forall_mem_cons.mp hfits)
          · rw [totalValue, htail] at hcovered
            exact hcovered
        · intro h
          have htotal := hexact.mpr h.exact
          refine ⟨(nonneg_addBalance_iff htotal).mpr ⟨hothers.mpr h.others, ?_⟩, htotal, ?_⟩
          · rw [totalValue, htail]
            exact h.covered
          · exact List.forall_mem_cons.mpr (List.forall_mem_cons.mp (hscripts.mpr h.scripts))

/-- Coinbaser answers that can be paid. In every session of every run, the answer to a request has
outputs that are not negative and come to the reward, and can be written, exactly if the request is
payable. -/
theorem answersPayable_iff (payout : PayoutConfig) {world : DatumWorld}
    (hstart : ∀ client, world.sessions client = none) (inputs : List DatumInput) {client : ℕ}
    {state : DatumClientState}
    (hsession : ((datumMachine host config payout).final world inputs).sessions client = some state)
    (latestTemplate : JobTemplate) {rewardValue : ℕ} (hreward : rewardValue < 2 ^ 64) :
    AnswersPayable host config latestTemplate state rewardValue ↔
      PayableRequest host config (payoutRecipients config latestTemplate.blockData.payoutOutputs
        rewardValue state.payoutMode) rewardValue :=
  answersPayable_iff_payableRequest host config hreward
    (nextCoinbaserId_le host config payout hstart inputs hsession)

end

namespace DatumSample

/-- A template whose payout list gives `A` two amounts of 1000. -/
def pairTemplate : JobTemplate :=
  { template with
    blockData :=
      { template.blockData with
        payoutOutputs := some (List.replicate 2
          { address := "A", percent := none, amountSats := some 1000 }) } }

/-- A pplns gateway that has just connected. -/
def gateway : DatumClientState := .initial "gateway" .pplns

end DatumSample

open DatumSample in
/-- A reward below the amounts makes the first output negative, and the connection is closed. A
reward that is no double comes out one smaller. -/
theorem not_answersPayable :
    ¬ AnswersPayable host config pairTemplate gateway 500 ∧
      ¬ AnswersPayable host config template gateway (2 ^ 53 + 1) := by
  constructor
  · intro h
    have hrequest := (answersPayable_iff_payableRequest host config (by decide) (by decide)).mp h
    exact absurd hrequest.covered (by decide +kernel)
  · intro h
    have hrequest := (answersPayable_iff_payableRequest host config (by decide) (by decide)).mp h
    have hloss : ¬ RoundsExactly (2 ^ 53 + 1) [5000000000] := by
      unfold RoundsExactly
      decide +kernel
    exact hloss hrequest.exact

open DatumSample in
theorem answersPayable_iff_sample :
    AnswersPayable host config pairTemplate gateway 5000 ↔
      PayableRequest host config (payoutRecipients config pairTemplate.blockData.payoutOutputs
        5000 gateway.payoutMode) 5000 := by
  have hstart : ∀ client, DatumSample.world.sessions client = none := fun _ => rfl
  have hsession : ((datumMachine host config payout).final DatumSample.world
      [.connect 0 "gateway" .pplns]).sessions 0 = some gateway := rfl
  exact answersPayable_iff host config payout hstart _ hsession pairTemplate (by decide)

end PublicPool.Proofs
