import PublicPool.Proofs.Payout.DistinctEntries

/-!
# `PublicPool.Proofs.Payout.WeightBudget`: the weight of a coinbase

A coinbase with an output for a miner fits the weight budget, less the safety margin, and a row
that could have been an output is left out only because it did not fit.

The loop over the eligible rows is first fit (`Lib.FirstFit`), which keeps what is used within
the budget. The stages after it change payouts and no inclusion, and the fee, for which room was
reserved, is either an output of its own or joins one that is counted already. So the outputs in
the end weigh at most what the loop used.
-/

set_option autoImplicit false

namespace PublicPool.Proofs

open Lib
open PayoutDistributionInput

variable (env : PayoutEnv)

/-- The weight of a coinbase with some outputs. -/
def coinbaseWeight (outputs : List PayoutDistributionEntry) : ℕ :=
  coinbaseBaseWeight + coinbaseWitnessCommitmentWeight +
    (outputs.map fun output => outputWeightForAddress env output.address).sum

/-- The addresses of miners that have an output. -/
def minerOutputs (input : PayoutDistributionInput) : List String :=
  ((input.minerEntries env).filter (·.includedInCoinbase)).map (·.address)

/-- The weight of the outputs for some addresses. -/
def outputsWeight (addresses : List String) : ℕ :=
  (addresses.map (outputWeightForAddress env)).sum

/-- The part of a list without repetitions that a sublist is. -/
theorem filter_mem_sublist {α : Type*} [DecidableEq α] {items taken : List α}
    (h : taken.Sublist items) (hnodup : items.Nodup) :
    items.filter (fun item => item ∈ taken) = taken := by
  induction h with
  | slnil => rfl
  | cons item h ih =>
    obtain ⟨hnotin, hrest⟩ := List.nodup_cons.mp hnodup
    rw [List.filter_cons_of_neg (by simpa using fun hmem => hnotin (h.subset hmem)), ih hrest]
  | cons_cons item h ih =>
    obtain ⟨hnotin, hrest⟩ := List.nodup_cons.mp hnodup
    rw [List.filter_cons_of_pos (by simp)]
    refine congrArg (item :: ·) ((List.filter_congr fun other hother => ?_).trans (ih hrest))
    have hne : other ≠ item := fun heq => hnotin (heq ▸ hother)
    simp [hne]

section
variable (input : PayoutDistributionInput)

/-! ### The rows that are tried -/

/-- Each address is tried once. -/
theorem nodup_eligible : ((input.eligible env).map (·.address)).Nodup := by
  obtain ⟨hkeyed, -⟩ := rows_allocatePayoutTargets env (unpaid_computations env input)
    input.minerRewardSats (sum_active_computations env input)
  exact ((Js.sort_perm _ _).map _).nodup_iff.mpr
    ((nodup_addresses hkeyed).sublist (List.filter_sublist.map _))

/-- The rows are tried in descending order of their payouts. -/
theorem pairwise_eligible :
    (input.eligible env).Pairwise fun a b => b.payoutSats ≤ a.payoutSats := by
  refine Js.pairwise_sort (fun a _ b _ hle => ?_) (fun a _ b _ hlt => ?_)
    fun a _ b _ c _ => ge_trans
  · -- the comparison asks for the payouts first
    by_contra hpaid
    have hpos : (0 : ℚ) < b.payoutSats - a.payoutSats := by
      have : (a.payoutSats : ℚ) < b.payoutSats := by exact_mod_cast not_le.mp hpaid
      linarith
    rw [comparePayouts, Js.orElse, if_neg hpos.ne'] at hle
    exact absurd hle (not_le.mpr hpos)
  · by_contra hpaid
    have hneg : (b.payoutSats : ℚ) - a.payoutSats < 0 := by
      have : (b.payoutSats : ℚ) < a.payoutSats := by exact_mod_cast not_le.mp hpaid
      linarith
    rw [comparePayouts, Js.orElse, if_neg hneg.ne] at hlt
    exact hlt hneg.le

/-! ### The outputs -/

/-- The miners with an output are those the loop takes. -/
theorem minerOutputs_perm :
    (minerOutputs env input).Perm ((chosenRows env input).map (·.address)) := by
  have hchosen : ((chosenRows env input).map (·.address)).Nodup :=
    (nodup_eligible env input).sublist ((firstFit_sublist _ _ _ _).map _)
  have hminer : (minerOutputs env input).Nodup :=
    (nodup_minerEntries env input).sublist (List.filter_sublist.map _)
  refine (List.perm_ext_iff_of_nodup hminer hchosen).mpr fun address => ?_
  rw [← exists_output_iff, minerOutputs, List.mem_map]
  simp only [List.mem_filter]
  constructor
  · rintro ⟨entry, ⟨hentry, hincluded⟩, haddress⟩
    exact ⟨entry, hentry, haddress, hincluded⟩
  · rintro ⟨entry, hentry, haddress, hincluded⟩
    exact ⟨entry, ⟨hentry, hincluded⟩, haddress⟩

/-- What the rows that are taken weigh. -/
theorem sum_rowWeight (rows : List ComputedAddress) :
    (rows.map (rowWeight env)).sum = (outputsWeight env (rows.map (·.address)) : ℚ) := by
  rw [outputsWeight, List.map_map]
  induction rows with
  | nil => simp
  | cons row rows ih =>
    rw [List.map_cons, List.map_cons, List.sum_cons, List.sum_cons, Nat.cast_add, ih]
    rfl

theorem outputsWeight_minerOutputs :
    outputsWeight env (minerOutputs env input)
      = outputsWeight env ((chosenRows env input).map (·.address)) :=
  ((minerOutputs_perm env input).map _).sum_eq

/-- What the loop uses fits the budget once it takes a row. -/
theorem usedWeight_le (hminer : minerOutputs env input ≠ []) :
    ((input.usedWeight env + outputsWeight env (minerOutputs env input) : ℕ) : ℚ)
      ≤ input.weightBudget - budgetSafetyMarginWeight := by
  have htaken : chosenRows env input ≠ [] := by
    intro hnil
    have hperm := minerOutputs_perm env input
    rw [hnil, List.map_nil, List.perm_nil] at hperm
    exact hminer hperm
  rw [outputsWeight_minerOutputs, Nat.cast_add, ← sum_rowWeight]
  exact add_sum_firstFit_le (rowWeight env) _ htaken

/-- The outputs weigh no more than the miners' outputs with the room that is reserved for the
fee. -/
theorem coinbaseWeight_le :
    coinbaseWeight env (buildPayoutDistribution env input).payoutOutputs
      ≤ input.usedWeight env + outputsWeight env (minerOutputs env input) := by
  -- the weight of an entry, read off its address and its flag
  let weigh (entry : PayoutDistributionEntry) : ℕ :=
    if entry.includedInCoinbase = true then outputWeightForAddress env entry.address else 0
  have hweigh : ∀ entries : List PayoutDistributionEntry,
      ((entries.filter (·.includedInCoinbase)).map fun output =>
        outputWeightForAddress env output.address).sum = (entries.map weigh).sum := by
    intro entries
    have hite := sum_filter_eq_sum_ite entries (·.includedInCoinbase = true)
      fun output => outputWeightForAddress env output.address
    simp only [Bool.decide_eq_true] at hite
    exact hite
  have hminer : outputsWeight env (minerOutputs env input)
      = ((input.minerEntries env).map weigh).sum := by
    rw [outputsWeight, minerOutputs, List.map_map]
    exact hweigh _
  have hmerged : ((input.mergedEntries env).map weigh).sum
      ≤ (if 0 < input.feeSats then outputWeightForAddress env input.feeOutputAddress else 0)
        + ((input.minerEntries env).map weigh).sum := by
    unfold mergedEntries
    split
    · simp only [mergeFeeEntry]
      split
      · rw [List.map_cons, List.sum_cons]
        exact le_rfl
      · rw [map_addFeeToFirst fun _ _ _ => rfl]
        exact Nat.le_add_left _ _
    · exact Nat.le_add_left _ _
  simp only [buildPayoutDistribution]
  unfold coinbaseWeight usedWeight
  split
  · show _ + 0 ≤ _
    omega
  · have hranked := hweigh (input.rankedEntries env)
    rw [map_rankedEntries env input fun _ _ => rfl] at hranked
    rw [hranked, hminer]
    omega

/-- A row that is left out did not fit on top of the outputs that were taken before it. -/
theorem exceeds_of_leftOut {before after : List ComputedAddress} {row : ComputedAddress}
    (hturn : input.eligible env = before ++ row :: after)
    (hleft : row.address ∉ minerOutputs env input) :
    input.weightBudget - budgetSafetyMarginWeight
      < ((input.usedWeight env
          + outputsWeight env ((before.map (·.address)).filter (· ∈ minerOutputs env input))
          + outputWeightForAddress env row.address : ℕ) : ℚ) := by
  have hnodup := nodup_eligible env input
  rw [hturn, List.map_append, List.map_cons] at hnodup
  have hchosen : chosenRows env input = firstFit (rowWeight env)
      (input.weightBudget - budgetSafetyMarginWeight) (input.usedWeight env)
      (before ++ row :: after) := by rw [chosenRows, hturn]
  have hmem : ∀ address, address ∈ minerOutputs env input
      ↔ address ∈ (chosenRows env input).map (·.address) := fun address =>
    (minerOutputs_perm env input).mem_iff
  -- the outputs taken before the turn of the row are the outputs among the rows before it
  have htaken : (before.map (·.address)).filter (· ∈ minerOutputs env input)
      = (firstFit (rowWeight env) (input.weightBudget - budgetSafetyMarginWeight)
          (input.usedWeight env) before).map (·.address) := by
    have hbefore := filter_mem_sublist
      ((firstFit_sublist (rowWeight env) (input.weightBudget - budgetSafetyMarginWeight)
        (input.usedWeight env : ℚ) before).map (·.address)) (List.nodup_append.mp hnodup).1
    refine (List.filter_congr fun address haddress => ?_).trans hbefore
    rw [decide_eq_decide, hmem, hchosen, firstFit_append, List.map_append, List.mem_append]
    refine or_iff_left fun hafter => ?_
    obtain ⟨late, hlate, rfl⟩ := List.mem_map.mp hafter
    have hlate := List.mem_map_of_mem (f := (·.address)) (mem_of_mem_firstFit _ _ hlate)
    exact (List.nodup_append.mp hnodup).2.2 _ haddress _ hlate rfl
  rw [htaken]
  by_contra hfits
  refine hleft ((hmem _).mpr ?_)
  rw [hchosen]
  refine List.mem_map_of_mem (mem_firstFit_of_fits (rowWeight env) _ ?_)
  rw [sum_rowWeight]
  have hfits := not_lt.mp hfits
  push_cast at hfits
  exact hfits

end

/-- A coinbase with an output for a miner stays within the weight budget, with the safety margin,
whether the fee is counted besides the miners' outputs or as one of them. The eligible rows are
tried in descending order of their payouts, and one that gets no output did not fit on top of
the outputs taken before it. -/
theorem coinbase_within_budget (input : PayoutDistributionInput) :
    (minerOutputs env input ≠ [] →
      (coinbaseWeight env (buildPayoutDistribution env input).payoutOutputs : ℚ)
          ≤ input.weightBudget - budgetSafetyMarginWeight ∧
        ((input.usedWeight env + outputsWeight env (minerOutputs env input) : ℕ) : ℚ)
          ≤ input.weightBudget - budgetSafetyMarginWeight) ∧
    (input.eligible env).Pairwise (fun a b => b.payoutSats ≤ a.payoutSats) ∧
    ∀ before row after, input.eligible env = before ++ row :: after →
      row.address ∉ minerOutputs env input →
      input.weightBudget - budgetSafetyMarginWeight
        < ((input.usedWeight env
            + outputsWeight env ((before.map (·.address)).filter (· ∈ minerOutputs env input))
            + outputWeightForAddress env row.address : ℕ) : ℚ) := by
  refine ⟨fun hminer => ?_, pairwise_eligible env input, fun before row after hturn hleft =>
    exceeds_of_leftOut env input hturn hleft⟩
  have hused := usedWeight_le env input hminer
  have hle : (coinbaseWeight env (buildPayoutDistribution env input).payoutOutputs : ℚ)
      ≤ ((input.usedWeight env + outputsWeight env (minerOutputs env input) : ℕ) : ℚ) := by
    exact_mod_cast coinbaseWeight_le env input
  exact ⟨hle.trans hused, hused⟩

/-- There is room for one of three miners. -/
theorem coinbase_within_budget_sample :
    (coinbaseWeight sampleEnv (buildPayoutDistribution sampleEnv sampleInput).payoutOutputs : ℚ)
      ≤ sampleInput.weightBudget - budgetSafetyMarginWeight :=
  ((coinbase_within_budget sampleEnv sampleInput).1 (by decide +kernel)).1

end PublicPool.Proofs
