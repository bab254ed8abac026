import PublicPool.Proofs.Payout.Selection

/-!
# `PublicPool.Proofs.Payout.DistinctEntries`: one entry for each address

The table of snapshot entries has a unique index on the snapshot and the address, so a
distribution with two entries for one address cannot be stored. The entries of the miners are
distinct. The fee entry joins the entry of the fee address only when that one is an output, and is
put in front of them otherwise, also when the fee address has an entry that is no output.

`nodup_addresses_entries_iff` is the exact account: the addresses are distinct if and only if
`FeeKeyed` holds of the input.
-/

set_option autoImplicit false

namespace PublicPool.Proofs

open Lib (OrdMap)
open PayoutDistributionInput

variable (env : PayoutEnv)

/-- The inputs whose fee gets an entry of its own or joins an output: nothing is distributed, no
fee is taken, the fee address has neither a share nor a balance, or its row gets an output. -/
def FeeKeyed (input : PayoutDistributionInput) : Prop :=
  input.coinbaseValue ≤ 0 ∨ input.totalCreditedDifficulty ≤ 0 ∨ input.feeSats ≤ 0 ∨
    (fairShareOf env input input.feeOutputAddress = 0 ∧
      carriedBalanceOf input input.feeOutputAddress = 0) ∨
    input.feeOutputAddress ∈ (chosenRows env input).map (·.address)

instance (input : PayoutDistributionInput) : Decidable (FeeKeyed env input) :=
  inferInstanceAs (Decidable (_ ∨ _))

/-! ### The entries of the miners -/

section
variable (input : PayoutDistributionInput)

/-- Each row under its own address gives at most one entry. -/
theorem nodup_minerEntries : ((input.minerEntries env).map (·.address)).Nodup := by
  have hkeyed : ∀ e ∈ (input.settled env).entries, e.2.address = e.1 := fun e he =>
    (settledRow_of_get? env input (OrdMap.get?_eq_some_iff.mpr he)).address_eq
  rw [minerEntries, List.map_map]
  exact ((Js.sort_perm _ _).map _).nodup_iff.mpr
    ((nodup_addresses hkeyed).sublist (List.filter_sublist.map _))

variable {row : ComputedAddress} {address : String}

/-- A row outside the coinbase leaves the share and the balance of its address. -/
theorem balanceAfter_settled (hrow : row ∈ (input.settled env).values)
    (hexcluded : row.includedInCoinbase = false) :
    row.balanceAfterSats = row.rawFairSats + row.balanceBeforeSats := by
  obtain ⟨hafter, htarget, -⟩ := rowFitted_settled env input row hrow
  have hunpaid := unpaid_settled env input row hrow hexcluded
  omega

/-- The rows that become entries. -/
theorem mem_minerEntries_of_row (h : (input.settled env).get? address = some row)
    (hkept : row.includedInCoinbase = true ∨ row.balanceBeforeSats ≠ row.balanceAfterSats ∨
      row.balanceAfterSats ≠ 0) : minerEntry row ∈ input.minerEntries env :=
  List.mem_map_of_mem (Js.mem_sort.mpr (List.mem_filter.mpr
    ⟨OrdMap.mem_values.mpr ⟨address, OrdMap.get?_eq_some_iff.mp h⟩, decide_eq_true hkept⟩))

/-- Handing out sats gives shares to the targets only. -/
theorem mem_items_handOutResidual {items : List String} (fractions : List AllocationFraction)
    (residual : ℤ) (result : OrdMap String ℤ) (hfractions : ∀ f ∈ fractions, f.item ∈ items)
    (h : ∀ e ∈ result.entries, e.1 ∈ items) :
    ∀ e ∈ (handOutResidual fractions residual result).entries, e.1 ∈ items := by
  induction fractions generalizing residual result with
  | nil => exact h
  | cons target fractions ih =>
    obtain ⟨htarget, hrest⟩ := List.forall_mem_cons.mp hfractions
    unfold handOutResidual
    split
    · exact h
    · exact ih _ _ hrest (OrdMap.forall_entries_set h htarget)

/-- Only the items of a split have a share. -/
theorem mem_items_allocateIntegerSats (targets : List AllocationTarget) (amountSats : ℤ)
    (totalWeight : ℚ) :
    ∀ e ∈ (allocateIntegerSats env targets amountSats totalWeight).entries,
      e.1 ∈ targets.map (·.item) := by
  have hitem : ∀ target ∈ targets.filter (fun target => decide (0 < target.weight)),
      target.item ∈ targets.map (·.item) := fun target htarget =>
    List.mem_map_of_mem (List.mem_filter.mp htarget).1
  unfold allocateIntegerSats
  split
  · intro e he
    cases he
  · refine mem_items_handOutResidual _ _ _ ?_ (OrdMap.forall_entries_setAll (by simp) ?_)
    · intro f hf
      obtain ⟨target, htarget, rfl⟩ := List.mem_map.mp (Js.mem_sort.mp hf)
      exact hitem target htarget
    · intro e he
      obtain ⟨target, htarget, rfl⟩ := List.mem_map.mp he
      exact hitem target htarget

/-- Only an address with work has a share. -/
theorem mem_keys_of_fairShare (h : fairShareOf env input address ≠ 0) :
    address ∈ input.workByAddress.keys := by
  obtain ⟨sats, hget⟩ : ∃ sats, (input.fairShareSats env).get? address = some sats := by
    cases hget : (input.fairShareSats env).get? address with
    | none => exact absurd (by rw [fairShareOf, hget, Option.getD_none]) h
    | some sats => exact ⟨sats, rfl⟩
  have hitem := mem_items_allocateIntegerSats env _ _ _ _ (OrdMap.get?_eq_some_iff.mp hget)
  rw [List.map_map] at hitem
  exact hitem

theorem considered_of_fairShare (h : fairShareOf env input address ≠ 0) :
    address ∈ input.considered :=
  List.mem_append_left _ (mem_keys_of_fairShare env input h)

theorem considered_of_carried (h : carriedBalanceOf input address ≠ 0) :
    address ∈ input.considered := by
  have hkey : address ∈ input.balanceByAddress.keys := by
    by_contra hnone
    rw [carriedBalanceOf, OrdMap.get?_eq_none_iff.mpr hnone] at h
    exact h rfl
  by_cases hwork : address ∈ input.workByAddress.keys
  · exact List.mem_append_left _ hwork
  · exact List.mem_append_right _ (List.mem_filter.mpr ⟨hkey, decide_eq_true hwork⟩)

/-- An address has an entry that is an output if and only if first fit takes its row. -/
theorem exists_output_iff (address : String) :
    (∃ entry ∈ input.minerEntries env, entry.address = address ∧ entry.includedInCoinbase = true)
      ↔ address ∈ (chosenRows env input).map (·.address) := by
  constructor
  · rintro ⟨entry, hentry, rfl, hincluded⟩
    obtain ⟨row, hrow, rfl⟩ := mem_minerEntries env input hentry
    exact (settledRow_of_get? env input (get?_settled_of_mem env input hrow)).chosen.mp hincluded
  · intro hchosen
    obtain ⟨row, hget⟩ := exists_settledRow env input (considered_of_chosen env input hchosen)
    have hrow := settledRow_of_get? env input hget
    refine ⟨minerEntry row, ?_, hrow.address_eq, hrow.chosen.mpr hchosen⟩
    exact mem_minerEntries_of_row env input hget (Or.inl (hrow.chosen.mpr hchosen))

/-- An address has an entry if and only if its row is an output, or it has a share or a
balance. -/
theorem mem_minerEntries_iff (address : String) :
    address ∈ (input.minerEntries env).map (·.address)
      ↔ address ∈ (chosenRows env input).map (·.address) ∨
        fairShareOf env input address ≠ 0 ∨ carriedBalanceOf input address ≠ 0 := by
  constructor
  · intro hmem
    obtain ⟨entry, hentry, rfl⟩ := List.mem_map.mp hmem
    obtain ⟨row, hkept, rfl⟩ := List.mem_map.mp hentry
    obtain ⟨hvalue, hkept⟩ := List.mem_filter.mp (Js.mem_sort.mp hkept)
    have hrow := settledRow_of_get? env input (get?_settled_of_mem env input hvalue)
    show row.address ∈ _ ∨ fairShareOf env input row.address ≠ 0 ∨
      carriedBalanceOf input row.address ≠ 0
    rw [← hrow.chosen, ← hrow.fairShare, ← hrow.carried]
    by_cases hincluded : row.includedInCoinbase = true
    · exact Or.inl hincluded
    · -- a row outside the coinbase keeps its share and its balance
      have hafter := balanceAfter_settled env input hvalue (Bool.eq_false_iff.mpr hincluded)
      have hkept := (of_decide_eq_true hkept).resolve_left hincluded
      refine Or.inr ?_
      omega
  · intro hcases
    have hconsidered : address ∈ input.considered := by
      rcases hcases with hchosen | hshare | hcarried
      · exact considered_of_chosen env input hchosen
      · exact considered_of_fairShare env input hshare
      · exact considered_of_carried input hcarried
    obtain ⟨row, hget⟩ := exists_settledRow env input hconsidered
    have hrow := settledRow_of_get? env input hget
    rw [← hrow.chosen, ← hrow.fairShare, ← hrow.carried] at hcases
    refine List.mem_map.mpr ⟨minerEntry row, ?_, hrow.address_eq⟩
    refine mem_minerEntries_of_row env input hget ?_
    by_cases hincluded : row.includedInCoinbase = true
    · exact Or.inl hincluded
    · have hvalue := OrdMap.mem_values.mpr ⟨_, OrdMap.get?_eq_some_iff.mp hget⟩
      have hafter := balanceAfter_settled env input hvalue (Bool.eq_false_iff.mpr hincluded)
      have hcases := hcases.resolve_left hincluded
      refine Or.inr ?_
      omega

end

/-! ### The fee entry -/

/-- The fee joins an output of its address, or its own entry goes in front. -/
theorem nodup_mergeFeeEntry_iff {feeEntry : PayoutDistributionEntry}
    {minerEntries : List PayoutDistributionEntry}
    (h : (minerEntries.map (·.address)).Nodup) :
    ((mergeFeeEntry feeEntry minerEntries).map (·.address)).Nodup ↔
      (∃ entry ∈ minerEntries, entry.address = feeEntry.address ∧
        entry.includedInCoinbase = true) ∨ feeEntry.address ∉ minerEntries.map (·.address) := by
  have hfind : ((minerEntries.find? fun entry =>
      decide (entry.address = feeEntry.address) && entry.includedInCoinbase).isNone = true)
        ↔ ¬ ∃ entry ∈ minerEntries, entry.address = feeEntry.address ∧
          entry.includedInCoinbase = true := by
    simp
  simp only [mergeFeeEntry, hfind]
  split
  · rename_i hnone
    rw [List.map_cons, List.nodup_cons]
    simp only [h, and_true, hnone, false_or]
  · rename_i hsome
    rw [map_addFeeToFirst fun _ _ _ => rfl]
    exact iff_of_true h (Or.inl (not_not.mp hsome))

/-! ### Distinct addresses -/

/-- The entries of a distribution have distinct addresses if and only if the fee has an entry of
its own or joins an output. -/
theorem nodup_addresses_entries_iff (input : PayoutDistributionInput) :
    ((buildPayoutDistribution env input).entries.map (·.address)).Nodup ↔ FeeKeyed env input := by
  have hminer := nodup_minerEntries env input
  unfold FeeKeyed
  simp only [buildPayoutDistribution]
  split
  · rename_i hnothing
    refine iff_of_true List.nodup_nil ?_
    rcases hnothing with hvalue | hdifficulty
    · exact Or.inl hvalue
    · exact Or.inr (Or.inl hdifficulty)
  · rename_i hsomething
    obtain ⟨hvalue, hdifficulty⟩ := not_or.mp hsomething
    rw [map_rankedEntries env input fun _ _ => rfl, mergedEntries]
    split
    · rename_i hfee
      have hfee : ¬ input.feeSats ≤ 0 := not_le.mpr hfee
      rw [nodup_mergeFeeEntry_iff hminer,
        show input.feeEntry.address = input.feeOutputAddress from rfl, exists_output_iff env input,
        mem_minerEntries_iff]
      simp only [hvalue, hdifficulty, hfee, false_or, not_or, not_not]
      by_cases hchosen : input.feeOutputAddress ∈ (chosenRows env input).map (·.address)
      · simp only [hchosen, true_or, or_true]
      · simp only [hchosen, false_or, or_false, not_false_eq_true, true_and]
    · rename_i hfee
      exact iff_of_true hminer (Or.inr (Or.inr (Or.inl (not_lt.mp hfee))))

/-- A miner, and a fee address that carries a balance too small for an output. -/
def dustyFeeInput : PayoutDistributionInput where
  addressWork := [⟨"A", 10, 1⟩]
  balances := [⟨"F", 100⟩]
  coinbaseValueSats := 312500000
  feeAddress := some "F"
  feePercent := 1
  minOutputSats := 546
  coinbaseWeightBudget := 50000

/-- The fee entry and the balance of the fee address are two entries. -/
theorem not_nodup_addresses_entries :
    ¬ ((buildPayoutDistribution sampleEnv dustyFeeInput).entries.map (·.address)).Nodup := by
  decide +kernel

end PublicPool.Proofs
