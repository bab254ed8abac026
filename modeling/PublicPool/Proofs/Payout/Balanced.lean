import PublicPool.Payout.Snapshot
import PublicPool.Proofs.Distribution

/-!
# `PublicPool.Proofs.Payout.Balanced`: an entry carries over what it does not pay

Every entry of a distribution is `EntryBalanced`: the balance it leaves is the balance it found,
plus its share of the reward, less what it is paid, and it is paid by the coinbase or not at all.
The distribution computes it so (`rowFitted_settled`, `unpaid_settled`), the fee is on both sides,
and `limitCoinbaseOutputs` moves sats between the payout and the balance of an entry.
`entryBalanced_distributeTemplate` puts it together.
-/

set_option autoImplicit false

namespace PublicPool.Proofs

open PayoutDistributionInput

/-- What is not paid is carried over, and an entry outside the coinbase is not paid. -/
structure EntryBalanced (entry : PayoutDistributionEntry) : Prop where
  carried : entry.balanceAfterSats
    = entry.balanceBeforeSats + (entry.grossPayoutSats - entry.payoutSats)
  unpaid : entry.includedInCoinbase = false → entry.payoutSats = 0

variable (env : PayoutEnv)

section
variable (input : PayoutDistributionInput)

theorem entryBalanced_minerEntries : ∀ entry ∈ input.minerEntries env, EntryBalanced entry := by
  intro entry hentry
  obtain ⟨row, hrow, rfl⟩ := mem_minerEntries env input hentry
  obtain ⟨hafter, htarget, -⟩ := rowFitted_settled env input row hrow
  refine ⟨?_, unpaid_settled env input row hrow⟩
  simp only [minerEntry]
  omega

theorem entryBalanced_rankedEntries : ∀ entry ∈ input.rankedEntries env, EntryBalanced entry := by
  have hminer := entryBalanced_minerEntries env input
  have hmerged : ∀ entry ∈ input.mergedEntries env, EntryBalanced entry := by
    intro entry hentry
    rcases mem_mergedEntries env input hentry with hold | ⟨-, rfl⟩ | ⟨-, e, he, hincluded, rfl⟩
    · exact hminer entry hold
    · exact ⟨by simp [feeEntry], fun hinc => nomatch hinc⟩
    · obtain ⟨hcarried, -⟩ := hminer e he
      refine ⟨?_, fun hinc => ?_⟩
      · simp only
        omega
      · exact absurd hincluded (Bool.eq_false_iff.mp hinc)
  intro entry hentry
  obtain ⟨e, he, rank, rfl⟩ := mem_rankedEntries env input hentry
  obtain ⟨hcarried, hunpaid⟩ := hmerged e he
  exact ⟨hcarried, hunpaid⟩

theorem entryBalanced_buildPayoutDistribution :
    ∀ entry ∈ (buildPayoutDistribution env input).entries, EntryBalanced entry := by
  intro entry hentry
  by_cases hnothing : input.coinbaseValue ≤ 0 ∨ input.totalCreditedDifficulty ≤ 0
  · rw [entries_of_nothing env hnothing] at hentry
    cases hentry
  · rw [entries_of_something env hnothing] at hentry
    exact entryBalanced_rankedEntries env input entry hentry

end

section
variable {entries : List PayoutDistributionEntry}

/-- An output that is dropped is carried over. -/
theorem entryBalanced_dropOutputs (h : ∀ entry ∈ entries, EntryBalanced entry)
    (maxCoinbaseOutputs included : ℕ) :
    ∀ entry ∈ (dropOutputs maxCoinbaseOutputs included entries).1, EntryBalanced entry := by
  induction entries generalizing included with
  | nil => exact h
  | cons entry entries ih =>
    obtain ⟨hentry, hrest⟩ := List.forall_mem_cons.mp h
    simp only [dropOutputs]
    split
    · split
      · exact List.forall_mem_cons.mpr ⟨hentry, ih hrest _⟩
      · refine List.forall_mem_cons.mpr ⟨⟨?_, fun _ => rfl⟩, ih hrest _⟩
        have hcarried := hentry.carried
        simp only
        omega
    · exact List.forall_mem_cons.mpr ⟨hentry, ih hrest _⟩

/-- An allocation moves sats from the balance to the payout of an entry in the coinbase. -/
theorem entryBalanced_payAllocations (allocations : List LimitAllocation) (residual : ℤ)
    (h : ∀ entry ∈ entries, EntryBalanced entry)
    (hincluded : ∀ allocation ∈ allocations, ∀ entry ∈ entries[allocation.index]?,
      entry.includedInCoinbase = true) :
    ∀ entry ∈ payAllocations allocations residual entries, EntryBalanced entry := by
  induction allocations generalizing residual entries with
  | nil => exact h
  | cons allocation allocations ih =>
    obtain ⟨hfirst, hrest⟩ := List.forall_mem_cons.mp hincluded
    refine ih _ ?_ ?_
    · intro entry hentry
      obtain ⟨i, hi, rfl⟩ := List.mem_iff_getElem.mp hentry
      rw [List.getElem_modify]
      rw [List.length_modify] at hi
      obtain ⟨hcarried, hunpaid⟩ := h _ (List.getElem_mem hi)
      split
      · rename_i hindex
        have hinc : entries[i].includedInCoinbase = true := by
          refine hfirst entries[i] ?_
          rw [hindex, List.getElem?_eq_getElem hi]
          rfl
        refine ⟨?_, fun hexcluded => ?_⟩
        · simp only
          omega
        · exact absurd hinc (Bool.eq_false_iff.mp hexcluded)
      · exact ⟨hcarried, hunpaid⟩
    · -- an allocation leaves the outputs what they were
      intro other hother entry hentry
      rw [List.getElem?_modify] at hentry
      obtain ⟨old, hold, rfl⟩ := Option.map_eq_some_iff.mp hentry
      have hinc := hrest other hother old hold
      split
      · exact hinc
      · exact hinc

theorem entryBalanced_limitCoinbaseOutputs (config : PayoutConfig)
    (h : ∀ entry ∈ entries, EntryBalanced entry) :
    ∀ entry ∈ limitCoinbaseOutputs env config entries, EntryBalanced entry := by
  have hdropped := entryBalanced_dropOutputs h config.maxCoinbaseOutputs 0
  simp only [limitCoinbaseOutputs]
  split
  · exact hdropped
  · split
    · exact hdropped
    · refine entryBalanced_payAllocations _ _ hdropped ?_
      intro allocation hallocation entry hentry
      obtain ⟨e, he, rfl⟩ := List.mem_map.mp (Js.mem_sort.mp hallocation)
      obtain ⟨hmem, hkept⟩ := List.mem_filter.mp he
      rw [List.mem_zipIdx_iff_getElem?.mp hmem, Option.mem_some_iff] at hentry
      exact hentry ▸ (of_decide_eq_true hkept).1

/-- The entries of a template's distribution. -/
theorem entryBalanced_distributeTemplate {config : PayoutConfig} {coinbaseValueSats : ℤ}
    {addressWork : List PayoutAddressWork} {balances : List PayoutBalanceInput}
    {consideredAddressCount : ℕ}
    (h : distributeTemplate env config coinbaseValueSats addressWork balances
      = some (entries, consideredAddressCount)) : ∀ entry ∈ entries, EntryBalanced entry := by
  simp only [distributeTemplate] at h
  split at h
  · cases h
  · split at h
    · cases h
    · cases h
      exact entryBalanced_limitCoinbaseOutputs env config
        (entryBalanced_buildPayoutDistribution env _)

end

end PublicPool.Proofs
