import PublicPool.Lib.FirstFit
import PublicPool.Proofs.Distribution

/-!
# `PublicPool.Proofs.Payout.Selection`: which rows become outputs

`buildPayoutDistribution` sets the inclusion flags in a loop and changes payouts before and after
it. `settled_eq_some` says what the stages leave of a row in the end: its share, its balance and
its work are those of the input, and it is in the coinbase if and only if first fit takes it from
the eligible rows (`chosenRows`).
-/

set_option autoImplicit false

namespace PublicPool.Proofs

open Lib (OrdMap firstFit mem_of_mem_firstFit)
open PayoutDistributionInput

variable {β : Type*} (env : PayoutEnv)

/-! ### What a stage leaves alone -/

section
variable (m : Computations) (reward : ℤ)

/-- The part of a row at an address that an update does not touch. -/
theorem map_get?_mapValues (f : String → ComputedAddress → ComputedAddress)
    {g : ComputedAddress → β} (hg : ∀ a row, g (f a row) = g row) (address : String) :
    ((m.mapValues f).get? address).map g = (m.get? address).map g := by
  rw [OrdMap.get?_mapValues, Option.map_map]
  refine congrArg (Option.map · _) (funext fun row => ?_)
  exact hg address row

/-- The first stage sets payouts and the balances they leave, and nothing else. -/
theorem map_get?_allocatePayoutTargets (totalCreditedDifficulty : ℚ) {g : ComputedAddress → β}
    (hg : ∀ (row : ComputedAddress) (payoutSats balanceAfterSats : ℤ),
      g { row with payoutSats, balanceAfterSats } = g row) (address : String) :
    ((allocatePayoutTargets env m reward totalCreditedDifficulty).get? address).map g
      = (m.get? address).map g := by
  simp only [allocatePayoutTargets]
  split
  · exact map_get?_mapValues m _ (fun a row => by split <;> simp only [hg]) address
  · have hpaid : ((paidInFull m).get? address).map g = (m.get? address).map g :=
      map_get?_mapValues m _ (fun a row => by split <;> simp only [hg]) address
    split
    · split
      · exact hpaid
      · rw [← hpaid]
        exact map_get?_mapValues (paidInFull m) _ (fun a row => by split <;> simp only [hg]) address
    · exact map_get?_mapValues m _ (fun a row => by split <;> simp only [hg]) address

/-- So does the redistribution. -/
theorem map_get?_redistribute {g : ComputedAddress → β}
    (hg : ∀ (row : ComputedAddress) (payoutSats balanceAfterSats : ℤ),
      g { row with payoutSats, balanceAfterSats } = g row) (address : String) :
    ((redistributeUnfitMinerPayouts env m reward).get? address).map g
      = (m.get? address).map g := by
  simp only [redistributeUnfitMinerPayouts]
  split
  · rfl
  · split
    · rfl
    · exact map_get?_mapValues m _ (fun a row => by split <;> simp only [hg]) address

end

/-! ### The loop over the eligible rows -/

/-- What the output of a row takes of the weight budget. -/
def rowWeight (row : ComputedAddress) : ℚ := outputWeightForAddress env row.address

/-- The loop sets the flags of the rows that first fit takes, and leaves the others alone. -/
theorem map_get?_includeEligible (budget : ℚ) (eligible : List ComputedAddress) (used : ℕ)
    (m : Computations) {g : ComputedAddress → β}
    (hg : ∀ (row : ComputedAddress) (balanceAfterSats : ℤ) (includedInCoinbase : Bool),
      g { row with balanceAfterSats, includedInCoinbase } = g row) (address : String) :
    ((includeEligible env budget eligible used m).get? address).map
        (fun row => (g row, row.includedInCoinbase))
      = (m.get? address).map fun row => (g row, row.includedInCoinbase ||
          decide (address ∈ (firstFit (rowWeight env) budget used eligible).map (·.address))) := by
  induction eligible generalizing used m with
  | nil => simp [includeEligible, firstFit]
  | cons row eligible ih =>
    have hweight : ((used : ℚ) + rowWeight env row ≤ budget)
        ↔ ¬ budget < (used + outputWeightForAddress env row.address : ℕ) := by
      rw [rowWeight, not_lt, Nat.cast_add]
    unfold includeEligible firstFit
    simp only [hweight]
    by_cases hfits : budget < (used + outputWeightForAddress env row.address : ℕ)
    · -- the row is passed over
      simp only [hfits, if_true, not_true_eq_false, if_false]
      rw [ih, OrdMap.get?_modify, Option.map_map]
      refine congrArg (Option.map · _) (funext fun r => ?_)
      simp only [Function.comp_apply]
      split
      · simp only [hg r r.targetSats r.includedInCoinbase]
      · rfl
    · simp only [hfits, if_false, not_false_eq_true, if_true]
      rw [ih, OrdMap.get?_modify, Option.map_map]
      refine congrArg (Option.map · _) (funext fun r => ?_)
      simp only [Function.comp_apply, List.map_cons, List.mem_cons]
      have hused : ((used + outputWeightForAddress env row.address : ℕ) : ℚ)
          = used + rowWeight env row := by
        rw [rowWeight, Nat.cast_add]
      rw [hused]
      by_cases hrow : address = row.address
      · simp only [hrow, if_true, hg, true_or, decide_true, Bool.or_true, Bool.true_or]
      · simp only [hrow, if_false, false_or]

/-! ### The settled rows -/

section
variable (input : PayoutDistributionInput)

/-- The rows that become outputs: those that first fit takes from the eligible ones. -/
def chosenRows : List ComputedAddress :=
  firstFit (rowWeight env) (input.weightBudget - budgetSafetyMarginWeight) (input.usedWeight env)
    (input.eligible env)

/-- The fair share of an address. -/
def fairShareOf (address : String) : ℤ := ((input.fairShareSats env).get? address).getD 0

/-- The balance an address carries. -/
def carriedBalanceOf (address : String) : ℤ := (input.balanceByAddress.get? address).getD 0

/-- The work of an address. -/
def workOf (address : String) : ℚ :=
  ((input.workByAddress.get? address).map (·.creditedDifficulty)).getD 0

variable {address : String} {row : ComputedAddress}

/-- The row of a considered address before any payout. -/
theorem get?_computations (h : address ∈ input.considered) :
    (input.computations env).get? address = some (input.computedAddress env address) :=
  OrdMap.get?_eq_some_iff.mpr (OrdMap.mem_entries_ofKeys.mpr ⟨h, rfl⟩)

theorem get?_computations_eq_none (h : address ∉ input.considered) :
    (input.computations env).get? address = none :=
  OrdMap.get?_eq_none_iff.mpr (by rwa [computations, OrdMap.keys_ofKeys])

/-- A row in the end: it has the share, the balance and the work of its address, and it is in the
coinbase if and only if first fit takes it. -/
structure SettledRow (address : String) (row : ComputedAddress) : Prop where
  considered : address ∈ input.considered
  address_eq : row.address = address
  work : row.creditedDifficulty = workOf input address
  fairShare : row.rawFairSats = fairShareOf env input address
  carried : row.balanceBeforeSats = carriedBalanceOf input address
  chosen : row.includedInCoinbase = true ↔ address ∈ (chosenRows env input).map (·.address)

/-- What the stages leave of a row. -/
theorem map_get?_settled (address : String) :
    ((input.settled env).get? address).map (fun row =>
        ((row.address, row.creditedDifficulty, row.rawFairSats, row.balanceBeforeSats),
          row.includedInCoinbase))
      = ((input.computations env).get? address).map fun row =>
        ((row.address, row.creditedDifficulty, row.rawFairSats, row.balanceBeforeSats),
          row.includedInCoinbase || decide (address ∈ (chosenRows env input).map (·.address))) := by
  rw [settled, map_get?_redistribute env _ _ (fun _ _ _ => rfl), selected, resetUnfit,
    map_get?_mapValues _ _ (fun _ _ => by split <;> rfl),
    map_get?_includeEligible env _ _ _ _ (fun _ _ _ => rfl), targeted,
    map_get?_allocatePayoutTargets env _ _ _ (fun _ _ _ => rfl)]
  rfl

/-- The rows the outputs are chosen from are rows of considered addresses. -/
theorem get?_targeted_of_mem (h : row ∈ (input.targeted env).values) :
    (input.targeted env).get? row.address = some row ∧ row.address ∈ input.considered ∧
      row.creditedDifficulty = workOf input row.address := by
  obtain ⟨address, hmem⟩ := OrdMap.mem_values.mp h
  have hget := OrdMap.get?_eq_some_iff.mpr hmem
  have hkept := map_get?_allocatePayoutTargets env (input.computations env) input.minerRewardSats
    input.totalCreditedDifficulty (g := fun row => (row.address, row.creditedDifficulty))
    (fun _ _ _ => rfl) address
  rw [← targeted, hget, Option.map_some] at hkept
  by_cases hconsidered : address ∈ input.considered
  · rw [get?_computations env input hconsidered, Option.map_some, Option.some.injEq,
      Prod.mk.injEq] at hkept
    obtain ⟨haddress, hwork⟩ := hkept
    have haddress : row.address = address := haddress
    rw [haddress]
    exact ⟨hget, hconsidered, hwork⟩
  · rw [get?_computations_eq_none env input hconsidered] at hkept
    cases hkept

/-- The rows that are tried are paid something, and either did work or are paid no dust. -/
theorem mem_eligible :
    row ∈ input.eligible env ↔ row ∈ (input.targeted env).values ∧ 0 < row.payoutSats ∧
      (0 < row.creditedDifficulty ∨ input.minOutput ≤ row.payoutSats) := by
  rw [eligible, Js.mem_sort, List.mem_filter, decide_eq_true_iff]

theorem considered_of_chosen (h : address ∈ (chosenRows env input).map (·.address)) :
    address ∈ input.considered := by
  obtain ⟨row, hrow, rfl⟩ := List.mem_map.mp h
  have heligible := mem_of_mem_firstFit _ _ hrow
  exact (get?_targeted_of_mem env input ((mem_eligible env input).mp heligible).1).2.1

/-- A considered address has a row in the end. -/
theorem exists_settledRow (h : address ∈ input.considered) :
    ∃ row, (input.settled env).get? address = some row := by
  have hsettled := map_get?_settled env input address
  rw [get?_computations env input h, Option.map_some, Option.map_eq_some_iff] at hsettled
  obtain ⟨row, hrow, -⟩ := hsettled
  exact ⟨row, hrow⟩

theorem settledRow_of_get? (h : (input.settled env).get? address = some row) :
    SettledRow env input address row := by
  have hsettled := map_get?_settled env input address
  rw [h, Option.map_some] at hsettled
  by_cases hconsidered : address ∈ input.considered
  · rw [get?_computations env input hconsidered, Option.map_some, Option.some.injEq,
      Prod.mk.injEq, Prod.mk.injEq, Prod.mk.injEq, Prod.mk.injEq] at hsettled
    obtain ⟨⟨haddress, hwork, hshare, hcarried⟩, hincluded⟩ := hsettled
    refine ⟨hconsidered, haddress, hwork, hshare, hcarried, ?_⟩
    -- no row starts in the coinbase
    have hstart : (input.computedAddress env address).includedInCoinbase = false := rfl
    rw [hincluded, hstart, Bool.false_or, decide_eq_true_iff]
  · rw [get?_computations_eq_none env input hconsidered] at hsettled
    cases hsettled

/-- Every row in the end is the row of its address. -/
theorem get?_settled_of_mem (h : row ∈ (input.settled env).values) :
    (input.settled env).get? row.address = some row := by
  obtain ⟨address, hmem⟩ := OrdMap.mem_values.mp h
  have hget := OrdMap.get?_eq_some_iff.mpr hmem
  rw [(settledRow_of_get? env input hget).address_eq]
  exact hget

end

end PublicPool.Proofs
