import PublicPool.Proofs.Payout.Balanced
import PublicPool.Proofs.Payout.Selection

/-!
# `PublicPool.Proofs.Payout.Remainder`: when a distribution spends the coinbase

A distribution never pays more than the coinbase value, unless the fee is more than all of it.
`sum_distributeTemplate_iff` says when it pays the whole value: if an output that is kept goes to
an address with work, what others leave is spread over such outputs (`RewardPlaced.worker`).
Otherwise nothing is spread, and the reward is spent only if the targets are worth it and every
row that is paid something is an output that is kept (`RewardPlaced.everyone`).
-/

set_option autoImplicit false

namespace PublicPool.Proofs

open Lib
open PayoutDistributionInput

variable (env : PayoutEnv)

/-! ### Sums -/

/-- Dropping terms that are not negative leaves the sum what it was only if they were zero. -/
theorem sum_ite_eq_iff {α : Type*} (l : List α) (p : α → Prop) [DecidablePred p] (f : α → ℤ)
    (h : ∀ a ∈ l, 0 ≤ f a) :
    (l.map fun a => if p a then f a else 0).sum = (l.map f).sum ↔ ∀ a ∈ l, 0 < f a → p a := by
  induction l with
  | nil => simp
  | cons a l ih =>
    obtain ⟨ha, hl⟩ := List.forall_mem_cons.mp h
    have hle : (l.map fun a => if p a then f a else 0).sum ≤ (l.map f).sum := by
      refine List.sum_le_sum fun b hb => ?_
      split
      · exact le_rfl
      · exact hl b hb
    rw [List.map_cons, List.map_cons, List.sum_cons, List.sum_cons, List.forall_mem_cons,
      ← ih hl]
    by_cases hp : p a
    · simp only [hp, if_true, implies_true, true_and]
      omega
    · simp only [hp, if_false, imp_false, not_lt]
      omega

/-- What is read of the rows, key by key. -/
theorem map_values_eq {β : Type*} (m : Computations) (g : ComputedAddress → β) (d : β) :
    m.values.map g = m.keys.map fun key => ((m.get? key).map g).getD d := by
  rw [OrdMap.values, OrdMap.keys, List.map_map, List.map_map]
  refine List.map_congr_left fun e he => ?_
  simp only [Function.comp_apply, OrdMap.get?_eq_some_iff.mpr he, Option.map_some, Option.getD_some]

/-! ### The rows that are chosen -/

section
variable (input : PayoutDistributionInput)

theorem keys_includeEligible (budget : ℚ) (eligible : List ComputedAddress) (used : ℕ)
    (m : Computations) : (includeEligible env budget eligible used m).keys = m.keys := by
  induction eligible generalizing used m with
  | nil => rfl
  | cons row eligible ih =>
    unfold includeEligible
    simp only
    split
    · rw [ih, OrdMap.keys_modify]
    · rw [ih, OrdMap.keys_modify]

variable {row : ComputedAddress} {m : Computations} {amount : ℤ}

/-- No row is in the coinbase before the outputs are chosen. -/
theorem not_included_targeted (h : row ∈ (input.targeted env).values) :
    row.includedInCoinbase = false := by
  refine not_included_allocatePayoutTargets env (fun row hrow => ?_) _ _ row h
  obtain ⟨a, ha⟩ := OrdMap.mem_values.mp hrow
  have hrow : input.computedAddress env a = row := (OrdMap.mem_entries_ofKeys.mp ha).2
  rw [← hrow]
  rfl

/-- The chosen rows are paid their allocations, the others nothing. -/
theorem sum_selected :
    ((input.selected env).values.map (·.payoutSats)).sum
      = ((input.targeted env).values.map fun row =>
          if row.address ∈ (chosenRows env input).map (·.address) then row.payoutSats else 0).sum := by
  have hkeys : (input.selected env).keys = (input.targeted env).keys := by
    rw [selected, resetUnfit, OrdMap.keys_mapValues, keys_includeEligible]
  rw [map_values_eq _ _ 0, map_values_eq (input.targeted env) _ 0, hkeys]
  refine congrArg List.sum (List.map_congr_left fun address _ => ?_)
  -- the flag and the payout of the row after the loop
  have hloop := map_get?_includeEligible env (input.weightBudget - budgetSafetyMarginWeight)
    (input.eligible env) (input.usedWeight env) (input.targeted env)
    (g := (·.payoutSats)) (fun _ _ _ => rfl) address
  rw [selected, resetUnfit, OrdMap.get?_mapValues]
  cases hget : (input.targeted env).get? address with
  | none =>
    rw [hget, Option.map_none, Option.map_eq_none_iff] at hloop
    simp only [hloop, Option.map_none, Option.getD_none]
  | some row =>
    rw [hget, Option.map_some, Option.map_eq_some_iff] at hloop
    obtain ⟨after, hafter, heq⟩ := hloop
    obtain ⟨hpayout, hincluded⟩ := Prod.mk.inj heq
    have hvalue : row ∈ (input.targeted env).values :=
      OrdMap.mem_values.mpr ⟨address, OrdMap.get?_eq_some_iff.mp hget⟩
    have haddress : row.address = address := by
      obtain ⟨hkeyed, -⟩ := rows_allocatePayoutTargets env (unpaid_computations env input)
        input.minerRewardSats (sum_active_computations env input)
      exact hkeyed _ (OrdMap.get?_eq_some_iff.mp hget)
    have hnonneg := ((choosing_targeted env input).1 row hvalue).nonneg
    rw [not_included_targeted env input hvalue, Bool.false_or] at hincluded
    rw [hafter]
    simp only [Option.map_some, Option.getD_some, haddress]
    show (if ¬ after.includedInCoinbase = true ∧ 0 < after.payoutSats then _ else after).payoutSats
      = if address ∈ (chosenRows env input).map (·.address) then row.payoutSats else 0
    by_cases hchosen : address ∈ (chosenRows env input).map (·.address)
    · have hflag : after.includedInCoinbase = true := by
        rw [hincluded]
        exact decide_eq_true hchosen
      rw [if_pos hchosen, if_neg fun h => h.1 hflag, hpayout]
    · have hflag : ¬ after.includedInCoinbase = true := by
        rw [hincluded]
        exact fun h => hchosen (of_decide_eq_true h)
      rw [if_neg hchosen]
      split
      · rfl
      · rename_i hzero
        have hzero := not_and.mp hzero hflag
        omega

/-- Without an output for an address with work, nothing is spread. -/
theorem settled_eq_selected (h : ¬ ∃ row ∈ (input.settled env).values, isKept row) :
    input.settled env = input.selected env := by
  unfold settled redistributeUnfitMinerPayouts
  simp only
  split
  · rfl
  · split
    · rfl
    · rename_i hdifficulty
      refine absurd ?_ h
      -- rows that are kept and have work were there before
      have hkept : ∃ row ∈ (input.selected env).values, isKept row := by
        by_contra hnone
        refine hdifficulty (le_of_eq ?_)
        have hnil : ((input.selected env).values.filter fun row =>
            decide (row.includedInCoinbase = true ∧ 0 < row.creditedDifficulty)) = [] := by
          rw [List.filter_eq_nil_iff]
          intro row hrow hkept
          exact hnone ⟨row, hrow, of_decide_eq_true hkept⟩
        rw [hnil]
        rfl
      obtain ⟨row, hrow, hincluded, hwork⟩ := hkept
      obtain ⟨address, hmem⟩ := OrdMap.mem_values.mp hrow
      have hsame := map_get?_redistribute env (input.selected env) input.minerRewardSats
        (g := fun row => (row.includedInCoinbase, row.creditedDifficulty)) (fun _ _ _ => rfl) address
      rw [OrdMap.get?_eq_some_iff.mpr hmem, Option.map_some, Option.map_eq_some_iff] at hsame
      obtain ⟨after, hafter, heq⟩ := hsame
      obtain ⟨hflag, hcredit⟩ := Prod.mk.inj heq
      refine ⟨after, OrdMap.mem_values.mpr ⟨address, OrdMap.get?_eq_some_iff.mp hafter⟩, ?_, ?_⟩
      · rw [hflag]
        exact hincluded
      · rw [hcredit]
        exact hwork

/-! ### What the allocation spends -/

/-- The total of the positive targets: the fair shares with the carried balances. -/
def positiveTargets : ℤ :=
  (input.considered.map fun address =>
    max 0 (fairShareOf env input address + carriedBalanceOf input address)).sum

theorem positiveTargets_eq :
    ((rowsWith (input.computations env) (0 < ·.targetSats)).map (·.targetSats)).sum
      = positiveTargets env input := by
  have hvalues : (input.computations env).values
      = input.considered.map (input.computedAddress env) := by
    simp [computations, OrdMap.ofKeys, OrdMap.values, Function.comp_def]
  rw [rowsWith, sum_filter_eq_sum_ite, hvalues, List.map_map, positiveTargets]
  refine congrArg List.sum (List.map_congr_left fun address _ => ?_)
  show (if 0 < (input.computedAddress env address).targetSats then _ else 0) = _
  have htarget : (input.computedAddress env address).targetSats
      = fairShareOf env input address + carriedBalanceOf input address := rfl
  rw [htarget]
  split
  · rename_i hpos
    exact (max_eq_right hpos.le).symm
  · rename_i hneg
    exact (max_eq_left (not_lt.mp hneg)).symm

theorem nonneg_positiveTargets : 0 ≤ positiveTargets env input := by
  refine List.sum_nonneg fun x hx => ?_
  obtain ⟨address, -, rfl⟩ := List.mem_map.mp hx
  exact le_max_left _ _

/-- A row that a split is made for, with its part. -/
theorem mem_addSplit {p : ComputedAddress → Prop} [DecidablePred p] {weight : ComputedAddress → ℚ}
    (hrow : row ∈ m.values) (hp : p row) :
    addPayout row (allocated env m p weight amount row)
      ∈ (addSplit env m p weight amount).values := by
  rw [addSplit, OrdMap.values_mapValues]
  exact List.mem_map.mpr ⟨row, hrow, if_pos hp⟩

/-- A split pays a row only if the row is one of those it is made for, or was paid before. -/
theorem exists_paid_addSplit (h : Unpaid m) {p : ComputedAddress → Prop} [DecidablePred p]
    {weight : ComputedAddress → ℚ}
    (hsum : 0 < ((addSplit env m p weight amount).values.map (·.payoutSats)).sum) :
    ∃ row ∈ m.values, p row ∧ ∃ paid ∈ (addSplit env m p weight amount).values,
      paid.creditedDifficulty = row.creditedDifficulty ∧ 0 < paid.payoutSats := by
  by_contra hnone
  refine absurd hsum (not_lt.mpr (le_of_eq (List.sum_eq_zero fun x hx => ?_)))
  obtain ⟨paid, hpaid, rfl⟩ := List.mem_map.mp hx
  have hnonneg := (rowFitted_addSplit env p weight amount h.rows paid hpaid).nonneg
  by_contra hne
  rw [addSplit, OrdMap.values_mapValues] at hpaid
  obtain ⟨row, hrow, rfl⟩ := List.mem_map.mp hpaid
  by_cases hp : p row
  · rw [if_pos hp] at hne hnonneg
    refine hnone ⟨row, hrow, hp, _, mem_addSplit env hrow hp, rfl, ?_⟩
    omega
  · rw [if_neg hp] at hne
    exact hne (h.zero row hrow)

/-- When no address with work is allocated anything, the reward is allocated if and only if the
targets are worth it. -/
theorem sum_targeted_eq_iff (hreward : 0 ≤ input.minerRewardSats)
    (hdifficulty : 0 < input.totalCreditedDifficulty)
    (hidle : ∀ row ∈ (input.targeted env).values, 0 < row.payoutSats →
      row.creditedDifficulty ≤ 0) :
    ((input.targeted env).values.map (·.payoutSats)).sum = input.minerRewardSats
      ↔ input.minerRewardSats ≤ positiveTargets env input := by
  have hunpaid := unpaid_computations env input
  have hfitted := fitted_targeted env input hreward
  have htargets := nonneg_positiveTargets env input
  rcases hreward.eq_or_lt with hzero | hpos
  · -- nothing to allocate
    have hnonneg : 0 ≤ ((input.targeted env).values.map (·.payoutSats)).sum := by
      refine List.sum_nonneg fun x hx => ?_
      obtain ⟨row, hrow, rfl⟩ := List.mem_map.mp hx
      exact (hfitted.rows row hrow).nonneg
    have htotal := hfitted.total
    exact iff_of_true (by omega) (by omega)
  · unfold targeted at hidle ⊢
    rw [allocatePayoutTargets_eq env hunpaid _ (sum_active_computations env input),
      positiveTargets_eq] at hidle ⊢
    by_cases hnone : positiveTargets env input ≤ 0
    · -- the reward goes to the addresses with work, so one of them is allocated something
      rw [if_pos hnone] at hidle
      exfalso
      have hactive : ∃ row ∈ (input.computations env).values, 0 < row.creditedDifficulty := by
        by_contra hno
        have hnil : rowsWith (input.computations env) (0 < ·.creditedDifficulty) = [] := by
          rw [rowsWith, List.filter_eq_nil_iff]
          exact fun row hrow hwork => hno ⟨row, hrow, of_decide_eq_true hwork⟩
        have htotal := sum_active_computations env input
        rw [hnil, List.map_nil, List.sum_nil] at htotal
        exact hdifficulty.ne htotal
      have hsum := sum_addSplit env (m := input.computations env) (0 < ·.creditedDifficulty)
        (·.creditedDifficulty) input.minerRewardSats
      rw [hunpaid.sum_eq_zero, zero_add, sum_allocated env hunpaid.keyed _ _
        (fun _ _ hwork => hwork) _ hpos hactive] at hsum
      obtain ⟨row, -, hwork, paid, hpaid, hcredit, hpayout⟩ :=
        exists_paid_addSplit env hunpaid (hsum ▸ hpos)
      have hidle := hidle paid hpaid hpayout
      rw [hcredit] at hidle
      exact absurd hwork (not_lt.mpr hidle)
    · rw [if_neg hnone] at hidle ⊢
      by_cases hcover : positiveTargets env input ≤ input.minerRewardSats
      · rw [if_pos hcover] at hidle ⊢
        by_cases hsurplus : input.minerRewardSats - positiveTargets env input ≤ 0
        · rw [if_pos hsurplus, sum_paidInFull hunpaid, positiveTargets_eq]
          omega
        · -- the surplus is for addresses with work and a target, of which there is none
          rw [if_neg hsurplus] at hidle ⊢
          have hnobody : ∀ row ∈ (paidInFull (input.computations env)).values,
              ¬ (0 < row.targetSats ∧ 0 < row.creditedDifficulty) := by
            intro row hrow htarget
            have hpaid : 0 < row.payoutSats := by
              rw [paidInFull, OrdMap.values_mapValues] at hrow
              obtain ⟨r, -, rfl⟩ := List.mem_map.mp hrow
              split at htarget
              · rename_i hpositive
                rw [if_pos hpositive]
                exact hpositive
              · rename_i hnegative
                exact absurd htarget.1 hnegative
            have hwork := hidle _ (mem_addSplit env hrow htarget)
              (add_pos_of_pos_of_nonneg hpaid (nonneg_allocateIntegerSats env _ _ _ _))
            exact absurd htarget.2 (not_lt.mpr hwork)
          rw [sum_addSplit, sum_paidInFull hunpaid, positiveTargets_eq,
            List.map_congr_left fun row hrow => if_neg (hnobody row hrow), List.map_const',
            List.sum_replicate, nsmul_zero]
          omega
      · rw [if_neg hcover]
        have htarget : ∃ row ∈ (input.computations env).values, 0 < row.targetSats := by
          by_contra hno
          have hnil : rowsWith (input.computations env) (0 < ·.targetSats) = [] := by
            rw [rowsWith, List.filter_eq_nil_iff]
            exact fun row hrow hwork => hno ⟨row, hrow, of_decide_eq_true hwork⟩
          have htotal := positiveTargets_eq env input
          rw [hnil, List.map_nil, List.sum_nil] at htotal
          omega
        rw [sum_addSplit, hunpaid.sum_eq_zero, zero_add, sum_allocated env hunpaid.keyed _ _
          (fun _ _ htarget => by exact_mod_cast htarget) _ hpos htarget]
        omega

/-! ### The outputs of a distribution -/

/-- The outputs among some entries. -/
def outputsOf (entries : List PayoutDistributionEntry) : List PayoutDistributionEntry :=
  entries.filter (·.includedInCoinbase)

theorem mem_outputsOf {entries : List PayoutDistributionEntry} {entry : PayoutDistributionEntry} :
    entry ∈ outputsOf entries ↔ entry ∈ entries ∧ entry.includedInCoinbase = true := by
  rw [outputsOf, List.mem_filter]

/-- An address with work has an output if and only if its row was kept. -/
theorem exists_worker_iff :
    (∃ output ∈ outputsOf (input.rankedEntries env), 0 < output.creditedDifficulty)
      ↔ ∃ row ∈ (input.settled env).values, isKept row := by
  constructor
  · rintro ⟨output, houtput, hwork⟩
    obtain ⟨hmem, hincluded⟩ := mem_outputsOf.mp houtput
    exact exists_isKept env input hmem hincluded hwork
  · rintro ⟨row, hrow, hincluded, hwork⟩
    -- what is read of an entry without its payouts and its rank
    let worker (entry : PayoutDistributionEntry) : ℚ × Bool :=
      (entry.creditedDifficulty, entry.includedInCoinbase)
    have hminer : worker (minerEntry row) ∈ (input.minerEntries env).map worker :=
      List.mem_map_of_mem (List.mem_map_of_mem (Js.mem_sort.mpr (List.mem_filter.mpr
        ⟨hrow, decide_eq_true (Or.inl hincluded)⟩)))
    have hmerged : worker (minerEntry row) ∈ (input.mergedEntries env).map worker := by
      unfold mergedEntries
      split
      · simp only [mergeFeeEntry]
        split
        · exact List.mem_cons_of_mem _ hminer
        · rw [map_addFeeToFirst fun _ _ _ => rfl]
          exact hminer
      · exact hminer
    rw [← map_rankedEntries env input fun _ _ => rfl] at hmerged
    obtain ⟨output, houtput, heq⟩ := List.mem_map.mp hmerged
    obtain ⟨hcredit, hflag⟩ := Prod.mk.inj heq
    refine ⟨output, mem_outputsOf.mpr ⟨houtput, ?_⟩, ?_⟩
    · rw [hflag]
      exact hincluded
    · rw [hcredit]
      exact hwork

end

/-! ### Limiting the outputs -/

/-- What limiting keeps of the outputs, and what it takes away. -/
theorem outputs_dropOutputs (maxCoinbaseOutputs included : ℕ)
    (entries : List PayoutDistributionEntry) :
    outputsOf (dropOutputs maxCoinbaseOutputs included entries).1
        = (outputsOf entries).take (maxCoinbaseOutputs - included) ∧
      (dropOutputs maxCoinbaseOutputs included entries).2
        = (((outputsOf entries).drop (maxCoinbaseOutputs - included)).map (·.payoutSats)).sum := by
  induction entries generalizing included with
  | nil => simp [dropOutputs, outputsOf]
  | cons entry entries ih =>
    by_cases hincluded : entry.includedInCoinbase = true
    · obtain ⟨hkept, hremoved⟩ := ih (included + 1)
      have houtputs : outputsOf (entry :: entries) = entry :: outputsOf entries :=
        List.filter_cons_of_pos hincluded
      unfold dropOutputs
      rw [if_pos hincluded, houtputs]
      by_cases hroom : included + 1 ≤ maxCoinbaseOutputs
      · have hsucc : maxCoinbaseOutputs - included
            = maxCoinbaseOutputs - (included + 1) + 1 := by omega
        rw [hsucc, List.take_succ_cons, List.drop_succ_cons, ← hkept, ← hremoved]
        simp only [hroom, if_true, and_true]
        exact List.filter_cons_of_pos hincluded
      · have hzero : maxCoinbaseOutputs - included = 0 := by omega
        have hzero' : maxCoinbaseOutputs - (included + 1) = 0 := by omega
        rw [hzero', List.take_zero] at hkept
        rw [hzero', List.drop_zero] at hremoved
        rw [hzero, List.take_zero, List.drop_zero, List.map_cons, List.sum_cons, ← hremoved]
        simp only [hroom, if_false]
        exact ⟨(List.filter_cons_of_neg (by simp)).trans hkept, add_comm _ _⟩
    · obtain ⟨hkept, hremoved⟩ := ih included
      have houtputs : outputsOf (entry :: entries) = outputsOf entries :=
        List.filter_cons_of_neg hincluded
      unfold dropOutputs
      rw [if_neg hincluded, houtputs, ← hkept, ← hremoved]
      exact ⟨List.filter_cons_of_neg hincluded, rfl⟩

/-- Paying one entry more adds it to the total. -/
theorem sum_modify_payout (entries : List PayoutDistributionEntry) {index : ℕ}
    (hindex : index < entries.length) (extra : ℤ) :
    ((entries.modify index fun entry =>
        { entry with
          payoutSats := entry.payoutSats + extra
          balanceAfterSats := entry.balanceAfterSats - extra }).map (·.payoutSats)).sum
      = (entries.map (·.payoutSats)).sum + extra := by
  induction entries generalizing index with
  | nil => cases hindex
  | cons entry entries ih =>
    cases index with
    | zero =>
      rw [List.modify_zero_cons, List.map_cons, List.map_cons, List.sum_cons, List.sum_cons]
      show entry.payoutSats + extra + _ = _
      omega
    | succ index =>
      rw [List.modify_succ_cons, List.map_cons, List.map_cons, List.sum_cons, List.sum_cons,
        ih (Nat.lt_of_succ_lt_succ hindex)]
      omega

/-- The allocations pay their whole parts and the residual. -/
theorem sum_payAllocations (allocations : List LimitAllocation) (residual : ℤ)
    (entries : List PayoutDistributionEntry) (hres : 0 ≤ residual)
    (hlen : residual ≤ allocations.length)
    (hindex : ∀ allocation ∈ allocations, allocation.index < entries.length) :
    ((payAllocations allocations residual entries).map (·.payoutSats)).sum
      = (entries.map (·.payoutSats)).sum + (allocations.map (·.whole)).sum + residual := by
  induction allocations generalizing residual entries with
  | nil =>
    rw [List.length_nil] at hlen
    simp only [payAllocations, List.map_nil, List.sum_nil]
    omega
  | cons allocation allocations ih =>
    obtain ⟨hfirst, hrest⟩ := List.forall_mem_cons.mp hindex
    rw [List.length_cons] at hlen
    unfold payAllocations
    simp only
    rw [ih, sum_modify_payout entries hfirst, List.map_cons, List.sum_cons]
    · split <;> omega
    · split <;> omega
    · split <;> omega
    · intro other hother
      rw [List.length_modify]
      exact hrest other hother

section
variable {entries : List PayoutDistributionEntry} (config : PayoutConfig)

/-- The kept outputs for addresses with work, as `limitCoinbaseOutputs` finds them. -/
def keptWorkers (limitedEntries : List PayoutDistributionEntry) :
    List (PayoutDistributionEntry × ℕ) :=
  limitedEntries.zipIdx.filter fun e => e.1.includedInCoinbase ∧ 0 < e.1.creditedDifficulty

variable {limitedEntries : List PayoutDistributionEntry}

theorem mem_keptWorkers {e : PayoutDistributionEntry × ℕ} (h : e ∈ keptWorkers limitedEntries) :
    e.1 ∈ outputsOf limitedEntries ∧ 0 < e.1.creditedDifficulty ∧ e.2 < limitedEntries.length := by
  obtain ⟨hmem, hkept⟩ := List.mem_filter.mp h
  obtain ⟨hincluded, hwork⟩ := of_decide_eq_true hkept
  obtain ⟨hindex, heq⟩ := List.getElem?_eq_some_iff.mp (List.mem_zipIdx_iff_getElem?.mp hmem)
  refine ⟨mem_outputsOf.mpr ⟨?_, hincluded⟩, hwork, hindex⟩
  rw [← heq]
  exact List.getElem_mem hindex

/-- There are such outputs if and only if their work is positive. -/
theorem pos_keptWorkers_iff (limitedEntries : List PayoutDistributionEntry) :
    ¬ ((keptWorkers limitedEntries).map fun e => e.1.creditedDifficulty).sum ≤ 0
      ↔ ∃ output ∈ outputsOf limitedEntries, 0 < output.creditedDifficulty := by
  constructor
  · intro hpos
    by_contra hnone
    have hnil : keptWorkers limitedEntries = [] := by
      rw [List.eq_nil_iff_forall_not_mem]
      intro e he
      obtain ⟨houtput, hwork, -⟩ := mem_keptWorkers he
      exact hnone ⟨e.1, houtput, hwork⟩
    rw [hnil] at hpos
    exact hpos le_rfl
  · rintro ⟨output, houtput, hwork⟩
    obtain ⟨hmem, hincluded⟩ := mem_outputsOf.mp houtput
    obtain ⟨index, hindex⟩ := List.mem_iff_getElem?.mp hmem
    have hkept : (output, index) ∈ keptWorkers limitedEntries :=
      List.mem_filter.mpr ⟨List.mem_zipIdx_iff_getElem?.mpr hindex,
        decide_eq_true ⟨hincluded, hwork⟩⟩
    exact not_le.mpr (sum_pos_of_ne_nil _ _ (List.ne_nil_of_mem hkept)
      fun e he => (mem_keptWorkers he).2.1)

/-- The part of what is taken away that a kept output is due. -/
def limitShare (workers : List (PayoutDistributionEntry × ℕ)) (removedPayoutSats : ℤ)
    (e : PayoutDistributionEntry × ℕ) : ℚ :=
  e.1.creditedDifficulty * removedPayoutSats /
    (workers.map fun e => e.1.creditedDifficulty).sum

/-- The allocations of what is taken away, in the order in which they are paid. -/
def limitAllocations (workers : List (PayoutDistributionEntry × ℕ)) (removedPayoutSats : ℤ) :
    List LimitAllocation :=
  Js.sort
    (fun a b => Js.orElse (b.fraction - a.fraction)
      (Js.orElse (b.creditedDifficulty - a.creditedDifficulty)
        (env.localeCompare a.address b.address)))
    (workers.map fun e =>
      { index := e.2
        creditedDifficulty := e.1.creditedDifficulty
        address := e.1.address
        whole := ⌊limitShare workers removedPayoutSats e⌋
        fraction := limitShare workers removedPayoutSats e
          - ⌊limitShare workers removedPayoutSats e⌋ })

theorem limitCoinbaseOutputs_eq (entries : List PayoutDistributionEntry) :
    limitCoinbaseOutputs env config entries
      = if (dropOutputs config.maxCoinbaseOutputs 0 entries).2 ≤ 0 then
          (dropOutputs config.maxCoinbaseOutputs 0 entries).1
        else if ((keptWorkers (dropOutputs config.maxCoinbaseOutputs 0 entries).1).map fun e =>
            e.1.creditedDifficulty).sum ≤ 0 then
          (dropOutputs config.maxCoinbaseOutputs 0 entries).1
        else payAllocations
          (limitAllocations env (keptWorkers (dropOutputs config.maxCoinbaseOutputs 0 entries).1)
            (dropOutputs config.maxCoinbaseOutputs 0 entries).2)
          ((dropOutputs config.maxCoinbaseOutputs 0 entries).2
            - ((keptWorkers (dropOutputs config.maxCoinbaseOutputs 0 entries).1).map fun e =>
                ⌊limitShare (keptWorkers (dropOutputs config.maxCoinbaseOutputs 0 entries).1)
                  (dropOutputs config.maxCoinbaseOutputs 0 entries).2 e⌋).sum)
          (dropOutputs config.maxCoinbaseOutputs 0 entries).1 :=
  rfl

/-- The allocations pay all that is taken away. -/
theorem sum_limitAllocations (removedPayoutSats : ℤ)
    (hpos : ¬ ((keptWorkers limitedEntries).map fun e => e.1.creditedDifficulty).sum ≤ 0) :
    ((payAllocations (limitAllocations env (keptWorkers limitedEntries) removedPayoutSats)
        (removedPayoutSats - ((keptWorkers limitedEntries).map fun e =>
          ⌊limitShare (keptWorkers limitedEntries) removedPayoutSats e⌋).sum)
        limitedEntries).map (·.payoutSats)).sum
      = (limitedEntries.map (·.payoutSats)).sum + removedPayoutSats := by
  -- the whole parts are floors of shares that add up to what is taken away
  have hshares : ((keptWorkers limitedEntries).map
      (limitShare (keptWorkers limitedEntries) removedPayoutSats)).sum = (removedPayoutSats : ℚ) :=
    sum_proportional _ _ _ _ rfl (not_le.mp hpos).ne'
  have hle := sum_floor_le _ _ hshares
  have hlen := sub_sum_floor_le_length _ _ hshares
  rw [List.map_map] at hle hlen
  rw [List.length_map] at hlen
  have hperm := Js.sort_perm
    (fun a b : LimitAllocation => Js.orElse (b.fraction - a.fraction)
      (Js.orElse (b.creditedDifficulty - a.creditedDifficulty)
        (env.localeCompare a.address b.address)))
    ((keptWorkers limitedEntries).map fun e =>
      { index := e.2
        creditedDifficulty := e.1.creditedDifficulty
        address := e.1.address
        whole := ⌊limitShare (keptWorkers limitedEntries) removedPayoutSats e⌋
        fraction := limitShare (keptWorkers limitedEntries) removedPayoutSats e
          - ⌊limitShare (keptWorkers limitedEntries) removedPayoutSats e⌋ })
  have hwhole : ((limitAllocations env (keptWorkers limitedEntries) removedPayoutSats).map
      (·.whole)).sum = ((keptWorkers limitedEntries).map fun e =>
        ⌊limitShare (keptWorkers limitedEntries) removedPayoutSats e⌋).sum := by
    rw [limitAllocations, (hperm.map (·.whole)).sum_eq, List.map_map]
    rfl
  have hlength : (limitAllocations env (keptWorkers limitedEntries) removedPayoutSats).length
      = (keptWorkers limitedEntries).length := by
    rw [limitAllocations, hperm.length_eq, List.length_map]
  rw [sum_payAllocations, hwhole]
  · omega
  · exact sub_nonneg.mpr hle
  · rw [hlength]
    exact hlen
  · intro allocation hallocation
    obtain ⟨e, he, rfl⟩ := List.mem_map.mp (Js.mem_sort.mp hallocation)
    exact (mem_keptWorkers he).2.2

/-- Without an output for an address with work among those that are kept, what is taken away is
not paid. -/
theorem outputs_limitCoinbaseOutputs
    (hworker : ¬ ∃ output ∈ (outputsOf entries).take config.maxCoinbaseOutputs,
      0 < output.creditedDifficulty) :
    outputsOf (limitCoinbaseOutputs env config entries)
      = (outputsOf entries).take config.maxCoinbaseOutputs := by
  obtain ⟨hkept, -⟩ := outputs_dropOutputs config.maxCoinbaseOutputs 0 entries
  rw [Nat.sub_zero] at hkept
  rw [← hkept, ← pos_keptWorkers_iff, not_not] at hworker
  have hlimited : limitCoinbaseOutputs env config entries
      = (dropOutputs config.maxCoinbaseOutputs 0 entries).1 := by
    rw [limitCoinbaseOutputs_eq, if_pos hworker, ite_self]
  rw [hlimited, hkept]

variable (hpaid : ∀ entry ∈ entries, EntryPaid entry)
  (hbalanced : ∀ entry ∈ entries, EntryBalanced entry)
include hpaid hbalanced

/-- With one, such outputs get what is taken away. -/
theorem sum_limitCoinbaseOutputs
    (hworker : ∃ output ∈ (outputsOf entries).take config.maxCoinbaseOutputs,
      0 < output.creditedDifficulty) :
    ((outputsOf (limitCoinbaseOutputs env config entries)).map (·.payoutSats)).sum
      = ((outputsOf entries).map (·.payoutSats)).sum := by
  obtain ⟨hkept, hremoved⟩ := outputs_dropOutputs config.maxCoinbaseOutputs 0 entries
  rw [Nat.sub_zero] at hkept hremoved
  rw [← hkept, ← pos_keptWorkers_iff] at hworker
  -- the outputs are those that are kept and those that are taken away
  have hsplit : ((outputsOf entries).map (·.payoutSats)).sum
      = ((outputsOf (dropOutputs config.maxCoinbaseOutputs 0 entries).1).map (·.payoutSats)).sum
        + (dropOutputs config.maxCoinbaseOutputs 0 entries).2 := by
    rw [hkept, hremoved, ← List.sum_append, ← List.map_append, List.take_append_drop]
  have hnonneg : 0 ≤ (dropOutputs config.maxCoinbaseOutputs 0 entries).2 := by
    rw [hremoved]
    refine List.sum_nonneg fun x hx => ?_
    obtain ⟨output, houtput, rfl⟩ := List.mem_map.mp hx
    obtain ⟨hmem, hincluded⟩ := mem_outputsOf.mp (List.mem_of_mem_drop houtput)
    exact ((hpaid output hmem).paid hincluded).le
  have hlimited := sum_outputs fun entry hentry =>
    (entryBalanced_dropOutputs hbalanced config.maxCoinbaseOutputs 0 entry hentry).unpaid
  have hall := sum_outputs fun entry hentry =>
    (entryBalanced_limitCoinbaseOutputs env config hbalanced entry hentry).unpaid
  rw [outputsOf, hall, hsplit, outputsOf, hlimited, limitCoinbaseOutputs_eq, if_neg hworker]
  split
  · omega
  · exact sum_limitAllocations env _ hworker

end

/-! ### Spending the coinbase -/

section
variable (input : PayoutDistributionInput)

theorem nonneg_feeSats : 0 ≤ input.feeSats := by
  have hdust : 0 ≤ input.minOutput := le_trans (by decide) (le_max_left dustLimitSats _)
  unfold feeSats
  split
  · rename_i hfee
    exact hdust.trans hfee.2
  · exact le_rfl

/-- A row that is allocated something and is chosen was kept, if it has work. -/
theorem isKept_of_chosen {row : ComputedAddress} (hrow : row ∈ (input.targeted env).values)
    (hchosen : row.address ∈ (chosenRows env input).map (·.address))
    (hwork : 0 < row.creditedDifficulty) : ∃ row ∈ (input.settled env).values, isKept row := by
  obtain ⟨-, hconsidered, hcredit⟩ := get?_targeted_of_mem env input hrow
  obtain ⟨settled, hget⟩ := exists_settledRow env input hconsidered
  have hsettled := settledRow_of_get? env input hget
  refine ⟨settled, OrdMap.mem_values.mpr ⟨_, OrdMap.get?_eq_some_iff.mp hget⟩,
    hsettled.chosen.mpr hchosen, ?_⟩
  rw [hsettled.work, ← hcredit]
  exact hwork

/-- Without an output for an address with work, the miners' outputs spend the reward if and only
if the targets are worth it and every row that is allocated something is chosen. -/
theorem sum_settled_eq_iff (hreward : 0 ≤ input.minerRewardSats)
    (hdifficulty : 0 < input.totalCreditedDifficulty)
    (hidle : ¬ ∃ row ∈ (input.settled env).values, isKept row) :
    ((input.settled env).values.map (·.payoutSats)).sum = input.minerRewardSats ↔
      (∀ row ∈ (input.targeted env).values, 0 < row.payoutSats →
        row.address ∈ (chosenRows env input).map (·.address)) ∧
      input.minerRewardSats ≤ positiveTargets env input := by
  have hfitted := fitted_targeted env input hreward
  have hnonneg : ∀ row ∈ (input.targeted env).values, 0 ≤ row.payoutSats := fun row hrow =>
    (hfitted.rows row hrow).nonneg
  have hall := sum_ite_eq_iff (input.targeted env).values
    (fun row => row.address ∈ (chosenRows env input).map (·.address)) (·.payoutSats) hnonneg
  have htotal := hfitted.total
  -- rows with work that are allocated something are not chosen
  have hworkless : (∀ row ∈ (input.targeted env).values, 0 < row.payoutSats →
      row.address ∈ (chosenRows env input).map (·.address)) →
      ∀ row ∈ (input.targeted env).values, 0 < row.payoutSats → row.creditedDifficulty ≤ 0 := by
    intro hchosen row hrow hpayout
    by_contra hwork
    exact hidle (isKept_of_chosen env input hrow (hchosen row hrow hpayout) (not_le.mp hwork))
  rw [settled_eq_selected env input hidle, sum_selected]
  constructor
  · intro hspent
    have hle : ((input.targeted env).values.map fun row =>
        if row.address ∈ (chosenRows env input).map (·.address) then row.payoutSats else 0).sum
          ≤ ((input.targeted env).values.map (·.payoutSats)).sum := by
      refine List.sum_le_sum fun row hrow => ?_
      split
      · exact le_rfl
      · exact hnonneg row hrow
    have hchosen := hall.mp (by omega)
    exact ⟨hchosen, (sum_targeted_eq_iff env input hreward hdifficulty (hworkless hchosen)).mp
      (by omega)⟩
  · rintro ⟨hchosen, htargets⟩
    rw [hall.mpr hchosen]
    exact (sum_targeted_eq_iff env input hreward hdifficulty (hworkless hchosen)).mpr htargets

/-- A split of nothing pays nothing. -/
theorem unpaid_addSplit_of_nonpos {m : Computations} (h : Unpaid m) (p : ComputedAddress → Prop)
    [DecidablePred p] (weight : ComputedAddress → ℚ) {amount : ℤ} (hamount : amount ≤ 0) :
    ∀ row ∈ (addSplit env m p weight amount).values, row.payoutSats = 0 := by
  intro row hrow
  rw [addSplit, OrdMap.values_mapValues] at hrow
  obtain ⟨r, hr, rfl⟩ := List.mem_map.mp hrow
  have hzero := h.zero r hr
  have hnothing : allocated env m p weight amount r = 0 := by
    rw [allocated, allocateIntegerSats, if_pos (Or.inl hamount)]
    rfl
  split
  · show r.payoutSats + _ = 0
    omega
  · exact hzero

/-- A fee above the coinbase value leaves no reward, and no row is chosen. -/
theorem chosenRows_of_excessiveFee (hreward : input.minerRewardSats < 0) :
    chosenRows env input = [] := by
  have hunpaid := unpaid_computations env input
  have htargets := nonneg_positiveTargets env input
  have hzero : ∀ row ∈ (input.targeted env).values, row.payoutSats = 0 := by
    unfold targeted
    rw [allocatePayoutTargets_eq env hunpaid _ (sum_active_computations env input),
      positiveTargets_eq]
    split
    · exact unpaid_addSplit_of_nonpos env hunpaid _ _ hreward.le
    · rw [if_neg (by omega)]
      exact unpaid_addSplit_of_nonpos env hunpaid _ _ hreward.le
  have heligible : input.eligible env = [] := by
    rw [List.eq_nil_iff_forall_not_mem]
    intro row hrow
    obtain ⟨hvalue, hpaid, -⟩ := (mem_eligible env input).mp hrow
    have hnothing := hzero row hvalue
    omega
  rw [chosenRows, heligible]
  rfl

/-- Then the fee is the only output. -/
theorem outputs_of_excessiveFee (hvalue : 0 < input.coinbaseValue)
    (hreward : input.minerRewardSats < 0) :
    outputsOf (input.rankedEntries env) = [input.feeEntry] := by
  have hfee : 0 < input.feeSats := by
    unfold minerRewardSats at hreward
    omega
  have hexcluded : ∀ entry ∈ input.minerEntries env, entry.includedInCoinbase = false := by
    intro entry hentry
    obtain ⟨row, hrow, rfl⟩ := mem_minerEntries env input hentry
    have hchosen := (settledRow_of_get? env input (get?_settled_of_mem env input hrow)).chosen
    rw [chosenRows_of_excessiveFee env input hreward, List.map_nil] at hchosen
    exact Bool.eq_false_iff.mpr fun h => nomatch hchosen.mp h
  have hmerged : input.mergedEntries env = input.feeEntry :: input.minerEntries env := by
    rw [mergedEntries, if_pos hfee]
    simp only [mergeFeeEntry]
    refine if_pos ?_
    rw [Option.isNone_iff_eq_none, List.find?_eq_none]
    intro entry hentry
    simp [hexcluded entry hentry]
  have hrest : outputsOf ((input.minerEntries env).mapIdx fun index entry =>
      { entry with rank := index + 1 + 1 }) = [] := by
    rw [outputsOf, List.filter_eq_nil_iff]
    intro entry hentry
    obtain ⟨index, hindex, rfl⟩ := List.mem_mapIdx.mp hentry
    simp [hexcluded _ (List.getElem_mem hindex)]
  rw [rankedEntries, hmerged, List.mapIdx_cons]
  show input.feeEntry :: outputsOf _ = _
  rw [hrest]

/-- The inputs whose distribution, cut to a number of outputs, leaves nothing of the coinbase
value. The fee is no more than all of it. And either an address with work is among the outputs
that are kept, or none has to be dropped, every address that is allocated something gets an
output, and what the addresses are due is at least the reward. -/
def RewardPlaced (maxCoinbaseOutputs : ℕ) : Prop :=
  0 ≤ input.minerRewardSats ∧
    ((∃ output ∈ (outputsOf (input.rankedEntries env)).take maxCoinbaseOutputs,
        0 < output.creditedDifficulty) ∨
      ((outputsOf (input.rankedEntries env)).length ≤ maxCoinbaseOutputs ∧
        (∀ row ∈ (input.targeted env).values, 0 < row.payoutSats →
          row.address ∈ (chosenRows env input).map (·.address)) ∧
        input.minerRewardSats ≤ positiveTargets env input))

instance (maxCoinbaseOutputs : ℕ) : Decidable (RewardPlaced env input maxCoinbaseOutputs) :=
  inferInstanceAs (Decidable (_ ∧ _))

/-- Outputs that are dropped would have been paid something. -/
theorem sum_take_lt {outputs : List PayoutDistributionEntry}
    (hpaid : ∀ output ∈ outputs, 0 < output.payoutSats) {count : ℕ}
    (hdropped : count < outputs.length) :
    ((outputs.take count).map (·.payoutSats)).sum < (outputs.map (·.payoutSats)).sum := by
  have hsplit : (outputs.map (·.payoutSats)).sum = ((outputs.take count).map (·.payoutSats)).sum
      + ((outputs.drop count).map (·.payoutSats)).sum := by
    rw [← List.sum_append, ← List.map_append, List.take_append_drop]
  have hrest : 0 < ((outputs.drop count).map (·.payoutSats)).sum := by
    refine List.sum_pos _ (fun x hx => ?_) ?_
    · obtain ⟨output, houtput, rfl⟩ := List.mem_map.mp hx
      exact hpaid output (List.mem_of_mem_drop houtput)
    · rw [ne_eq, List.map_eq_nil_iff, List.drop_eq_nil_iff]
      omega
  omega

/-- The kept outputs spend the coinbase value if and only if the reward can be placed. -/
theorem sum_kept_iff (config : PayoutConfig) (hvalue : 0 < input.coinbaseValue)
    (hdifficulty : 0 < input.totalCreditedDifficulty)
    (hkept : outputsOf (limitCoinbaseOutputs env config (input.rankedEntries env)) ≠ []) :
    ((outputsOf (limitCoinbaseOutputs env config (input.rankedEntries env))).map
        (·.payoutSats)).sum = input.coinbaseValue
      ↔ RewardPlaced env input config.maxCoinbaseOutputs := by
  have hminers : input.minerRewardSats = input.coinbaseValue - input.feeSats := rfl
  have hfee := nonneg_feeSats input
  by_cases hreward : 0 ≤ input.minerRewardSats
  · obtain ⟨hselected, hspent⟩ := selected_settled env input hreward
    have hsum := sum_outputs_rankedEntries env input hselected hfee
    have hentryPaid := entryPaid_rankedEntries env input hselected
    have hbalanced := entryBalanced_rankedEntries env input
    have htotal := hselected.total
    by_cases hworker : ∃ output ∈ (outputsOf (input.rankedEntries env)).take
        config.maxCoinbaseOutputs, 0 < output.creditedDifficulty
    · -- what is dropped or left over is spread over outputs for addresses with work
      refine iff_of_true ?_ ⟨hreward, Or.inl hworker⟩
      have hrow : ∃ row ∈ (input.settled env).values, isKept row := by
        obtain ⟨output, houtput, hwork⟩ := hworker
        exact (exists_worker_iff env input).mp ⟨output, List.mem_of_mem_take houtput, hwork⟩
      have hall := hspent hrow
      rw [sum_limitCoinbaseOutputs env config hentryPaid hbalanced hworker]
      exact hsum.trans (by omega)
    · rw [outputs_limitCoinbaseOutputs env config hworker]
      unfold RewardPlaced
      simp only [hreward, hworker, true_and, false_or]
      by_cases hroom : (outputsOf (input.rankedEntries env)).length ≤ config.maxCoinbaseOutputs
      · rw [List.take_of_length_le hroom] at hworker ⊢
        have hidle : ¬ ∃ row ∈ (input.settled env).values, isKept row := fun hrow =>
          hworker ((exists_worker_iff env input).mpr hrow)
        simp only [hroom, true_and]
        rw [← sum_settled_eq_iff env input hreward hdifficulty hidle, outputsOf, hsum]
        omega
      · -- an output is dropped, and nobody gets what it would have been paid
        have hlt : (((outputsOf (input.rankedEntries env)).take config.maxCoinbaseOutputs).map
            (·.payoutSats)).sum < ((outputsOf (input.rankedEntries env)).map (·.payoutSats)).sum :=
          sum_take_lt (fun output houtput => (hentryPaid output (mem_outputsOf.mp houtput).1).paid
            (mem_outputsOf.mp houtput).2) (not_le.mp hroom)
        have houtputs : ((outputsOf (input.rankedEntries env)).map (·.payoutSats)).sum
            ≤ input.coinbaseValue := hsum.le.trans (by omega)
        exact iff_of_false (by omega) fun h => hroom h.1
  · -- the fee alone is more than the coinbase value
    refine iff_of_false ?_ fun h => hreward h.1
    have houtputs := outputs_of_excessiveFee env input hvalue (not_le.mp hreward)
    have hworker : ¬ ∃ output ∈ (outputsOf (input.rankedEntries env)).take
        config.maxCoinbaseOutputs, 0 < output.creditedDifficulty := by
      rintro ⟨output, houtput, hwork⟩
      have hmem := List.mem_of_mem_take houtput
      rw [houtputs, List.mem_singleton] at hmem
      rw [hmem] at hwork
      exact absurd hwork (lt_irrefl _)
    rw [outputs_limitCoinbaseOutputs env config hworker, houtputs] at hkept ⊢
    cases hmax : config.maxCoinbaseOutputs with
    | zero =>
      rw [hmax, List.take_zero] at hkept
      exact absurd rfl hkept
    | succ count =>
      rw [List.take_succ_cons, List.take_nil]
      show ([input.feeSats].sum : ℤ) ≠ _
      rw [List.sum_singleton]
      omega

end

/-- The input of the distribution of a template. -/
def templateInput (config : PayoutConfig) (coinbaseValueSats : ℤ)
    (addressWork : List PayoutAddressWork) (balances : List PayoutBalanceInput) :
    PayoutDistributionInput where
  addressWork := addressWork
  balances := balances
  coinbaseValueSats := coinbaseValueSats
  feeAddress := some config.feeAddress
  feePercent := config.feePercent
  minOutputSats := config.minOutputSats
  coinbaseWeightBudget := config.coinbaseWeightBudget

section
variable {config : PayoutConfig} {coinbaseValueSats : ℤ} {addressWork : List PayoutAddressWork}
  {balances : List PayoutBalanceInput} {entries : List PayoutDistributionEntry}
  {consideredAddressCount : ℕ}

/-- The distribution of a template has an output. -/
theorem distributeTemplate_eq_some
    (h : distributeTemplate env config coinbaseValueSats addressWork balances
      = some (entries, consideredAddressCount)) :
    limitCoinbaseOutputs env config (buildPayoutDistribution env
        (templateInput config coinbaseValueSats addressWork balances)).entries = entries ∧
      outputsOf entries ≠ [] := by
  simp only [distributeTemplate] at h
  split at h
  · cases h
  · split at h
    · cases h
    · rename_i hsome
      cases h
      refine ⟨rfl, fun hnil => hsome ?_⟩
      rw [outputsOf, List.filter_eq_nil_iff] at hnil
      simpa using hnil

/-- The outputs of a template's distribution spend its coinbase value if and only if the reward
can be placed. -/
theorem sum_distributeTemplate_iff
    (h : distributeTemplate env config coinbaseValueSats addressWork balances
      = some (entries, consideredAddressCount)) :
    ((outputsOf entries).map (·.payoutSats)).sum = coinbaseValueSats
      ↔ RewardPlaced env (templateInput config coinbaseValueSats addressWork balances)
          config.maxCoinbaseOutputs := by
  obtain ⟨rfl, hkept⟩ := distributeTemplate_eq_some env h
  generalize hinput : templateInput config coinbaseValueSats addressWork balances = input at hkept ⊢
  have hsats : input.coinbaseValue = max 0 coinbaseValueSats := by
    rw [← hinput]
    rfl
  by_cases hnothing : input.coinbaseValue ≤ 0 ∨ input.totalCreditedDifficulty ≤ 0
  · rw [entries_of_nothing env hnothing] at hkept
    exact absurd rfl hkept
  · rw [entries_of_something env hnothing] at hkept ⊢
    obtain ⟨hvalue, hdifficulty⟩ := not_or.mp hnothing
    have hiff := sum_kept_iff env input config (not_le.mp hvalue) (not_le.mp hdifficulty) hkept
    have hsame : coinbaseValueSats = input.coinbaseValue := by omega
    rwa [hsame]

end

end PublicPool.Proofs
