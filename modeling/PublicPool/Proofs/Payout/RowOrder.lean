import PublicPool.Proofs.Payout.DistinctEntries

/-!
# `PublicPool.Proofs.Payout.RowOrder`: a distribution does not depend on the order of its rows

The work and the balances come from queries without an order. `buildPayoutDistribution` puts them
into maps, which remember the order of insertion, and sorts what it takes out of them. Here two
inputs are run side by side: the maps of each stage are looked up alike (`SameMap`), so their
values are the same up to order, sums over them agree, and a sort whose ties are broken by the
addresses gives one list.

The collation has to order the addresses for that (`LocaleOrder`). A row of work without
difficulty is skipped together with its share count, so the rows that an address is split into
have to have some (`SplitOf`); `not_distribution_order_independent` is what happens otherwise.
-/

set_option autoImplicit false

namespace PublicPool.Proofs

open Lib
open PayoutDistributionInput

/-- The collation is a total order on some addresses. -/
structure LocaleOrder (env : PayoutEnv) (addresses : List String) : Prop where
  swap : ∀ a ∈ addresses, ∀ b ∈ addresses,
    env.localeCompare b a ≤ 0 ↔ 0 ≤ env.localeCompare a b
  trans : ∀ a ∈ addresses, ∀ b ∈ addresses, ∀ c ∈ addresses,
    env.localeCompare a b ≤ 0 → env.localeCompare b c ≤ 0 → env.localeCompare a c ≤ 0
  eq : ∀ a ∈ addresses, ∀ b ∈ addresses, env.localeCompare a b = 0 → a = b

/-- Two maps that are looked up alike. -/
def SameMap {β : Type*} (m n : OrdMap String β) : Prop := ∀ key, m.get? key = n.get? key

variable {env : PayoutEnv} {addresses : List String}

theorem SameMap.entries {β : Type*} {m n : OrdMap String β} (h : SameMap m n) :
    m.entries.Perm n.entries := OrdMap.perm_of_get?_eq h

theorem SameMap.values {β : Type*} {m n : OrdMap String β} (h : SameMap m n) :
    m.values.Perm n.values := h.entries.map Prod.snd

theorem SameMap.keys {β : Type*} {m n : OrdMap String β} (h : SameMap m n) :
    m.keys.Perm n.keys := h.entries.map Prod.fst

theorem SameMap.set {β : Type*} {m n : OrdMap String β} (h : SameMap m n) (key : String)
    (value : β) : SameMap (m.set key value) (n.set key value) := fun other => by
  rw [OrdMap.get?_set, OrdMap.get?_set, h]

theorem SameMap.modify {β : Type*} {m n : OrdMap String β} (h : SameMap m n) (key : String)
    (f : β → β) : SameMap (m.modify key f) (n.modify key f) := fun other => by
  rw [OrdMap.get?_modify, OrdMap.get?_modify, h]

theorem SameMap.mapValues {β : Type*} {m n : OrdMap String β} (h : SameMap m n)
    {f g : String → β → β} (hfg : ∀ key value, f key value = g key value) :
    SameMap (m.mapValues f) (n.mapValues g) := fun key => by
  rw [OrdMap.get?_mapValues, OrdMap.get?_mapValues, h]
  exact congrArg (Option.map · _) (funext (hfg key))

/-! ### Sorting by address -/

/-- The collation ranks what carries one of the addresses. -/
theorem LocaleOrder.ranks (h : LocaleOrder env addresses) {α : Type*} (key : α → String)
    {xs : List α} (hxs : ∀ x ∈ xs, key x ∈ addresses) :
    Js.Ranks (fun a b => (env.localeCompare (key a) (key b) : ℚ)) xs where
  swap a ha b hb := by
    have hswap := h.swap (key a) (hxs a ha) (key b) (hxs b hb)
    exact_mod_cast hswap
  trans a ha b hb c hc hab hbc := by
    have hab : env.localeCompare (key a) (key b) ≤ 0 := by exact_mod_cast hab
    have hbc : env.localeCompare (key b) (key c) ≤ 0 := by exact_mod_cast hbc
    exact_mod_cast h.trans (key a) (hxs a ha) (key b) (hxs b hb) (key c) (hxs c hc) hab hbc

/-- Rows under distinct addresses are told apart by them. -/
theorem LocaleOrder.eq_of_compare (h : LocaleOrder env addresses) {rows : List ComputedAddress}
    (hrows : ∀ row ∈ rows, row.address ∈ addresses) (hnodup : (rows.map (·.address)).Nodup)
    {a b : ComputedAddress} (ha : a ∈ rows) (hb : b ∈ rows) (hcompare : comparePayouts env a b = 0) :
    a = b := by
  have htie := (Js.orElse_eq_zero.mp (Js.orElse_eq_zero.mp hcompare).2).2
  have htie : env.localeCompare a.address b.address = 0 := by exact_mod_cast htie
  exact List.inj_on_of_nodup_map hnodup ha hb (h.eq _ (hrows a ha) _ (hrows b hb) htie)

theorem LocaleOrder.ranks_comparePayouts (h : LocaleOrder env addresses)
    {rows : List ComputedAddress} (hrows : ∀ row ∈ rows, row.address ∈ addresses) :
    Js.Ranks (comparePayouts env) rows :=
  ((h.ranks (fun row : ComputedAddress => row.address) hrows).descending
    fun row => row.targetSats).descending fun row => row.payoutSats

/-! ### Largest remainder -/

theorem SameMap.handOutResidual (fractions : List AllocationFraction) (residual : ℤ)
    {m n : OrdMap String ℤ} (h : SameMap m n) :
    SameMap (handOutResidual fractions residual m) (handOutResidual fractions residual n) := by
  induction fractions generalizing residual m n with
  | nil => exact h
  | cons target fractions ih =>
    unfold PublicPool.handOutResidual
    split
    · exact h
    · rw [h target.item]
      exact ih _ (h.set _ _)

/-- A split does not depend on the order of its targets. -/
theorem sameMap_allocateIntegerSats (horder : LocaleOrder env addresses)
    {targets targets' : List AllocationTarget} (hperm : targets.Perm targets')
    (hitems : (targets.map (·.item)).Nodup) (haddresses : ∀ t ∈ targets, t.item ∈ addresses)
    (amountSats : ℤ) (totalWeight : ℚ) :
    SameMap (allocateIntegerSats env targets amountSats totalWeight)
      (allocateIntegerSats env targets' amountSats totalWeight) := by
  have hpositive := hperm.filter fun target => decide (0 < target.weight)
  unfold allocateIntegerSats
  split
  · exact fun _ => rfl
  · simp only
    rw [((hpositive.map _).sum_eq : ((targets.filter fun target => decide (0 < target.weight)).map
      fun target => ⌊target.weight * amountSats / totalWeight⌋).sum = _)]
    -- the fractions come in one order
    let fractionOf (target : AllocationTarget) : AllocationFraction :=
      { item := target.item, weight := target.weight
        fraction := target.weight * amountSats / totalWeight
          - ⌊target.weight * amountSats / totalWeight⌋ }
    have hmem : ∀ f ∈ (targets.filter fun target => decide (0 < target.weight)).map fractionOf,
        f.item ∈ addresses := by
      intro f hf
      obtain ⟨target, htarget, rfl⟩ := List.mem_map.mp hf
      exact haddresses target (List.mem_filter.mp htarget).1
    have hranks := ((horder.ranks (fun f : AllocationFraction => f.item) hmem).descending
      fun f => f.weight).descending fun f => f.fraction
    have hsorted := Js.sort_eq_of_perm hranks ?_ (hpositive.map fractionOf)
    · simp only [fractionOf] at hsorted
      rw [hsorted]
      refine SameMap.handOutResidual _ _ (OrdMap.get?_eq_of_perm ?_)
      -- the whole parts are set one by one, under distinct items
      have hentries : ∀ ts : List AllocationTarget, (ts.map (·.item)).Nodup →
          ((OrdMap.empty : OrdMap String ℤ).setAll
            (ts.map fun t => (t.item, ⌊t.weight * amountSats / totalWeight⌋))).entries
          = [] ++ ts.map fun t => (t.item, ⌊t.weight * amountSats / totalWeight⌋) := fun ts hts =>
        OrdMap.entries_setAll (by simpa [OrdMap.keys, Function.comp_def] using hts)
      have hdistinct := hitems.sublist (List.filter_sublist (p := fun target : AllocationTarget =>
        decide (0 < target.weight)) |>.map (·.item))
      rw [hentries _ hdistinct, hentries _ ((hpositive.map _).nodup_iff.mp hdistinct)]
      exact hpositive.map _
    · rintro ⟨item, weight, fraction⟩ hf ⟨item', weight', fraction'⟩ hf' hcompare
      obtain ⟨hfraction, hcompare⟩ := Js.orElse_eq_zero.mp hcompare
      obtain ⟨hweight, hitem⟩ := Js.orElse_eq_zero.mp hcompare
      have hitem : item = item' :=
        horder.eq _ (hmem _ hf) _ (hmem _ hf') (by exact_mod_cast hitem)
      have hweight : weight = weight' := (sub_eq_zero.mp hweight).symm
      have hfraction : fraction = fraction' := (sub_eq_zero.mp hfraction).symm
      rw [hitem, hweight, hfraction]

/-! ### The stages -/

/-- The redistribution as a split over the kept rows. -/
theorem redistribute_eq (m : Computations) (reward : ℤ) :
    redistributeUnfitMinerPayouts env m reward
      = if reward - ((m.values.filter (·.includedInCoinbase)).map (·.payoutSats)).sum ≤ 0 then m
        else if ((rowsWith m isKept).map (·.creditedDifficulty)).sum ≤ 0 then m
        else addSplit env m isKept (·.creditedDifficulty)
          (reward - ((m.values.filter (·.includedInCoinbase)).map (·.payoutSats)).sum) := rfl

section Stages
variable {m n : Computations}

theorem rowsWith_perm (h : SameMap m n) (p : ComputedAddress → Prop) [DecidablePred p] :
    (rowsWith m p).Perm (rowsWith n p) := h.values.filter _

/-- What is summed over some of the rows. -/
theorem sum_rowsWith {M : Type*} [AddCommMonoid M] (h : SameMap m n) (p : ComputedAddress → Prop)
    [DecidablePred p] (f : ComputedAddress → M) :
    ((rowsWith m p).map f).sum = ((rowsWith n p).map f).sum :=
  ((rowsWith_perm h p).map f).sum_eq

variable (horder : LocaleOrder env addresses) (hkeyed : ∀ e ∈ m.entries, e.2.address = e.1)
  (haddresses : ∀ row ∈ m.values, row.address ∈ addresses)
include horder hkeyed haddresses

theorem sameMap_addSplit (h : SameMap m n) (p : ComputedAddress → Prop) [DecidablePred p]
    (weight : ComputedAddress → ℚ) (amount : ℤ) :
    SameMap (addSplit env m p weight amount) (addSplit env n p weight amount) := by
  refine h.mapValues fun key row => ?_
  have htargets : (targetsOf (rowsWith m p) weight).Perm (targetsOf (rowsWith n p) weight) :=
    (rowsWith_perm h p).map _
  have hitems : ∀ t ∈ targetsOf (rowsWith m p) weight, t.item ∈ addresses := by
    intro t ht
    obtain ⟨r, hr, rfl⟩ := List.mem_map.mp ht
    exact haddresses r (List.mem_filter.mp hr).1
  have hsplit := sameMap_allocateIntegerSats horder htargets (nodup_items_targetsOf hkeyed p weight)
    hitems amount ((rowsWith m p).map weight).sum
  have hallocated : allocated env m p weight amount row = allocated env n p weight amount row := by
    rw [allocated, allocated, hsplit row.address, sum_rowsWith h p weight]
  rw [hallocated]

/-- The first stage. -/
theorem sameMap_allocatePayoutTargets (h : SameMap m n) (hm : Unpaid m) (hn : Unpaid n)
    (reward : ℤ) {totalCreditedDifficulty : ℚ}
    (htotal : ((rowsWith m (0 < ·.creditedDifficulty)).map (·.creditedDifficulty)).sum
      = totalCreditedDifficulty) :
    SameMap (allocatePayoutTargets env m reward totalCreditedDifficulty)
      (allocatePayoutTargets env n reward totalCreditedDifficulty) := by
  have htotal' := htotal
  rw [sum_rowsWith h] at htotal'
  rw [allocatePayoutTargets_eq env hm reward htotal, allocatePayoutTargets_eq env hn reward htotal',
    sum_rowsWith h (0 < ·.targetSats) (·.targetSats)]
  have hpaid : SameMap (paidInFull m) (paidInFull n) := h.mapValues fun _ _ => rfl
  split
  · exact sameMap_addSplit horder hkeyed haddresses h _ _ _
  · split
    · split
      · exact hpaid
      · refine sameMap_addSplit horder (fitted_paidInFull hm).keyed ?_ hpaid _ _ _
        exact forall_mapValues haddresses _ fun _ row hrow => by split <;> exact hrow
    · exact sameMap_addSplit horder hkeyed haddresses h _ _ _

/-- The last stage. -/
theorem sameMap_redistribute (h : SameMap m n) (reward : ℤ) :
    SameMap (redistributeUnfitMinerPayouts env m reward)
      (redistributeUnfitMinerPayouts env n reward) := by
  rw [redistribute_eq, redistribute_eq, ((h.values.filter _).map _).sum_eq,
    sum_rowsWith h isKept (·.creditedDifficulty)]
  split
  · exact h
  · split
    · exact h
    · exact sameMap_addSplit horder hkeyed haddresses h _ _ _

end Stages

theorem SameMap.includeEligible (effectiveBudget : ℚ) (eligible : List ComputedAddress)
    (usedWeight : ℕ) {m n : Computations} (h : SameMap m n) :
    SameMap (includeEligible env effectiveBudget eligible usedWeight m)
      (includeEligible env effectiveBudget eligible usedWeight n) := by
  induction eligible generalizing usedWeight m n with
  | nil => exact h
  | cons row eligible ih =>
    unfold PublicPool.includeEligible
    simp only
    split
    · exact ih _ (h.modify _ _)
    · exact ih _ (h.modify _ _)

/-- A chosen row sits under its own address, which is a considered one. -/
theorem address_selected (input : PayoutDistributionInput) {address : String}
    {row : ComputedAddress} (hrow : (input.selected env).get? address = some row) :
    row.address = address ∧ address ∈ input.considered := by
  have hsame : ((input.selected env).get? address).map (·.address)
      = ((input.computations env).get? address).map (·.address) := by
    have hloop := map_get?_includeEligible env (input.weightBudget - budgetSafetyMarginWeight)
      (input.eligible env) (input.usedWeight env) (input.targeted env)
      (g := (·.address)) (fun _ _ _ => rfl) address
    have hloop := congrArg (Option.map Prod.fst) hloop
    rw [Option.map_map, Option.map_map] at hloop
    rw [selected, resetUnfit, map_get?_mapValues _ _ (fun _ _ => by split <;> rfl)]
    refine hloop.trans ?_
    exact map_get?_allocatePayoutTargets env _ _ _ (fun _ _ _ => rfl) address
  rw [hrow, Option.map_some] at hsame
  by_cases hconsidered : address ∈ input.considered
  · rw [get?_computations env input hconsidered, Option.map_some] at hsame
    exact ⟨Option.some.inj hsame, hconsidered⟩
  · rw [get?_computations_eq_none env input hconsidered] at hsame
    cases hsame

/-- Outputs come first, the rest is ranked as before. -/
theorem ranks_outputsFirst {compare : ComputedAddress → ComputedAddress → ℚ}
    {rows : List ComputedAddress} (h : Js.Ranks compare rows) :
    Js.Ranks (fun a b => if a.includedInCoinbase ≠ b.includedInCoinbase then
      if a.includedInCoinbase then -1 else 1 else compare a b) rows where
  swap a ha b hb := by
    have hswap := h.swap a ha b hb
    cases hinc : a.includedInCoinbase <;> cases hinc' : b.includedInCoinbase <;> simp [hswap]
  trans a ha b hb c hc := by
    have htrans := h.trans a ha b hb c hc
    cases hinc : a.includedInCoinbase <;> cases hinc' : b.includedInCoinbase <;>
      cases hinc'' : c.includedInCoinbase <;> simp
    · exact htrans
    · exact htrans

/-! ### Two inputs side by side -/

/-- Two inputs with the same work and balances for each address, and the same of everything
else. -/
structure SameInputs (input other : PayoutDistributionInput) : Prop where
  work : SameMap input.workByAddress other.workByAddress
  balances : SameMap input.balanceByAddress other.balanceByAddress
  rest : other = { input with addressWork := other.addressWork, balances := other.balances }

namespace SameInputs

variable {input other : PayoutDistributionInput} (h : SameInputs input other)
include h

theorem totalCreditedDifficulty :
    input.totalCreditedDifficulty = other.totalCreditedDifficulty :=
  (h.work.values.map _).sum_eq

theorem coinbaseValue : other.coinbaseValue = input.coinbaseValue := by rw [h.rest]; rfl

theorem feeSats : other.feeSats = input.feeSats := by rw [h.rest]; rfl

theorem feeOutputAddress : other.feeOutputAddress = input.feeOutputAddress := by rw [h.rest]; rfl

theorem minerRewardSats : other.minerRewardSats = input.minerRewardSats := by rw [h.rest]; rfl

theorem mem_considered (address : String) : address ∈ input.considered ↔ address ∈ other.considered := by
  unfold PayoutDistributionInput.considered
  simp only [List.mem_append, List.mem_filter, decide_eq_true_eq, h.work.keys.mem_iff,
    h.balances.keys.mem_iff]

theorem considered : input.considered.Perm other.considered :=
  (List.perm_ext_iff_of_nodup input.nodup_considered other.nodup_considered).mpr h.mem_considered

variable (horder : LocaleOrder env input.considered)
include horder

theorem fairShareSats : SameMap (input.fairShareSats env) (other.fairShareSats env) := by
  unfold PayoutDistributionInput.fairShareSats
  rw [h.minerRewardSats, h.totalCreditedDifficulty]
  refine sameMap_allocateIntegerSats horder (h.work.entries.map _) ?_ ?_ _ _
  · rw [List.map_map]
    exact input.workByAddress.nodup
  · intro t ht
    obtain ⟨e, he, rfl⟩ := List.mem_map.mp ht
    exact List.mem_append_left _ (OrdMap.mem_keys_of_mem he)

theorem computedAddress (address : String) :
    input.computedAddress env address = other.computedAddress env address := by
  unfold PayoutDistributionInput.computedAddress
  rw [h.work address, h.balances address, h.fairShareSats horder address,
    h.totalCreditedDifficulty]

theorem computations : SameMap (input.computations env) (other.computations env) := fun address => by
  unfold PayoutDistributionInput.computations
  rw [OrdMap.get?_ofKeys, OrdMap.get?_ofKeys, h.computedAddress horder address]
  simp only [h.mem_considered address]

theorem targeted : SameMap (input.targeted env) (other.targeted env) := by
  unfold PayoutDistributionInput.targeted
  rw [h.minerRewardSats, ← h.totalCreditedDifficulty]
  refine sameMap_allocatePayoutTargets horder (unpaid_computations env input).keyed ?_
    (h.computations horder) (unpaid_computations env input) (unpaid_computations env other) _
    (sum_active_computations env input)
  intro row hrow
  obtain ⟨address, hmem⟩ := OrdMap.mem_values.mp hrow
  obtain ⟨hconsidered, heq⟩ := OrdMap.mem_entries_ofKeys.mp hmem
  have haddress : (input.computedAddress env address).address = address := rfl
  rw [show input.computedAddress env address = row from heq] at haddress
  rw [haddress]
  exact hconsidered

theorem eligible : input.eligible env = other.eligible env := by
  unfold PayoutDistributionInput.eligible
  have hminOutput : other.minOutput = input.minOutput := by rw [h.rest]; rfl
  rw [hminOutput]
  have hkeyed := (rows_allocatePayoutTargets env (unpaid_computations env input)
    input.minerRewardSats (sum_active_computations env input)).1
  have haddresses : ∀ row ∈ (input.targeted env).values.filter (fun row => decide
      (0 < row.payoutSats ∧ (0 < row.creditedDifficulty ∨ input.minOutput ≤ row.payoutSats))),
      row.address ∈ input.considered := fun row hrow =>
    (get?_targeted_of_mem env input (List.mem_filter.mp hrow).1).2.1
  refine Js.sort_eq_of_perm (horder.ranks_comparePayouts haddresses) (fun a ha b hb hcompare => ?_)
    ((h.targeted horder).values.filter _)
  exact horder.eq_of_compare haddresses
    ((nodup_addresses hkeyed).sublist (List.filter_sublist.map _)) ha hb hcompare

theorem selected : SameMap (input.selected env) (other.selected env) := by
  have hbudget : other.weightBudget = input.weightBudget := by rw [h.rest]; rfl
  have hused : other.usedWeight env = input.usedWeight env := by
    unfold PayoutDistributionInput.usedWeight
    rw [h.feeSats, h.feeOutputAddress]
  unfold PayoutDistributionInput.selected
  rw [hbudget, hused, ← h.eligible horder]
  exact ((h.targeted horder).includeEligible _ _ _).mapValues fun _ _ => rfl

theorem settled : SameMap (input.settled env) (other.settled env) := by
  unfold PayoutDistributionInput.settled
  rw [h.minerRewardSats]
  refine sameMap_redistribute horder (fun e he => ?_) (fun row hrow => ?_) (h.selected horder) _
  · exact (address_selected input (OrdMap.get?_eq_some_iff.mpr he)).1
  · obtain ⟨address, hmem⟩ := OrdMap.mem_values.mp hrow
    obtain ⟨haddress, hconsidered⟩ := address_selected input (OrdMap.get?_eq_some_iff.mpr hmem)
    rw [haddress]
    exact hconsidered

theorem minerEntries : input.minerEntries env = other.minerEntries env := by
  unfold PayoutDistributionInput.minerEntries
  have haddresses : ∀ row ∈ (input.settled env).values.filter (fun row => decide
      (row.includedInCoinbase ∨ row.balanceBeforeSats ≠ row.balanceAfterSats ∨
        row.balanceAfterSats ≠ 0)), row.address ∈ input.considered := fun row hrow =>
    (settledRow_of_get? env input (get?_settled_of_mem env input (List.mem_filter.mp hrow).1)).considered
  have hkeyed : ∀ e ∈ (input.settled env).entries, e.2.address = e.1 := fun e he =>
    (settledRow_of_get? env input (OrdMap.get?_eq_some_iff.mpr he)).address_eq
  refine congrArg (List.map minerEntry) (Js.sort_eq_of_perm
    (ranks_outputsFirst (horder.ranks_comparePayouts haddresses)) (fun a ha b hb hcompare => ?_)
    ((h.settled horder).values.filter _))
  refine horder.eq_of_compare haddresses
    ((nodup_addresses hkeyed).sublist (List.filter_sublist.map _)) ha hb ?_
  split at hcompare
  · split at hcompare <;> norm_num at hcompare
  · exact hcompare

/-- The two inputs have one distribution. -/
theorem buildPayoutDistribution :
    buildPayoutDistribution env input = buildPayoutDistribution env other := by
  have hfee : other.feeEntry = input.feeEntry := by
    unfold PayoutDistributionInput.feeEntry
    rw [h.feeSats, h.feeOutputAddress]
  have hranked : input.rankedEntries env = other.rankedEntries env := by
    unfold PayoutDistributionInput.rankedEntries PayoutDistributionInput.mergedEntries
    rw [h.feeSats, hfee, h.minerEntries horder]
  unfold PublicPool.buildPayoutDistribution
  rw [h.coinbaseValue, h.feeSats, ← h.totalCreditedDifficulty, hranked, h.considered.length_eq]

end SameInputs

/-! ### The rows -/

/-- The rows of an address that count. -/
def creditedRows (addressWork : List PayoutAddressWork) (address : String) :
    List PayoutAddressWork :=
  addressWork.filter fun row => row.address = address ∧ 0 < row.creditedDifficulty

/-- The work of an address with more rows on top. -/
def withCredit (existing : Option CreditedWork) (rows : List PayoutAddressWork) :
    Option CreditedWork :=
  if rows = [] then existing
  else some
    { creditedDifficulty := (existing.getD ⟨0, 0⟩).creditedDifficulty
        + (rows.map (·.creditedDifficulty)).sum
      acceptedShareCount := (existing.getD ⟨0, 0⟩).acceptedShareCount
        + (rows.map (·.acceptedShareCount)).sum }

theorem withCredit_cons (existing : Option CreditedWork) (row : PayoutAddressWork)
    (rows : List PayoutAddressWork) :
    withCredit existing (row :: rows) = withCredit (withCredit existing [row]) rows := by
  unfold withCredit
  by_cases hrows : rows = []
  · subst hrows
    rfl
  · rw [if_neg (List.cons_ne_nil _ _), if_neg (List.cons_ne_nil _ _), if_neg hrows]
    simp [add_assoc]

variable (addressWork : List PayoutAddressWork) (acc : OrdMap String CreditedWork)

/-- The work of an address is the total of its rows. -/
theorem get?_foldl_addWork {address : String} (haddress : address ≠ "") :
    (addressWork.foldl addWork acc).get? address
      = withCredit (acc.get? address) (creditedRows addressWork address) := by
  induction addressWork generalizing acc with
  | nil => rfl
  | cons row addressWork ih =>
    rw [List.foldl_cons, ih, creditedRows, creditedRows, List.filter_cons]
    by_cases hcounts : row.address = address ∧ 0 < row.creditedDifficulty
    · obtain ⟨hsame, hcredit⟩ := hcounts
      have hadd : (addWork acc row).get? address = withCredit (acc.get? address) [row] := by
        unfold addWork
        rw [if_neg (by simp [hsame, haddress, hcredit]), OrdMap.get?_set, if_pos hsame.symm, hsame]
        simp [withCredit]
      rw [if_pos (decide_eq_true ⟨hsame, hcredit⟩), hadd, ← withCredit_cons]
    · rw [if_neg (by simpa using hcounts)]
      have hadd : (addWork acc row).get? address = acc.get? address := by
        unfold addWork
        split
        · rfl
        · rename_i hset
          obtain ⟨-, hcredit⟩ := not_or.mp hset
          have hother : address ≠ row.address := fun heq =>
            hcounts ⟨heq.symm, not_le.mp hcredit⟩
          rw [OrdMap.get?_set, if_neg hother]
      rw [hadd]

/-- Nothing is booked under the empty address. -/
theorem get?_foldl_addWork_empty : (addressWork.foldl addWork acc).get? "" = acc.get? "" := by
  induction addressWork generalizing acc with
  | nil => rfl
  | cons row addressWork ih =>
    rw [List.foldl_cons, ih]
    unfold addWork
    split
    · rfl
    · rename_i hset
      obtain ⟨haddress, -⟩ := not_or.mp hset
      rw [OrdMap.get?_set, if_neg (Ne.symm haddress)]

/-- Rows with the same totals for each address. -/
def SameTotals (addressWork addressWork' : List PayoutAddressWork) : Prop :=
  ∀ address,
    ((creditedRows addressWork address).map (·.creditedDifficulty)).sum
        = ((creditedRows addressWork' address).map (·.creditedDifficulty)).sum ∧
      ((creditedRows addressWork address).map (·.acceptedShareCount)).sum
        = ((creditedRows addressWork' address).map (·.acceptedShareCount)).sum

/-- An address has rows that count if and only if they have some difficulty in total. -/
theorem creditedRows_eq_nil_iff (address : String) :
    creditedRows addressWork address = []
      ↔ ((creditedRows addressWork address).map (·.creditedDifficulty)).sum = 0 := by
  constructor
  · intro hnil
    rw [hnil]
    rfl
  · intro hzero
    by_contra hne
    refine (sum_pos_of_ne_nil (creditedRows addressWork address) (·.creditedDifficulty) hne
      fun row hrow => ?_).ne' hzero
    exact (of_decide_eq_true (List.mem_filter.mp hrow).2).2

variable {addressWork addressWork' : List PayoutAddressWork}

theorem SameTotals.workByAddress (h : SameTotals addressWork addressWork') :
    SameMap (addressWork.foldl addWork .empty) (addressWork'.foldl addWork .empty) := by
  intro address
  by_cases haddress : address = ""
  · rw [haddress, get?_foldl_addWork_empty, get?_foldl_addWork_empty]
  · obtain ⟨hcredit, hshares⟩ := h address
    have hnil := creditedRows_eq_nil_iff addressWork address
    rw [hcredit, ← creditedRows_eq_nil_iff] at hnil
    rw [get?_foldl_addWork _ _ haddress, get?_foldl_addWork _ _ haddress]
    unfold withCredit
    simp only [hnil, hcredit, hshares]

/-- Balances of distinct addresses are put into the map alike in every order. -/
theorem sameMap_foldl_addBalance {balances balances' : List PayoutBalanceInput}
    (hperm : balances.Perm balances') (hnodup : (balances.map (·.address)).Nodup) :
    ∀ {m n : OrdMap String ℤ}, SameMap m n →
      SameMap (balances.foldl addBalance m) (balances'.foldl addBalance n) := by
  have hadd : ∀ (balance : PayoutBalanceInput) {m n : OrdMap String ℤ}, SameMap m n →
      SameMap (addBalance m balance) (addBalance n balance) := by
    intro balance m n h
    unfold addBalance
    split
    · exact h.set _ _
    · exact h
  induction hperm with
  | nil =>
    intro m n h
    exact h
  | cons balance _ ih =>
    intro m n h
    exact ih (List.nodup_cons.mp hnodup).2 (hadd balance h)
  | swap balance balance' balances =>
    intro m n h
    -- the two are set under different addresses
    have hne : balance'.address ≠ balance.address := by
      intro heq
      exact (List.nodup_cons.mp hnodup).1 (List.mem_cons.mpr (Or.inl heq))
    have hfold : ∀ (rest : List PayoutBalanceInput) {m n : OrdMap String ℤ}, SameMap m n →
        SameMap (rest.foldl addBalance m) (rest.foldl addBalance n) := by
      intro rest
      induction rest with
      | nil => exact fun h => h
      | cons first rest ih => exact fun h => ih (hadd first h)
    refine hfold balances fun address => ?_
    unfold addBalance
    split
    · split
      · rw [OrdMap.get?_set, OrdMap.get?_set, OrdMap.get?_set, OrdMap.get?_set, h address]
        split
        · rename_i heq
          rw [if_neg (fun heq' => hne (heq'.symm.trans heq))]
        · rfl
      · rw [OrdMap.get?_set, OrdMap.get?_set, h address]
    · split
      · rw [OrdMap.get?_set, OrdMap.get?_set, h address]
      · exact h address
  | trans hperm _ ih ih' =>
    intro m n h address
    exact (ih hnodup (fun _ => rfl) address).trans
      (ih' ((hperm.map _).nodup_iff.mp hnodup) h address)

/-- The same rows in another order have the same totals. -/
theorem sameTotals_of_perm (h : addressWork.Perm addressWork') :
    SameTotals addressWork addressWork' := fun _ =>
  ⟨((h.filter _).map _).sum_eq, ((h.filter _).map _).sum_eq⟩

/-- Several rows of one address with the totals of one row. -/
structure SplitsInto (row : PayoutAddressWork) (parts : List PayoutAddressWork) : Prop where
  address : ∀ part ∈ parts, part.address = row.address
  credited : (parts.map (·.creditedDifficulty)).sum = row.creditedDifficulty
  shares : (parts.map (·.acceptedShareCount)).sum = row.acceptedShareCount

/-- Parts with some difficulty count as the row counts. -/
theorem SplitsInto.sameTotals {row : PayoutAddressWork} {parts : List PayoutAddressWork}
    (h : SplitsInto row parts) (hpositive : ∀ part ∈ parts, 0 < part.creditedDifficulty)
    (before after : List PayoutAddressWork) :
    SameTotals (before ++ row :: after) (before ++ parts ++ after) := by
  intro address
  have hone : ∀ rows : List PayoutAddressWork, creditedRows (before ++ rows ++ after) address
      = creditedRows before address ++ creditedRows rows address ++ creditedRows after address := by
    intro rows
    unfold creditedRows
    rw [List.filter_append, List.filter_append]
  have hrow : before ++ row :: after = before ++ [row] ++ after := by simp
  rw [hrow, hone, hone]
  -- the parts count under the address of the row only
  have hparts : creditedRows parts address = if row.address = address then parts else [] := by
    unfold creditedRows
    split
    · rename_i hsame
      exact List.filter_eq_self.mpr fun part hpart =>
        decide_eq_true ⟨(h.address part hpart).trans hsame, hpositive part hpart⟩
    · rename_i hother
      rw [List.filter_eq_nil_iff]
      intro part hpart hcounts
      exact hother ((h.address part hpart).symm.trans (of_decide_eq_true hcounts).1)
  have hsingle : creditedRows [row] address = if row.address = address then
      (if 0 < row.creditedDifficulty then [row] else []) else [] := by
    unfold creditedRows
    by_cases hsame : row.address = address
    · by_cases hcredit : 0 < row.creditedDifficulty <;> simp [hsame, hcredit]
    · simp [hsame]
  have hempty : ¬ 0 < row.creditedDifficulty → parts = [] := by
    intro hnone
    by_contra hne
    have hpos := sum_pos_of_ne_nil parts (·.creditedDifficulty) hne hpositive
    rw [h.credited] at hpos
    exact hnone hpos
  simp only [List.map_append, List.sum_append, hparts, hsingle]
  split
  · by_cases hcredit : 0 < row.creditedDifficulty
    · simp [hcredit, h.credited, h.shares]
    · simp [hcredit, hempty hcredit]
  · simp

/-! ### The distribution -/

/-- The distribution does not depend on the order of the rows, nor on how the work of an address
is split into rows. -/
def IndependentOfRows (env : PayoutEnv) (input : PayoutDistributionInput) : Prop :=
  (∀ addressWork' balances', input.addressWork.Perm addressWork' →
    input.balances.Perm balances' →
    buildPayoutDistribution env { input with addressWork := addressWork', balances := balances' }
      = buildPayoutDistribution env input) ∧
  ∀ before row parts after, input.addressWork = before ++ row :: after → SplitsInto row parts →
    buildPayoutDistribution env { input with addressWork := before ++ parts ++ after }
      = buildPayoutDistribution env input

/-- Balances of distinct addresses and a collation that orders the addresses given, the
distribution is the same for every order of the rows, and for every way to split a row into rows
with some difficulty. -/
theorem distribution_order_independent (env : PayoutEnv) (input : PayoutDistributionInput)
    (horder : LocaleOrder env input.considered)
    (hdistinct : (input.balances.map (·.address)).Nodup) :
    (∀ addressWork' balances', input.addressWork.Perm addressWork' →
      input.balances.Perm balances' →
      buildPayoutDistribution env { input with addressWork := addressWork', balances := balances' }
        = buildPayoutDistribution env input) ∧
    ∀ before row parts after, input.addressWork = before ++ row :: after → SplitsInto row parts →
      (∀ part ∈ parts, 0 < part.creditedDifficulty) →
      buildPayoutDistribution env { input with addressWork := before ++ parts ++ after }
        = buildPayoutDistribution env input := by
  constructor
  · intro addressWork' balances' hwork hbalances
    have hsame : SameInputs input
        { input with addressWork := addressWork', balances := balances' } :=
      ⟨(sameTotals_of_perm hwork).workByAddress,
        sameMap_foldl_addBalance hbalances hdistinct fun _ => rfl, rfl⟩
    exact (hsame.buildPayoutDistribution horder).symm
  · intro before row parts after hrow hsplit hpositive
    have htotals := hsplit.sameTotals hpositive before after
    rw [← hrow] at htotals
    have hsame : SameInputs input { input with addressWork := before ++ parts ++ after } :=
      ⟨htotals.workByAddress, fun _ => rfl, rfl⟩
    exact (hsame.buildPayoutDistribution horder).symm

/-- The order in which `sampleEnv` puts some addresses. -/
theorem localeOrder_sample : LocaleOrder sampleEnv ["A", "B", "C"] :=
  ⟨by decide +kernel, by decide +kernel, by decide +kernel⟩

/-- Three miners in another order, and one of them in two rows. -/
theorem distribution_order_independent_sample :
    buildPayoutDistribution sampleEnv
        { sampleInput with addressWork := [⟨"C", 8, 1⟩, ⟨"A", 10, 1⟩, ⟨"B", 9, 1⟩], balances := [] }
      = buildPayoutDistribution sampleEnv sampleInput ∧
    buildPayoutDistribution sampleEnv
        { sampleInput with addressWork :=
            [⟨"A", 10, 1⟩] ++ [⟨"B", 4, 1⟩, ⟨"B", 5, 0⟩] ++ [⟨"C", 8, 1⟩] }
      = buildPayoutDistribution sampleEnv sampleInput := by
  have hconsidered : sampleInput.considered = ["A", "B", "C"] := by decide +kernel
  obtain ⟨hperm, hsplit⟩ := distribution_order_independent sampleEnv sampleInput
    (hconsidered ▸ localeOrder_sample) (by decide)
  refine ⟨hperm _ _ ?_ (List.Perm.refl _), hsplit [⟨"A", 10, 1⟩] ⟨"B", 9, 1⟩ _ [⟨"C", 8, 1⟩] rfl
    ⟨by decide, by decide +kernel, by decide⟩ (by decide +kernel)⟩
  exact @List.perm_append_comm _ (sampleInput.addressWork.take 2) (sampleInput.addressWork.drop 2)

/-- A miner with two shares. -/
def oneMinerInput : PayoutDistributionInput :=
  { sampleInput with addressWork := [⟨"A", 10, 2⟩] }

/-- A row without difficulty is skipped, and the shares it counted are lost. -/
theorem not_distribution_order_independent :
    LocaleOrder sampleEnv oneMinerInput.considered ∧
      (oneMinerInput.balances.map (·.address)).Nodup ∧
      ¬ IndependentOfRows sampleEnv oneMinerInput := by
  have hconsidered : oneMinerInput.considered = ["A"] := by decide +kernel
  refine ⟨?_, by decide, fun hindependent => ?_⟩
  · rw [hconsidered]
    exact ⟨by decide +kernel, by decide +kernel, by decide +kernel⟩
  · have hsame := hindependent.2 [] ⟨"A", 10, 2⟩ [⟨"A", 10, 1⟩, ⟨"A", 0, 1⟩] [] rfl
      ⟨by decide, by decide +kernel, by decide⟩
    exact absurd hsame (by decide +kernel)

end PublicPool.Proofs
