import PublicPool.Payout.Distribution
import PublicPool.Lib.Apportion

/-!
# `PublicPool.Proofs.Distribution`: the distribution spends the reward exactly

`sum_allocateIntegerSats` is the law of the largest-remainder split: over targets with
distinct items and positive weights it hands out exactly the amount. The order in which
the leftover sats are handed out does not enter.

`Fitted` is what holds of the rows between the stages: each row sits under its own
address, its balance after is its target less its payout, no payout is negative, and the
payouts add up to at most the reward. `fitted_allocatePayoutTargets` establishes it. The
selection of outputs adds `Selected`: the included rows are paid something, the others
nothing. `redistributeUnfitMinerPayouts` keeps both and, if any row with work was kept,
makes the payouts add up to the reward (`sum_redistribute`).
-/

set_option autoImplicit false

namespace PublicPool.Proofs

open Lib

/-! ### Largest remainder -/

section
variable (fractions : List AllocationFraction) (residual : ℤ) (result : OrdMap String ℤ)

/-- Handing out sats leaves the keys alone. -/
theorem keys_handOutResidual (hmem : ∀ f ∈ fractions, f.item ∈ result.keys) :
    (handOutResidual fractions residual result).keys = result.keys := by
  induction fractions generalizing residual result with
  | nil => rfl
  | cons target fractions ih =>
    unfold handOutResidual
    split
    · rfl
    · have hkeys : (result.set target.item ((result.get? target.item).getD 0 + 1)).keys
          = result.keys := by
        rw [OrdMap.set_of_mem (hmem target List.mem_cons_self), OrdMap.keys_modify]
      rw [ih _ _ fun f hf => hkeys ▸ hmem f (List.mem_cons_of_mem _ hf), hkeys]

/-- Handing out `residual` sats, with a target for each of them, adds `residual` to the
total. -/
theorem sum_handOutResidual (hmem : ∀ f ∈ fractions, f.item ∈ result.keys) (hres : 0 ≤ residual)
    (hlen : residual ≤ fractions.length) :
    (handOutResidual fractions residual result).values.sum = result.values.sum + residual := by
  induction fractions generalizing residual result with
  | nil =>
    have hzero : residual = 0 := by simp at hlen; omega
    simp [handOutResidual, hzero]
  | cons target fractions ih =>
    unfold handOutResidual
    split
    · have hzero : residual = 0 := by omega
      simp [hzero]
    · rename_i hpos
      have hkey : target.item ∈ result.keys := hmem target List.mem_cons_self
      obtain ⟨v, hv⟩ := Option.isSome_iff_exists.mp (OrdMap.get?_isSome_iff.mpr hkey)
      have hset := OrdMap.set_of_mem hkey ((result.get? target.item).getD 0 + 1)
      have hsum := OrdMap.sum_modify (OrdMap.get?_eq_some_iff.mp hv)
        (fun _ => (result.get? target.item).getD 0 + 1) (id : ℤ → ℤ)
      simp only [hv, Option.getD_some, List.map_id, id] at hsum
      rw [hset]
      have hs := ih (residual - 1)
        (result.modify target.item fun _ => (result.get? target.item).getD 0 + 1)
        (fun f hf => by
          rw [OrdMap.keys_modify]
          exact hmem f (List.mem_cons_of_mem _ hf))
        (by omega) (by simp only [List.length_cons] at hlen; omega)
      rw [hs, hv, Option.getD_some, hsum]
      omega

/-- Handing out sats makes no share smaller than it was or than zero. -/
theorem nonneg_handOutResidual (h : ∀ e ∈ result.entries, 0 ≤ e.2) :
    ∀ e ∈ (handOutResidual fractions residual result).entries, 0 ≤ e.2 := by
  induction fractions generalizing residual result with
  | nil => exact h
  | cons target fractions ih =>
    unfold handOutResidual
    split
    · exact h
    · refine ih _ _ (OrdMap.forall_entries_set h ?_)
      cases hget : result.get? target.item with
      | none => simp
      | some v =>
        have hv := h _ (OrdMap.get?_eq_some_iff.mp hget)
        simp only [Option.getD_some]
        omega

end

variable (env : PayoutEnv)

section
variable (targets : List AllocationTarget) (amountSats : ℤ) (totalWeight : ℚ)

/-- No target is allocated a negative amount. -/
theorem nonneg_allocateIntegerSats (item : String) :
    0 ≤ ((allocateIntegerSats env targets amountSats totalWeight).get? item).getD 0 := by
  have hentries : ∀ e ∈ (allocateIntegerSats env targets amountSats totalWeight).entries,
      0 ≤ e.2 := by
    unfold allocateIntegerSats
    split
    · simp
    · rename_i hpos
      obtain ⟨hamount, htotal⟩ := not_or.mp hpos
      refine nonneg_handOutResidual _ _ _ ?_
      -- every whole part is the floor of a non-negative share
      refine OrdMap.forall_entries_setAll (by simp) ?_
      intro e he
      obtain ⟨t, ht, rfl⟩ := List.mem_map.mp he
      have hw : 0 < t.weight := by simpa using (List.mem_filter.mp ht).2
      have ha : (0 : ℚ) < amountSats := by exact_mod_cast not_le.mp hamount
      exact Int.floor_nonneg.mpr
        (div_nonneg (mul_nonneg hw.le ha.le) (not_le.mp htotal).le)
  cases hget : (allocateIntegerSats env targets amountSats totalWeight).get? item with
  | none => simp
  | some v => exact hentries _ (OrdMap.get?_eq_some_iff.mp hget)

/-- Over the targets of a split, the shares that are looked up are the shares there are. -/
theorem sum_lookup_eq_sum_values {m : OrdMap String ℤ} (h : m.keys = targets.map (·.item)) :
    (targets.map fun t => (m.get? t.item).getD 0).sum = m.values.sum := by
  have hkeys : (targets.map fun t => (m.get? t.item).getD 0)
      = m.keys.map fun k => (m.get? k).getD 0 := by
    rw [h, List.map_map]
    rfl
  rw [hkeys, OrdMap.keys, List.map_map]
  refine congrArg List.sum (List.map_congr_left fun e he => ?_)
  simp [OrdMap.get?_eq_some_iff.mpr he]

/-- Largest remainder is exact: over targets with distinct items and positive weights it
hands out the amount. -/
theorem sum_allocateIntegerSats (hitems : (targets.map (·.item)).Nodup)
    (hpos : ∀ t ∈ targets, 0 < t.weight) (hne : targets ≠ []) (hamount : 0 < amountSats)
    (htotal : (targets.map (·.weight)).sum = totalWeight) :
    (targets.map fun t =>
      ((allocateIntegerSats env targets amountSats totalWeight).get? t.item).getD 0).sum
        = amountSats := by
  have hweight : 0 < totalWeight := htotal ▸ sum_pos_of_ne_nil targets _ hne hpos
  have hfilter : (targets.filter fun t => decide (0 < t.weight)) = targets :=
    List.filter_eq_self.mpr fun t ht => by simpa using hpos t ht
  -- the exact shares add up to the amount, so the floors fall short by few sats
  have hshares : (targets.map fun t => t.weight * amountSats / totalWeight).sum
      = ((amountSats : ℤ) : ℚ) :=
    sum_proportional targets _ _ _ htotal hweight.ne'
  have hle := sum_floor_le _ _ hshares
  have hlen := sub_sum_floor_le_length _ _ hshares
  rw [List.map_map] at hle hlen
  rw [List.length_map] at hlen
  have hentries : ((OrdMap.empty : OrdMap String ℤ).setAll
      (targets.map fun t => (t.item, ⌊t.weight * amountSats / totalWeight⌋))).entries
      = [] ++ targets.map fun t => (t.item, ⌊t.weight * amountSats / totalWeight⌋) :=
    OrdMap.entries_setAll (by simpa [OrdMap.keys, Function.comp_def] using hitems)
  unfold allocateIntegerSats
  rw [if_neg (by simp [hamount, hweight]), hfilter]
  have hitem : ∀ f ∈ Js.sort
      (fun a b => Js.orElse (b.fraction - a.fraction)
        (Js.orElse (b.weight - a.weight) (env.localeCompare a.item b.item)))
      (targets.map fun t =>
        { item := t.item, weight := t.weight
          fraction := t.weight * amountSats / totalWeight
            - ⌊t.weight * amountSats / totalWeight⌋ : AllocationFraction }),
      f.item ∈ ((OrdMap.empty : OrdMap String ℤ).setAll
        (targets.map fun t => (t.item, ⌊t.weight * amountSats / totalWeight⌋))).keys := by
    intro f hf
    obtain ⟨t, ht, rfl⟩ := List.mem_map.mp (Js.mem_sort.mp hf)
    rw [OrdMap.keys, hentries]
    simpa using ⟨t, ht, rfl⟩
  rw [sum_lookup_eq_sum_values targets]
  · rw [sum_handOutResidual _ _ _ hitem (by simpa [Function.comp_def] using hle)
      (by simpa [Function.comp_def] using hlen), OrdMap.values, hentries]
    simp [Function.comp_def]
  · rw [keys_handOutResidual _ _ _ hitem, OrdMap.keys, hentries]
    simp [Function.comp_def]

/-- Largest remainder never hands out more than a non-negative amount. -/
theorem sum_allocateIntegerSats_le (hitems : (targets.map (·.item)).Nodup)
    (hpos : ∀ t ∈ targets, 0 < t.weight) (hamount : 0 ≤ amountSats)
    (htotal : (targets.map (·.weight)).sum = totalWeight) :
    (targets.map fun t =>
      ((allocateIntegerSats env targets amountSats totalWeight).get? t.item).getD 0).sum
        ≤ amountSats := by
  rcases eq_or_ne targets [] with rfl | hne
  · simpa using hamount
  rcases hamount.eq_or_lt with rfl | hlt
  · simp [allocateIntegerSats, OrdMap.get?]
  · exact (sum_allocateIntegerSats env targets amountSats totalWeight hitems hpos hne hlt
      htotal).le

end

/-! ### The rows between the stages -/

/-- What holds of one row throughout: what is not paid now is carried over, and nobody is
paid a negative amount. -/
structure RowFitted (row : ComputedAddress) : Prop where
  after : row.balanceAfterSats = row.targetSats - row.payoutSats
  target : row.targetSats = row.rawFairSats + row.balanceBeforeSats
  nonneg : 0 ≤ row.payoutSats

/-- What holds of the rows between the stages: each sits under its own address and is
fitted, and the payouts add up to at most the reward. -/
structure Fitted (reward : ℤ) (m : Computations) : Prop where
  keyed : ∀ e ∈ m.entries, e.2.address = e.1
  rows : ∀ row ∈ m.values, RowFitted row
  total : (m.values.map (·.payoutSats)).sum ≤ reward

/-- An update of the rows that keeps their addresses keeps each row under its own. -/
theorem keyed_mapValues {m : Computations} (h : ∀ e ∈ m.entries, e.2.address = e.1)
    (f : String → ComputedAddress → ComputedAddress)
    (hf : ∀ a row, (f a row).address = row.address) :
    ∀ e ∈ (m.mapValues f).entries, e.2.address = e.1 := by
  intro e he
  obtain ⟨e', he', rfl⟩ := List.mem_map.mp he
  exact (hf e'.1 e'.2).trans (h e' he')

/-- Every row of an updated map is the update of a row. -/
theorem forall_mapValues {m : Computations} {P Q : ComputedAddress → Prop}
    (h : ∀ row ∈ m.values, P row) (f : String → ComputedAddress → ComputedAddress)
    (hf : ∀ a row, P row → Q (f a row)) : ∀ row ∈ (m.mapValues f).values, Q row := by
  intro row hrow
  obtain ⟨a, ha⟩ := OrdMap.mem_values.mp hrow
  obtain ⟨e, he, heq⟩ := List.mem_map.mp ha
  obtain ⟨-, rfl⟩ := Prod.mk.inj heq
  exact hf _ _ (h _ (OrdMap.mem_values.mpr ⟨e.1, he⟩))

/-- The payouts after an update that adds `d` to the payout of each row. -/
theorem sum_payouts_mapValues (m : Computations)
    (f : String → ComputedAddress → ComputedAddress) (d : ComputedAddress → ℤ)
    (h : ∀ a, ∀ row ∈ m.values, (f a row).payoutSats = row.payoutSats + d row) :
    ((m.mapValues f).values.map (·.payoutSats)).sum
      = (m.values.map (·.payoutSats)).sum + (m.values.map d).sum := by
  rw [OrdMap.sum_mapValues_add m f (·.payoutSats) (fun _ row => d row)]
  · simp only [OrdMap.values, List.map_map]
    rfl
  · intro e he
    exact h e.1 e.2 (OrdMap.mem_values.mpr ⟨e.1, he⟩)

/-- Rows under their own addresses have distinct addresses. -/
theorem nodup_addresses {m : Computations} (h : ∀ e ∈ m.entries, e.2.address = e.1) :
    (m.values.map (·.address)).Nodup := by
  have heq : m.values.map (·.address) = m.keys := by
    rw [OrdMap.values, List.map_map]
    exact List.map_congr_left fun e he => h e he
  rw [heq]
  exact m.nodup

section Allocated

variable {m : Computations} (hkeyed : ∀ e ∈ m.entries, e.2.address = e.1)
  (p : ComputedAddress → Prop) [DecidablePred p] (weight : ComputedAddress → ℚ)
  (hweight : ∀ row ∈ m.values, p row → 0 < weight row) (amount : ℤ)

/-- The rows with a property. -/
def rowsWith (m : Computations) (p : ComputedAddress → Prop) [DecidablePred p] :
    List ComputedAddress :=
  m.values.filter fun row => p row

/-- What a split over the rows with a property gives one row. -/
def allocated (m : Computations) (p : ComputedAddress → Prop) [DecidablePred p]
    (weight : ComputedAddress → ℚ) (amount : ℤ) (row : ComputedAddress) : ℤ :=
  ((allocateIntegerSats env (targetsOf (rowsWith m p) weight) amount
    ((rowsWith m p).map weight).sum).get? row.address).getD 0

/-- The shares of a split, summed over the rows it was made for. -/
theorem sum_allocated_eq :
    (m.values.map fun row => if p row then allocated env m p weight amount row else 0).sum
      = ((targetsOf (rowsWith m p) weight).map fun t =>
          ((allocateIntegerSats env (targetsOf (rowsWith m p) weight) amount
            ((rowsWith m p).map weight).sum).get? t.item).getD 0).sum := by
  rw [← sum_filter_eq_sum_ite, targetsOf, List.map_map]
  rfl

include hkeyed in
theorem nodup_items_targetsOf : ((targetsOf (rowsWith m p) weight).map (·.item)).Nodup := by
  rw [targetsOf, List.map_map]
  exact (nodup_addresses hkeyed).sublist (List.filter_sublist.map _)

include hweight in
theorem pos_weight_targetsOf : ∀ t ∈ targetsOf (rowsWith m p) weight, 0 < t.weight := by
  intro t ht
  obtain ⟨row, hrow, rfl⟩ := List.mem_map.mp ht
  obtain ⟨hmem, hp⟩ := List.mem_filter.mp hrow
  exact hweight row hmem (of_decide_eq_true hp)

include hkeyed hweight in
/-- A split over some rows hands out at most the amount. -/
theorem sum_allocated_le (hamount : 0 ≤ amount) :
    (m.values.map fun row => if p row then allocated env m p weight amount row else 0).sum
      ≤ amount := by
  rw [sum_allocated_eq]
  refine sum_allocateIntegerSats_le env _ amount _ (nodup_items_targetsOf hkeyed p weight)
    (pos_weight_targetsOf p weight hweight) hamount ?_
  rw [targetsOf, List.map_map]
  rfl

include hkeyed hweight in
/-- A split over some rows, at least one of them, hands out the amount. -/
theorem sum_allocated (hamount : 0 < amount) (hne : ∃ row ∈ m.values, p row) :
    (m.values.map fun row => if p row then allocated env m p weight amount row else 0).sum
      = amount := by
  rw [sum_allocated_eq]
  refine sum_allocateIntegerSats env _ amount _ (nodup_items_targetsOf hkeyed p weight)
    (pos_weight_targetsOf p weight hweight) ?_ hamount ?_
  · obtain ⟨row, hrow, hp⟩ := hne
    intro hnil
    rw [targetsOf, List.map_eq_nil_iff, rowsWith, List.filter_eq_nil_iff] at hnil
    exact hnil row hrow (decide_eq_true hp)
  · rw [targetsOf, List.map_map]
    rfl

/-- A row that is paid `sats` more, out of what it would carry over. -/
def addPayout (row : ComputedAddress) (sats : ℤ) : ComputedAddress :=
  { row with
    payoutSats := row.payoutSats + sats
    balanceAfterSats := row.balanceAfterSats - sats }

/-- Pay the rows with a property their parts of a split of `amount`. -/
def addSplit (m : Computations) (p : ComputedAddress → Prop) [DecidablePred p]
    (weight : ComputedAddress → ℚ) (amount : ℤ) : Computations :=
  m.mapValues fun _ row =>
    if p row then addPayout row (allocated env m p weight amount row) else row

theorem sum_addSplit :
    ((addSplit env m p weight amount).values.map (·.payoutSats)).sum
      = (m.values.map (·.payoutSats)).sum
        + (m.values.map fun row =>
            if p row then allocated env m p weight amount row else 0).sum := by
  refine sum_payouts_mapValues m _ _ fun a row _ => ?_
  by_cases hp : p row <;> simp [hp, addPayout]

include hkeyed in
/-- A split keeps each row under its own address. -/
theorem keyed_addSplit : ∀ e ∈ (addSplit env m p weight amount).entries, e.2.address = e.1 := by
  refine keyed_mapValues hkeyed _ fun a row => ?_
  split <;> rfl

/-- A split keeps each row fitted, whatever the amount. -/
theorem rowFitted_addSplit (hrows : ∀ row ∈ m.values, RowFitted row) :
    ∀ row ∈ (addSplit env m p weight amount).values, RowFitted row := by
  refine forall_mapValues hrows _ fun a row hrow => ?_
  split
  · have hsats : 0 ≤ allocated env m p weight amount row :=
      nonneg_allocateIntegerSats env _ _ _ _
    obtain ⟨hafter, htarget, hnonneg⟩ := hrow
    refine ⟨?_, htarget, ?_⟩ <;> simp only [addPayout] <;> omega
  · exact hrow

include hkeyed hweight in
/-- A split that fits what the payouts leave of the reward keeps the rows fitted. -/
theorem fitted_addSplit (hrows : ∀ row ∈ m.values, RowFitted row) (hamount : 0 ≤ amount)
    {reward : ℤ} (hleft : (m.values.map (·.payoutSats)).sum + amount ≤ reward) :
    Fitted reward (addSplit env m p weight amount) := by
  refine ⟨keyed_addSplit env hkeyed p weight amount,
    rowFitted_addSplit env p weight amount hrows, ?_⟩
  have hle := sum_allocated_le env hkeyed p weight hweight amount hamount
  rw [sum_addSplit]
  omega

end Allocated

/-! ### From targets to payouts -/

/-- Rows that are paid nothing and carry their whole target over. -/
structure Unpaid (m : Computations) : Prop where
  keyed : ∀ e ∈ m.entries, e.2.address = e.1
  rows : ∀ row ∈ m.values, RowFitted row
  zero : ∀ row ∈ m.values, row.payoutSats = 0

variable {m start : Computations} {totalCreditedDifficulty : ℚ} {reward : ℤ}

theorem Unpaid.sum_eq_zero (h : Unpaid m) : (m.values.map (·.payoutSats)).sum = 0 :=
  List.sum_eq_zero fun x hx => by
    obtain ⟨row, hrow, rfl⟩ := List.mem_map.mp hx
    exact h.zero row hrow

/-- Paying unpaid rows their parts of a split is adding to nothing. -/
theorem Unpaid.addSplit_eq (h : Unpaid m) (p : ComputedAddress → Prop) [DecidablePred p]
    (weight : ComputedAddress → ℚ) (amount : ℤ) :
    addSplit env m p weight amount
      = m.mapValues fun _ row =>
        if p row then
          { row with
            payoutSats := allocated env m p weight amount row
            balanceAfterSats := row.targetSats - allocated env m p weight amount row }
        else row := by
  refine OrdMap.mapValues_congr fun e he => ?_
  have hmem : e.2 ∈ m.values := OrdMap.mem_values.mpr ⟨e.1, he⟩
  have hzero := h.zero _ hmem
  have hafter := (h.rows _ hmem).after
  simp only [addPayout, hafter, hzero, zero_add, sub_zero]

/-- The rows once every positive target is paid in full. -/
def paidInFull (m : Computations) : Computations :=
  m.mapValues fun _ row =>
    if 0 < row.targetSats then { row with payoutSats := row.targetSats, balanceAfterSats := 0 }
    else row

/-- Paying every positive target in full pays their total. -/
theorem sum_paidInFull (h : Unpaid m) :
    ((paidInFull m).values.map (·.payoutSats)).sum
      = ((rowsWith m (0 < ·.targetSats)).map (·.targetSats)).sum := by
  rw [paidInFull, sum_payouts_mapValues m _ fun row =>
    if 0 < row.targetSats then row.targetSats else 0, h.sum_eq_zero, zero_add, rowsWith,
    sum_filter_eq_sum_ite]
  intro a row hrow
  by_cases hp : 0 < row.targetSats <;> simp [hp, h.zero row hrow]

/-- Paying every positive target in full keeps the rows fitted. -/
theorem fitted_paidInFull (h : Unpaid m) :
    Fitted ((rowsWith m (0 < ·.targetSats)).map (·.targetSats)).sum (paidInFull m) := by
  refine ⟨keyed_mapValues h.keyed _ fun a row => ?_,
    forall_mapValues h.rows _ fun a row hrow => ?_, (sum_paidInFull h).le⟩
  · split <;> rfl
  · split
    · rename_i hpos
      exact ⟨by simp, hrow.target, hpos.le⟩
    · exact hrow

/-- A split looks at the addresses, weights and selection of the rows and at nothing else. -/
theorem allocated_mapValues (m : Computations) (f : ComputedAddress → ComputedAddress)
    (p : ComputedAddress → Prop) [DecidablePred p] (weight : ComputedAddress → ℚ) (amount : ℤ)
    (haddress : ∀ row, (f row).address = row.address) (hp : ∀ row, p (f row) ↔ p row)
    (hweight : ∀ row, weight (f row) = weight row) :
    allocated env (m.mapValues fun _ row => f row) p weight amount
      = allocated env m p weight amount := by
  have hrows : rowsWith (m.mapValues fun _ row => f row) p = (rowsWith m p).map f := by
    rw [rowsWith, OrdMap.values_mapValues, List.filter_map]
    simp only [Function.comp_def, hp]
    rfl
  funext row
  rw [allocated, allocated, hrows, targetsOf, targetsOf, List.map_map, List.map_map]
  simp only [Function.comp_def, haddress, hweight]

/-- The first stage, case by case, as payments in full and splits. -/
theorem allocatePayoutTargets_eq (h : Unpaid m) (reward : ℤ)
    (htotal : ((rowsWith m (0 < ·.creditedDifficulty)).map (·.creditedDifficulty)).sum
      = totalCreditedDifficulty) :
    allocatePayoutTargets env m reward totalCreditedDifficulty
      = if ((rowsWith m (0 < ·.targetSats)).map (·.targetSats)).sum ≤ 0 then
          addSplit env m (0 < ·.creditedDifficulty) (·.creditedDifficulty) reward
        else if ((rowsWith m (0 < ·.targetSats)).map (·.targetSats)).sum ≤ reward then
          if reward - ((rowsWith m (0 < ·.targetSats)).map (·.targetSats)).sum ≤ 0 then
            paidInFull m
          else
            addSplit env (paidInFull m) (fun row => 0 < row.targetSats ∧ 0 < row.creditedDifficulty)
              (·.creditedDifficulty)
              (reward - ((rowsWith m (0 < ·.targetSats)).map (·.targetSats)).sum)
        else
          addSplit env m (0 < ·.targetSats) (fun row => row.targetSats) reward := by
  have hsurplus : ∀ amount, allocated env (paidInFull m)
      (fun row => 0 < row.targetSats ∧ 0 < row.creditedDifficulty) (·.creditedDifficulty) amount
        = allocated env m (fun row => 0 < row.targetSats ∧ 0 < row.creditedDifficulty)
            (·.creditedDifficulty) amount := fun amount =>
    allocated_mapValues env m _ _ _ _ (fun row => by split <;> rfl)
      (fun row => by split <;> rfl) (fun row => by split <;> rfl)
  rw [h.addSplit_eq, h.addSplit_eq, addSplit, hsurplus]
  have hcast : ((rowsWith m (0 < ·.targetSats)).map fun row => (row.targetSats : ℚ)).sum
      = (((rowsWith m (0 < ·.targetSats)).map (·.targetSats)).sum : ℤ) := by
    induction rowsWith m (0 < ·.targetSats) with
    | nil => simp
    | cons row rows ih => simp [ih]
  simp only [allocatePayoutTargets, allocated, htotal, hcast]
  simp only [rowsWith, List.filter_filter, ← Bool.decide_and, and_comm]
  rfl

/-- The first stage keeps the rows fitted, each under its own address, whatever the reward. -/
theorem rows_allocatePayoutTargets (h : Unpaid m) (reward : ℤ)
    (htotal : ((rowsWith m (0 < ·.creditedDifficulty)).map (·.creditedDifficulty)).sum
      = totalCreditedDifficulty) :
    (∀ e ∈ (allocatePayoutTargets env m reward totalCreditedDifficulty).entries,
        e.2.address = e.1) ∧
      ∀ row ∈ (allocatePayoutTargets env m reward totalCreditedDifficulty).values,
        RowFitted row := by
  have hpaid := fitted_paidInFull h
  rw [allocatePayoutTargets_eq env h reward htotal]
  split
  · exact ⟨keyed_addSplit env h.keyed _ _ _, rowFitted_addSplit env _ _ _ h.rows⟩
  · split
    · split
      · exact ⟨hpaid.keyed, hpaid.rows⟩
      · exact ⟨keyed_addSplit env hpaid.keyed _ _ _, rowFitted_addSplit env _ _ _ hpaid.rows⟩
    · exact ⟨keyed_addSplit env h.keyed _ _ _, rowFitted_addSplit env _ _ _ h.rows⟩

/-- The first stage fits the payouts to the reward. -/
theorem fitted_allocatePayoutTargets (h : Unpaid m) (hreward : 0 ≤ reward)
    (htotal : ((rowsWith m (0 < ·.creditedDifficulty)).map (·.creditedDifficulty)).sum
      = totalCreditedDifficulty) :
    Fitted reward (allocatePayoutTargets env m reward totalCreditedDifficulty) := by
  have hsum := h.sum_eq_zero
  have hpaid := fitted_paidInFull h
  rw [allocatePayoutTargets_eq env h reward htotal]
  split
  · exact fitted_addSplit env h.keyed _ _ (fun _ _ hrow => hrow) reward h.rows hreward
      (by omega)
  · split
    · rename_i hcover
      split
      · exact ⟨hpaid.keyed, hpaid.rows, hpaid.total.trans hcover⟩
      · refine fitted_addSplit env hpaid.keyed _ _ (fun _ _ hrow => hrow.2) _ hpaid.rows
          (by omega) ?_
        have htotal := hpaid.total
        omega
    · refine fitted_addSplit env h.keyed _ _ (fun _ _ hrow => ?_) reward h.rows hreward (by omega)
      exact_mod_cast hrow

/-- The first stage includes no row yet. -/
theorem not_included_allocatePayoutTargets (h : ∀ row ∈ m.values, row.includedInCoinbase = false)
    (reward : ℤ) (totalCreditedDifficulty : ℚ) :
    ∀ row ∈ (allocatePayoutTargets env m reward totalCreditedDifficulty).values,
      row.includedInCoinbase = false := by
  simp only [allocatePayoutTargets]
  split
  · exact forall_mapValues h _ fun a row hrow => by split <;> exact hrow
  · have hpaid : ∀ row ∈ (paidInFull m).values, row.includedInCoinbase = false :=
      forall_mapValues h _ fun a row hrow => by split <;> exact hrow
    split
    · split
      · exact hpaid
      · exact forall_mapValues hpaid _ fun a row hrow => by split <;> exact hrow
    · exact forall_mapValues h _ fun a row hrow => by split <;> exact hrow

/-! ### Choosing the outputs -/

/-- What holds of the rows while outputs are chosen from the rows of `start`: each row is
one of `start` with its inclusion and its balance set, an included one is paid something,
and its balance is what is not paid. -/
structure Choosing (start m : Computations) : Prop where
  payouts : m.entries.map (fun e => (e.1, e.2.payoutSats))
    = start.entries.map fun e => (e.1, e.2.payoutSats)
  keyed : ∀ e ∈ m.entries, e.2.address = e.1
  target : ∀ row ∈ m.values, row.targetSats = row.rawFairSats + row.balanceBeforeSats
  after : ∀ row ∈ m.values, (row.includedInCoinbase = true ∨ row.payoutSats = 0) →
    row.balanceAfterSats = row.targetSats - row.payoutSats
  paid : ∀ row ∈ m.values, row.includedInCoinbase = true → 0 < row.payoutSats

/-- Setting the inclusion and balance of one row of `start` that is paid something. -/
theorem Choosing.modify (h : Choosing start m) {row : ComputedAddress}
    (hrow : (row.address, row) ∈ start.entries) (hpaid : 0 < row.payoutSats)
    (f : ComputedAddress → ComputedAddress) (haddress : ∀ r, (f r).address = r.address)
    (hpayout : ∀ r, (f r).payoutSats = r.payoutSats)
    (htarget : ∀ r, (f r).targetSats = r.targetSats ∧ (f r).rawFairSats = r.rawFairSats ∧
      (f r).balanceBeforeSats = r.balanceBeforeSats)
    (hafter : ∀ r, (row.address, r) ∈ m.entries → (f r).includedInCoinbase = true →
      (f r).balanceAfterSats = r.targetSats - r.payoutSats) :
    Choosing start (m.modify row.address f) := by
  -- the row that is modified is paid what `row` is paid
  have hsame : ∀ r, (row.address, r) ∈ m.entries → 0 < r.payoutSats := by
    intro r hr
    have hmem : (row.address, r.payoutSats)
        ∈ m.entries.map fun e => (e.1, e.2.payoutSats) :=
      List.mem_map.mpr ⟨_, hr, rfl⟩
    rw [h.payouts] at hmem
    obtain ⟨e, he, heq⟩ := List.mem_map.mp hmem
    obtain ⟨hk, hp⟩ := Prod.mk.inj heq
    have : e.2 = row := OrdMap.entries_unique (hk ▸ he) hrow
    rw [← hp, this]
    exact hpaid
  have hcases : ∀ r ∈ (m.modify row.address f).values,
      r ∈ m.values ∨ ∃ r₀ ∈ m.values, (row.address, r₀) ∈ m.entries ∧ r = f r₀ := by
    intro r hr
    obtain ⟨a, ha⟩ := OrdMap.mem_values.mp hr
    obtain ⟨w, hw, hrw⟩ := OrdMap.mem_entries_modify.mp ha
    split at hrw
    · rename_i hak
      exact Or.inr ⟨w, OrdMap.mem_values.mpr ⟨a, hw⟩, hak ▸ hw, hrw⟩
    · exact Or.inl (hrw ▸ OrdMap.mem_values.mpr ⟨a, hw⟩)
  refine ⟨?_, ?_, ?_, ?_, ?_⟩
  · rw [OrdMap.map_modify_eq m row.address f (fun e => (e.1, e.2.payoutSats))
      fun r => by rw [hpayout]]
    exact h.payouts
  · rintro ⟨a, r⟩ hr
    obtain ⟨w, hw, hrw⟩ := OrdMap.mem_entries_modify.mp hr
    rw [hrw]
    split
    · exact (haddress w).trans (h.keyed _ hw)
    · exact h.keyed _ hw
  · intro r hr
    rcases hcases r hr with hold | ⟨r₀, hr₀, -, rfl⟩
    · exact h.target r hold
    · obtain ⟨ht, hf, hb⟩ := htarget r₀
      rw [ht, hf, hb]
      exact h.target r₀ hr₀
  · intro r hr hinc
    rcases hcases r hr with hold | ⟨r₀, hr₀, hkey, rfl⟩
    · exact h.after r hold hinc
    · rw [(htarget r₀).1, hpayout]
      rcases hinc with hinc | hzero
      · exact hafter r₀ hkey hinc
      · have := hsame r₀ hkey
        rw [hpayout] at hzero
        omega
  · intro r hr hinc
    rcases hcases r hr with hold | ⟨r₀, hr₀, hkey, rfl⟩
    · exact h.paid r hold hinc
    · rw [hpayout]
      exact hsame r₀ hkey

/-- The loop over the eligible rows chooses among rows that are paid something. Each row is
tried once, so a row that does not fit was not included before. -/
theorem choosing_includeEligible (effectiveBudget : ℚ) (eligible : List ComputedAddress)
    (hnodup : (eligible.map (·.address)).Nodup)
    (heligible : ∀ row ∈ eligible, (row.address, row) ∈ start.entries ∧ 0 < row.payoutSats)
    (usedWeight : ℕ) (h : Choosing start m)
    (hfresh : ∀ row ∈ eligible, ∀ r, (row.address, r) ∈ m.entries →
      r.includedInCoinbase = false) :
    Choosing start (includeEligible env effectiveBudget eligible usedWeight m) := by
  induction eligible generalizing usedWeight m with
  | nil => exact h
  | cons row eligible ih =>
    obtain ⟨hrow, hpaid⟩ := heligible row List.mem_cons_self
    obtain ⟨hnotin, hnodup⟩ := List.nodup_cons.mp hnodup
    have hrest := fun row' h' => heligible row' (List.mem_cons_of_mem _ h')
    have hold := hfresh row List.mem_cons_self
    -- the rows still to be tried sit elsewhere
    have hfresh' : ∀ f : ComputedAddress → ComputedAddress, ∀ row' ∈ eligible, ∀ r,
        (row'.address, r) ∈ (m.modify row.address f).entries → r.includedInCoinbase = false := by
      intro f row' hrow' r hr
      obtain ⟨w, hw, rfl⟩ := OrdMap.mem_entries_modify.mp hr
      rw [if_neg fun heq => hnotin (List.mem_map.mpr ⟨row', hrow', heq⟩)]
      exact hfresh row' (List.mem_cons_of_mem _ hrow') w hw
    simp only [includeEligible]
    split
    · refine ih hnodup hrest _ (h.modify hrow hpaid _ (fun _ => rfl) (fun _ => rfl)
        (fun _ => ⟨rfl, rfl, rfl⟩) fun r hr hinc => ?_) (hfresh' _)
      exact absurd hinc (by simp [hold r hr])
    · exact ih hnodup hrest _ (h.modify hrow hpaid _ (fun _ => rfl) (fun _ => rfl)
        (fun _ => ⟨rfl, rfl, rfl⟩) fun _ _ _ => rfl) (hfresh' _)

/-- What holds of the rows once the outputs are chosen: the included rows are paid
something, the others nothing. -/
structure Selected (reward : ℤ) (m : Computations) : Prop extends Fitted reward m where
  paid : ∀ row ∈ m.values, row.includedInCoinbase = true → 0 < row.payoutSats
  unpaid : ∀ row ∈ m.values, row.includedInCoinbase = false → row.payoutSats = 0

/-- A sum does not grow when some of its non-negative terms are dropped. -/
theorem sum_ite_zero_le {α : Type*} (l : List α) (p : α → Prop) [DecidablePred p] (f : α → ℤ)
    (h : ∀ a ∈ l, 0 ≤ f a) : (l.map fun a => if p a then 0 else f a).sum ≤ (l.map f).sum := by
  refine List.sum_le_sum fun a ha => ?_
  split
  · exact h a ha
  · exact le_rfl

/-- Choosing changes no payout, so none becomes negative. -/
theorem Choosing.nonneg (h : Choosing start m) (hstart : ∀ row ∈ start.values, RowFitted row) :
    ∀ row ∈ m.values, 0 ≤ row.payoutSats := by
  intro row hrow
  obtain ⟨a, ha⟩ := OrdMap.mem_values.mp hrow
  have hmem : (a, row.payoutSats) ∈ m.entries.map fun e => (e.1, e.2.payoutSats) :=
    List.mem_map.mpr ⟨_, ha, rfl⟩
  rw [h.payouts] at hmem
  obtain ⟨e, he, heq⟩ := List.mem_map.mp hmem
  rw [← (Prod.mk.inj heq).2]
  exact (hstart _ (OrdMap.mem_values.mpr ⟨e.1, he⟩)).nonneg

/-- Resetting the rows that were not chosen leaves every row fitted. -/
theorem rowFitted_resetUnfit (hstart : ∀ row ∈ start.values, RowFitted row) (h : Choosing start m) :
    ∀ row ∈ (resetUnfit m).values, RowFitted row := by
  have hnonneg := h.nonneg hstart
  intro row hrow
  rw [resetUnfit, OrdMap.values_mapValues] at hrow
  obtain ⟨r, hr, rfl⟩ := List.mem_map.mp hrow
  split
  · exact ⟨by simp, h.target r hr, le_rfl⟩
  · rename_i hkeep
    refine ⟨h.after r hr ?_, h.target r hr, hnonneg r hr⟩
    have := hnonneg r hr
    cases hinc : r.includedInCoinbase
    · simp only [hinc, Bool.false_eq_true, not_false_eq_true, true_and] at hkeep
      exact Or.inr (by omega)
    · exact Or.inl rfl

/-- A row that is not chosen is paid nothing. -/
theorem unpaid_resetUnfit (hstart : ∀ row ∈ start.values, RowFitted row) (h : Choosing start m) :
    ∀ row ∈ (resetUnfit m).values, row.includedInCoinbase = false → row.payoutSats = 0 := by
  have hnonneg := h.nonneg hstart
  intro row hrow hinc
  rw [resetUnfit, OrdMap.values_mapValues] at hrow
  obtain ⟨r, hr, rfl⟩ := List.mem_map.mp hrow
  split
  · rfl
  · rename_i hkeep
    rw [if_neg hkeep] at hinc
    have := hnonneg r hr
    simp only [hinc, Bool.false_eq_true, not_false_eq_true, true_and] at hkeep
    omega

/-- Resetting the rows that were not chosen leaves a selection. -/
theorem selected_resetUnfit (hstart : Fitted reward start) (h : Choosing start m) :
    Selected reward (resetUnfit m) := by
  have hnonneg := h.nonneg hstart.rows
  have hsum : (m.values.map (·.payoutSats)).sum = (start.values.map (·.payoutSats)).sum := by
    have := congrArg (List.map Prod.snd) h.payouts
    rw [List.map_map, List.map_map] at this
    rw [OrdMap.values, OrdMap.values, List.map_map, List.map_map]
    exact congrArg List.sum this
  refine ⟨⟨keyed_mapValues h.keyed _ fun a row => by split <;> rfl,
    rowFitted_resetUnfit hstart.rows h, ?_⟩, ?_, unpaid_resetUnfit hstart.rows h⟩
  · have hle := sum_ite_zero_le m.values
      (fun row => ¬ row.includedInCoinbase ∧ 0 < row.payoutSats) (·.payoutSats) hnonneg
    rw [resetUnfit, OrdMap.values_mapValues, List.map_map]
    refine le_trans (le_of_eq (congrArg List.sum (List.map_congr_left fun row _ => ?_)))
      (hle.trans (hsum ▸ hstart.total))
    simp only [Function.comp_apply]
    split <;> rfl
  · intro row hrow hinc
    rw [resetUnfit, OrdMap.values_mapValues] at hrow
    obtain ⟨r, hr, rfl⟩ := List.mem_map.mp hrow
    split at hinc
    · rename_i hno
      exact absurd hinc hno.1
    · rename_i hkeep
      rw [if_neg hkeep]
      exact h.paid r hr hinc

/-! ### Redistribution -/

/-- The rows that were chosen and did work. -/
def isKept (row : ComputedAddress) : Prop :=
  row.includedInCoinbase = true ∧ 0 < row.creditedDifficulty

instance : DecidablePred isKept := fun _ => inferInstanceAs (Decidable (_ ∧ _))

/-- In a selection, the payouts are those of the included rows. -/
theorem Selected.sum_included (h : Selected reward m) :
    ((m.values.filter (·.includedInCoinbase)).map (·.payoutSats)).sum
      = (m.values.map (·.payoutSats)).sum := by
  have hite := sum_filter_eq_sum_ite m.values (·.includedInCoinbase = true) (·.payoutSats)
  simp only [Bool.decide_eq_true] at hite
  rw [hite]
  refine congrArg List.sum (List.map_congr_left fun row hrow => ?_)
  cases hinc : row.includedInCoinbase
  · simp [h.unpaid row hrow hinc]
  · simp

/-- The redistribution is nothing, or a split of the remainder over the kept rows. -/
theorem redistributeUnfitMinerPayouts_eq (h : Selected reward m) :
    redistributeUnfitMinerPayouts env m reward
      = if reward - (m.values.map (·.payoutSats)).sum ≤ 0 then m
        else if ((rowsWith m isKept).map (·.creditedDifficulty)).sum ≤ 0 then m
        else addSplit env m isKept (·.creditedDifficulty)
          (reward - (m.values.map (·.payoutSats)).sum) := by
  simp only [redistributeUnfitMinerPayouts, h.sum_included]
  rfl

/-- A split over kept rows pays none of the others. -/
theorem unpaid_addSplit
    (hunpaid : ∀ row ∈ m.values, row.includedInCoinbase = false → row.payoutSats = 0)
    (weight : ComputedAddress → ℚ) (amount : ℤ) :
    ∀ row ∈ (addSplit env m isKept weight amount).values, row.includedInCoinbase = false →
      row.payoutSats = 0 := by
  refine forall_mapValues hunpaid _ fun a row hrow => ?_
  split
  · rename_i hkept
    intro hinc
    exact absurd hkept.1 (by simp_all [addPayout])
  · exact hrow

/-- The redistribution pays no row that was not chosen. -/
theorem unpaid_redistribute
    (hunpaid : ∀ row ∈ m.values, row.includedInCoinbase = false → row.payoutSats = 0) (reward : ℤ) :
    ∀ row ∈ (redistributeUnfitMinerPayouts env m reward).values, row.includedInCoinbase = false →
      row.payoutSats = 0 := by
  simp only [redistributeUnfitMinerPayouts]
  split
  · exact hunpaid
  · split
    · exact hunpaid
    · exact unpaid_addSplit env hunpaid _ _

/-- The redistribution keeps the rows fitted. -/
theorem rowFitted_redistribute (hrows : ∀ row ∈ m.values, RowFitted row) (reward : ℤ) :
    ∀ row ∈ (redistributeUnfitMinerPayouts env m reward).values, RowFitted row := by
  simp only [redistributeUnfitMinerPayouts]
  split
  · exact hrows
  · split
    · exact hrows
    · exact rowFitted_addSplit env isKept _ _ hrows

/-- The redistribution keeps the selection and, if a row with work was kept, pays out the
whole reward. -/
theorem selected_redistribute (h : Selected reward m) :
    Selected reward (redistributeUnfitMinerPayouts env m reward) ∧
      ((∃ row ∈ (redistributeUnfitMinerPayouts env m reward).values, isKept row) →
        ((redistributeUnfitMinerPayouts env m reward).values.map (·.payoutSats)).sum
          = reward) := by
  have htotal := h.total
  have hpos : ∀ row ∈ m.values, isKept row → 0 < row.creditedDifficulty :=
    fun _ _ hrow => hrow.2
  rw [redistributeUnfitMinerPayouts_eq env h]
  split
  · exact ⟨h, fun _ => by omega⟩
  · rename_i hremainder
    split
    · -- no kept row did work
      rename_i hnone
      refine ⟨h, fun ⟨row, hrow, hkept⟩ => absurd hnone (not_le.mpr ?_)⟩
      refine sum_pos_of_ne_nil _ _ ?_ fun r hr => ?_
      · exact List.ne_nil_of_mem (List.mem_filter.mpr ⟨hrow, decide_eq_true hkept⟩)
      · exact (of_decide_eq_true (List.mem_filter.mp hr).2 : isKept r).2
    · have hfit := fitted_addSplit env h.keyed isKept _ hpos
        (reward - (m.values.map (·.payoutSats)).sum) h.rows (by omega)
        (show _ ≤ reward by omega)
      refine ⟨⟨hfit, ?_, unpaid_addSplit env h.unpaid _ _⟩, fun hkept => ?_⟩
      · intro row hrow hinc
        rw [addSplit, OrdMap.values_mapValues] at hrow
        obtain ⟨r, hr, rfl⟩ := List.mem_map.mp hrow
        split at hinc
        · rename_i hkept
          have hsats : 0 ≤ allocated env m isKept (·.creditedDifficulty)
              (reward - (m.values.map (·.payoutSats)).sum) r :=
            nonneg_allocateIntegerSats env _ _ _ _
          have hpaid := h.paid r hr hkept.1
          simp only [if_pos hkept, addPayout]
          omega
        · rename_i hkept
          rw [if_neg hkept]
          exact h.paid r hr hinc
      · -- a row that is kept afterwards was kept before
        have hkept' : ∃ row ∈ m.values, isKept row := by
          obtain ⟨row, hrow, hkept⟩ := hkept
          rw [addSplit, OrdMap.values_mapValues] at hrow
          obtain ⟨r, hr, rfl⟩ := List.mem_map.mp hrow
          refine ⟨r, hr, ?_⟩
          split at hkept
          · assumption
          · exact hkept
        rw [sum_addSplit, sum_allocated env h.keyed isKept _ hpos _ (by omega) hkept']
        omega

/-! ### From the input to the settled rows -/

section Input

open PayoutDistributionInput

variable (input : PayoutDistributionInput)

/-- The work of an address stays positive: rows without work are skipped. -/
theorem pos_addWork {acc : OrdMap String CreditedWork}
    (hacc : ∀ e ∈ acc.entries, 0 < e.2.creditedDifficulty) (work : PayoutAddressWork) :
    ∀ e ∈ (addWork acc work).entries, 0 < e.2.creditedDifficulty := by
  simp only [addWork]
  split
  · exact hacc
  · rename_i hwork
    obtain ⟨-, hcredit⟩ := not_or.mp hwork
    refine OrdMap.forall_entries_set hacc ?_
    have hexisting : 0 ≤ ((acc.get? work.address).getD ⟨0, 0⟩).creditedDifficulty := by
      cases hget : acc.get? work.address with
      | none => exact le_rfl
      | some w => exact (hacc _ (OrdMap.get?_eq_some_iff.mp hget)).le
    exact add_pos_of_nonneg_of_pos hexisting (not_le.mp hcredit)

/-- The work of an address is positive. -/
theorem pos_workByAddress : ∀ e ∈ input.workByAddress.entries, 0 < e.2.creditedDifficulty := by
  have hfold : ∀ (l : List PayoutAddressWork) (acc : OrdMap String CreditedWork),
      (∀ e ∈ acc.entries, 0 < e.2.creditedDifficulty) →
      ∀ e ∈ (l.foldl addWork acc).entries, 0 < e.2.creditedDifficulty := by
    intro l
    induction l with
    | nil => exact fun acc hacc => hacc
    | cons work l ih => exact fun acc hacc => ih _ (pos_addWork hacc work)
  exact hfold _ _ (by simp)

/-- The work of a considered address is not negative. -/
theorem nonneg_creditedDifficulty (address : String) :
    0 ≤ ((input.workByAddress.get? address).map (·.creditedDifficulty)).getD 0 := by
  cases hget : input.workByAddress.get? address with
  | none => simp
  | some w => exact (pos_workByAddress input _ (OrdMap.get?_eq_some_iff.mp hget)).le

/-- The rows before any payout. -/
theorem unpaid_computations : Unpaid (input.computations env) := by
  have hvalues : ∀ row ∈ (input.computations env).values,
      ∃ address, row = input.computedAddress env address := by
    intro row hrow
    obtain ⟨a, ha⟩ := OrdMap.mem_values.mp hrow
    exact ⟨a, (OrdMap.mem_entries_ofKeys.mp ha).2.symm⟩
  refine ⟨?_, ?_, ?_⟩
  · intro e he
    rw [← (OrdMap.mem_entries_ofKeys.mp he).2]
    rfl
  · intro row hrow
    obtain ⟨address, rfl⟩ := hvalues row hrow
    exact ⟨by simp [computedAddress], rfl, le_rfl⟩
  · intro row hrow
    obtain ⟨address, rfl⟩ := hvalues row hrow
    rfl

/-- The rows with work have the whole work. -/
theorem sum_active_computations :
    ((rowsWith (input.computations env) (0 < ·.creditedDifficulty)).map
      (·.creditedDifficulty)).sum = input.totalCreditedDifficulty := by
  have hvalues : (input.computations env).values
      = input.considered.map (input.computedAddress env) := by
    simp [computations, OrdMap.ofKeys, OrdMap.values, Function.comp_def]
  rw [rowsWith, sum_filter_eq_sum_ite, hvalues, List.map_map]
  have hite : ∀ address, ((fun row : ComputedAddress =>
      if 0 < row.creditedDifficulty then row.creditedDifficulty else 0)
        ∘ input.computedAddress env) address
      = ((input.workByAddress.get? address).map (·.creditedDifficulty)).getD 0 := by
    intro address
    have hnonneg : 0 ≤ (input.computedAddress env address).creditedDifficulty :=
      nonneg_creditedDifficulty input address
    rcases hnonneg.eq_or_lt with hzero | hpos
    · exact (if_neg fun hlt => hlt.ne hzero).trans hzero
    · exact if_pos hpos
  rw [List.map_congr_left fun address _ => hite address, considered, List.map_append,
    List.sum_append]
  -- addresses that only carry a balance did no work
  have hrest : ((input.balanceByAddress.keys.filter fun address =>
      address ∉ input.workByAddress.keys).map fun address =>
        ((input.workByAddress.get? address).map (·.creditedDifficulty)).getD 0).sum = 0 := by
    refine List.sum_eq_zero fun x hx => ?_
    obtain ⟨address, haddress, rfl⟩ := List.mem_map.mp hx
    have hno : address ∉ input.workByAddress.keys := by
      simpa using (List.mem_filter.mp haddress).2
    simp [OrdMap.get?_eq_none_iff.mpr hno]
  rw [hrest, add_zero, totalCreditedDifficulty, OrdMap.keys, OrdMap.values, List.map_map,
    List.map_map]
  refine congrArg List.sum (List.map_congr_left fun e he => ?_)
  simp [OrdMap.get?_eq_some_iff.mpr he]

/-- The fee of at most one hundred percent leaves a reward for the miners. -/
theorem nonneg_minerRewardSats (hfee : input.feePercent ≤ 100) :
    0 ≤ input.minerRewardSats ∧ 0 ≤ input.feeSats := by
  have hvalue : 0 ≤ input.coinbaseValue := le_max_left _ _
  have hpercent : 0 ≤ input.fee ∧ input.fee ≤ 100 := by
    unfold fee
    split
    · rename_i hpos
      exact ⟨hpos.le, hfee⟩
    · norm_num
  have hvalueQ : (0 : ℚ) ≤ input.coinbaseValue := by exact_mod_cast hvalue
  have hwanted : 0 ≤ input.wantedFeeSats ∧ input.wantedFeeSats ≤ input.coinbaseValue := by
    refine ⟨Int.floor_nonneg.mpr (mul_nonneg (by linarith) hvalueQ), ?_⟩
    have hle : input.fee / 100 * input.coinbaseValue ≤ input.coinbaseValue :=
      mul_le_of_le_one_left hvalueQ (by linarith)
    have hfloor := (Int.floor_le (input.fee / 100 * input.coinbaseValue)).trans hle
    exact_mod_cast hfloor
  unfold minerRewardSats feeSats
  split <;> omega

/-- The outputs are chosen among the rows of the first stage. -/
theorem choosing_targeted :
    (∀ row ∈ (input.targeted env).values, RowFitted row) ∧
      Choosing (input.targeted env) (includeEligible env
        (input.weightBudget - budgetSafetyMarginWeight) (input.eligible env)
        (input.usedWeight env) (input.targeted env)) := by
  obtain ⟨hkeyed, hrows⟩ : (∀ e ∈ (input.targeted env).entries, e.2.address = e.1) ∧
      ∀ row ∈ (input.targeted env).values, RowFitted row :=
    rows_allocatePayoutTargets env (unpaid_computations env input) _
      (sum_active_computations env input)
  have hnone : ∀ row ∈ (input.targeted env).values, row.includedInCoinbase = false := by
    refine not_included_allocatePayoutTargets env (fun row hrow => ?_) _ _
    obtain ⟨a, ha⟩ := OrdMap.mem_values.mp hrow
    have hrow : input.computedAddress env a = row := (OrdMap.mem_entries_ofKeys.mp ha).2
    rw [← hrow]
    rfl
  have hstart : Choosing (input.targeted env) (input.targeted env) :=
    ⟨rfl, hkeyed, fun row hrow => (hrows row hrow).target,
      fun row hrow _ => (hrows row hrow).after,
      fun row hrow hinc => absurd hinc (by simp [hnone row hrow])⟩
  have heligible : ∀ row ∈ input.eligible env,
      (row.address, row) ∈ (input.targeted env).entries ∧ 0 < row.payoutSats := by
    intro row hrow
    obtain ⟨hmem, hp⟩ := List.mem_filter.mp (Js.mem_sort.mp hrow)
    obtain ⟨a, ha⟩ := OrdMap.mem_values.mp hmem
    have hkey : row.address = a := hkeyed _ ha
    exact ⟨hkey ▸ ha, (of_decide_eq_true hp).1⟩
  have hnodup : ((input.eligible env).map (·.address)).Nodup := by
    have hperm := (Js.sort_perm (comparePayouts env) ((input.targeted env).values.filter
      fun row => decide (0 < row.payoutSats ∧
        (0 < row.creditedDifficulty ∨ input.minOutput ≤ row.payoutSats)))).map (·.address)
    exact hperm.nodup_iff.mpr
      ((nodup_addresses hkeyed).sublist (List.filter_sublist.map _))
  exact ⟨hrows, choosing_includeEligible env (input.weightBudget - budgetSafetyMarginWeight)
    (input.eligible env) hnodup heligible (input.usedWeight env) hstart
    fun row _ r hr => hnone r (OrdMap.mem_values.mpr ⟨_, hr⟩)⟩

/-- The settled rows are fitted, whatever the fee. -/
theorem rowFitted_settled : ∀ row ∈ (input.settled env).values, RowFitted row := by
  obtain ⟨hrows, hchosen⟩ := choosing_targeted env input
  exact rowFitted_redistribute env (rowFitted_resetUnfit hrows hchosen) _

/-- A settled row that is not in the coinbase is paid nothing, whatever the fee. -/
theorem unpaid_settled : ∀ row ∈ (input.settled env).values, row.includedInCoinbase = false →
    row.payoutSats = 0 := by
  obtain ⟨hrows, hchosen⟩ := choosing_targeted env input
  exact unpaid_redistribute env (unpaid_resetUnfit hrows hchosen) _

/-- The rows are paid within the reward before the outputs are chosen. -/
theorem fitted_targeted (hreward : 0 ≤ input.minerRewardSats) :
    Fitted input.minerRewardSats (input.targeted env) :=
  fitted_allocatePayoutTargets env (unpaid_computations env input) hreward
    (sum_active_computations env input)

/-- The settled rows are a selection that fits the reward and spends it if a row with work
was kept. -/
theorem selected_settled (hreward : 0 ≤ input.minerRewardSats) :
    Selected input.minerRewardSats (input.settled env) ∧
      ((∃ row ∈ (input.settled env).values, isKept row) →
        ((input.settled env).values.map (·.payoutSats)).sum = input.minerRewardSats) :=
  selected_redistribute env
    (selected_resetUnfit (fitted_targeted env input hreward) (choosing_targeted env input).2)

/-! ### The entries -/

/-- An entry is paid if and only if it is an output. -/
structure EntryPaid (entry : PayoutDistributionEntry) : Prop where
  paid : entry.includedInCoinbase = true → 0 < entry.payoutSats
  unpaid : entry.includedInCoinbase = false → entry.payoutSats = 0

/-- The entries that are outputs make up all that is paid. -/
theorem sum_outputs {entries : List PayoutDistributionEntry}
    (h : ∀ entry ∈ entries, entry.includedInCoinbase = false → entry.payoutSats = 0) :
    ((entries.filter (·.includedInCoinbase)).map (·.payoutSats)).sum
      = (entries.map (·.payoutSats)).sum := by
  have hite := sum_filter_eq_sum_ite entries (·.includedInCoinbase = true) (·.payoutSats)
  simp only [Bool.decide_eq_true] at hite
  rw [hite]
  refine congrArg List.sum (List.map_congr_left fun entry hentry => ?_)
  cases hinc : entry.includedInCoinbase
  · simp [h entry hentry hinc]
  · simp

variable {entry : PayoutDistributionEntry} {reward : ℤ}

/-- The rows that become entries. -/
theorem mem_minerEntries (h : entry ∈ input.minerEntries env) :
    ∃ row ∈ (input.settled env).values, minerEntry row = entry := by
  obtain ⟨row, hrow, rfl⟩ := List.mem_map.mp h
  exact ⟨row, (List.mem_filter.mp (Js.mem_sort.mp hrow)).1, rfl⟩

/-- Leaving out the rows that are neither paid nor carry a balance leaves out no payout. -/
theorem sum_minerEntries (h : Selected reward (input.settled env)) :
    ((input.minerEntries env).map (·.payoutSats)).sum
      = ((input.settled env).values.map (·.payoutSats)).sum := by
  rw [minerEntries, List.map_map, ((Js.sort_perm _ _).map _).sum_eq, sum_filter_eq_sum_ite]
  refine congrArg List.sum (List.map_congr_left fun row hrow => ?_)
  split
  · rfl
  · rename_i hout
    cases hinc : row.includedInCoinbase
    · exact (h.unpaid row hrow hinc).symm
    · exact absurd (Or.inl hinc) hout

theorem entryPaid_minerEntries (h : Selected reward (input.settled env)) :
    ∀ entry ∈ input.minerEntries env, EntryPaid entry := by
  intro entry hentry
  obtain ⟨row, hrow, rfl⟩ := mem_minerEntries env input hentry
  exact ⟨h.paid row hrow, h.unpaid row hrow⟩

variable {feeEntry : PayoutDistributionEntry}

/-- Adding the fee to the first entry with a property adds it once. -/
theorem sum_addFeeToFirst {g : PayoutDistributionEntry → ℤ}
    (hg : ∀ entry : PayoutDistributionEntry, g { entry with
        payoutSats := entry.payoutSats + feeEntry.payoutSats
        grossPayoutSats := entry.grossPayoutSats + feeEntry.grossPayoutSats }
      = g feeEntry + g entry) (p : PayoutDistributionEntry → Bool)
    (entries : List PayoutDistributionEntry) (h : ∃ entry ∈ entries, p entry) :
    ((addFeeToFirst feeEntry p entries).map g).sum = g feeEntry + (entries.map g).sum := by
  induction entries with
  | nil => simp at h
  | cons entry entries ih =>
    unfold addFeeToFirst
    split
    · rw [List.map_cons, List.map_cons, List.sum_cons, List.sum_cons, hg, add_assoc]
    · rename_i hp
      have htail : ∃ e ∈ entries, p e := by
        obtain ⟨e, he, hpe⟩ := h
        rcases List.mem_cons.mp he with rfl | htail
        · exact absurd hpe hp
        · exact ⟨e, htail, hpe⟩
      have hrest := ih htail
      simp only [List.map_cons, List.sum_cons]
      omega

/-- What is read of the entries without their payouts is what it was before the fee. -/
theorem map_addFeeToFirst {β : Type*} {g : PayoutDistributionEntry → β}
    (hg : ∀ (entry : PayoutDistributionEntry) (payoutSats grossPayoutSats : ℤ),
      g { entry with payoutSats, grossPayoutSats } = g entry)
    (feeEntry : PayoutDistributionEntry) (p : PayoutDistributionEntry → Bool)
    (entries : List PayoutDistributionEntry) :
    (addFeeToFirst feeEntry p entries).map g = entries.map g := by
  induction entries with
  | nil => rfl
  | cons entry entries ih =>
    unfold addFeeToFirst
    split
    · rw [List.map_cons, List.map_cons, hg]
    · rw [List.map_cons, List.map_cons, ih]

/-- An entry after the fee was added is an entry before, or one with the fee on top. -/
theorem mem_addFeeToFirst {p : PayoutDistributionEntry → Bool}
    {entries : List PayoutDistributionEntry} (h : entry ∈ addFeeToFirst feeEntry p entries) :
    ∃ e ∈ entries, entry = e ∨ (p e ∧ entry = { e with
      payoutSats := e.payoutSats + feeEntry.payoutSats
      grossPayoutSats := e.grossPayoutSats + feeEntry.grossPayoutSats }) := by
  induction entries with
  | nil => cases h
  | cons e entries ih =>
    unfold addFeeToFirst at h
    split at h
    · rename_i hp
      rcases List.mem_cons.mp h with rfl | htail
      · exact ⟨e, List.mem_cons_self, Or.inr ⟨hp, rfl⟩⟩
      · exact ⟨entry, List.mem_cons_of_mem _ htail, Or.inl rfl⟩
    · rcases List.mem_cons.mp h with rfl | htail
      · exact ⟨entry, List.mem_cons_self, Or.inl rfl⟩
      · obtain ⟨e', he', hcase⟩ := ih htail
        exact ⟨e', List.mem_cons_of_mem _ he', hcase⟩

/-- The merged entries are the miner entries, the fee entry, or a paid miner entry with the
fee on top. -/
theorem mem_mergedEntries (h : entry ∈ input.mergedEntries env) :
    entry ∈ input.minerEntries env ∨
    (0 < input.feeSats ∧ entry = input.feeEntry) ∨
    (0 < input.feeSats ∧ ∃ e ∈ input.minerEntries env, e.includedInCoinbase = true ∧
      entry = { e with
        payoutSats := e.payoutSats + input.feeSats
        grossPayoutSats := e.grossPayoutSats + input.feeSats }) := by
  unfold mergedEntries at h
  split at h
  · rename_i hfee
    simp only [mergeFeeEntry] at h
    split at h
    · rcases List.mem_cons.mp h with rfl | hold
      · exact Or.inr (Or.inl ⟨hfee, rfl⟩)
      · exact Or.inl hold
    · obtain ⟨e, he, rfl | ⟨hp, rfl⟩⟩ := mem_addFeeToFirst h
      · exact Or.inl he
      · exact Or.inr (Or.inr ⟨hfee, e, he, ((Bool.and_eq_true _ _).mp hp).2, rfl⟩)
  · exact Or.inl h

/-- The merged entries make up what the miner entries and the fee entry make up. -/
theorem sum_mergedEntries {g : PayoutDistributionEntry → ℤ}
    (hg : ∀ entry : PayoutDistributionEntry, g { entry with
        payoutSats := entry.payoutSats + input.feeSats
        grossPayoutSats := entry.grossPayoutSats + input.feeSats }
      = g input.feeEntry + g entry)
    (hfee : ¬ 0 < input.feeSats → g input.feeEntry = 0) :
    ((input.mergedEntries env).map g).sum
      = g input.feeEntry + ((input.minerEntries env).map g).sum := by
  unfold mergedEntries
  split
  · simp only [mergeFeeEntry]
    split
    · rw [List.map_cons, List.sum_cons]
    · rename_i hsome
      refine sum_addFeeToFirst hg _ _ ?_
      simpa using hsome
  · rename_i hnone
    rw [hfee hnone, zero_add]

theorem entryPaid_mergedEntries (h : Selected reward (input.settled env)) :
    ∀ entry ∈ input.mergedEntries env, EntryPaid entry := by
  intro entry hentry
  have hminer := entryPaid_minerEntries env input h
  rcases mem_mergedEntries env input hentry with hold | ⟨hfee, rfl⟩ | ⟨hfee, e, he, hinc, rfl⟩
  · exact hminer entry hold
  · exact ⟨fun _ => hfee, fun hinc => absurd hinc (by simp [feeEntry])⟩
  · have hpaid := (hminer e he).paid hinc
    exact ⟨fun _ => by simp only; omega,
      fun (hno : e.includedInCoinbase = false) => absurd hinc (by simp [hno])⟩

/-- The ranks change nothing else of an entry. -/
theorem mem_rankedEntries (h : entry ∈ input.rankedEntries env) :
    ∃ e ∈ input.mergedEntries env, ∃ rank, entry = { e with rank } := by
  obtain ⟨i, hi, rfl⟩ := List.mem_mapIdx.mp h
  exact ⟨_, List.getElem_mem hi, i + 1, rfl⟩

/-- What is read of the entries without their ranks. -/
theorem map_rankedEntries {β : Type*} {g : PayoutDistributionEntry → β}
    (hg : ∀ (entry : PayoutDistributionEntry) (rank : ℕ), g { entry with rank } = g entry) :
    (input.rankedEntries env).map g = (input.mergedEntries env).map g := by
  refine List.ext_getElem? fun i => ?_
  simp only [rankedEntries, List.getElem?_map, List.getElem?_mapIdx, Option.map_map]
  exact congrArg (Option.map · _) (funext fun entry => hg entry _)

theorem sum_rankedEntries :
    ((input.rankedEntries env).map (·.payoutSats)).sum
      = ((input.mergedEntries env).map (·.payoutSats)).sum := by
  rw [map_rankedEntries env input fun _ _ => rfl]

theorem entryPaid_rankedEntries (h : Selected reward (input.settled env)) :
    ∀ entry ∈ input.rankedEntries env, EntryPaid entry := by
  intro entry hentry
  obtain ⟨e, he, rank, rfl⟩ := mem_rankedEntries env input hentry
  obtain ⟨hpaid, hunpaid⟩ := entryPaid_mergedEntries env input h e he
  exact ⟨hpaid, hunpaid⟩

/-- The outputs pay what the settled rows are paid and the fee. -/
theorem sum_outputs_rankedEntries (h : Selected reward (input.settled env))
    (hfee : 0 ≤ input.feeSats) :
    (((input.rankedEntries env).filter (·.includedInCoinbase)).map (·.payoutSats)).sum
      = input.feeSats + ((input.settled env).values.map (·.payoutSats)).sum := by
  rw [sum_outputs fun entry hentry => (entryPaid_rankedEntries env input h entry hentry).unpaid,
    sum_rankedEntries, sum_mergedEntries env input (fun _ => add_comm _ _)
      (fun hnone => le_antisymm (not_lt.mp hnone) hfee), sum_minerEntries env input h]
  rfl

/-- An output for an address with work comes from a row with work that was kept. -/
theorem exists_isKept (hentry : entry ∈ input.rankedEntries env)
    (hinc : entry.includedInCoinbase = true) (hcredit : 0 < entry.creditedDifficulty) :
    ∃ row ∈ (input.settled env).values, isKept row := by
  obtain ⟨e, he, rank, rfl⟩ := mem_rankedEntries env input hentry
  rcases mem_mergedEntries env input he with hold | ⟨-, rfl⟩ | ⟨-, e', he', hinc', rfl⟩
  · obtain ⟨row, hrow, rfl⟩ := mem_minerEntries env input hold
    exact ⟨row, hrow, hinc, hcredit⟩
  · -- the fee entry has no work
    exact absurd hcredit (lt_irrefl _)
  · obtain ⟨row, hrow, rfl⟩ := mem_minerEntries env input he'
    exact ⟨row, hrow, hinc', hcredit⟩

end Input

/-! ### Conservation of the reward -/

variable {input : PayoutDistributionInput}

theorem entries_of_nothing (h : input.coinbaseValue ≤ 0 ∨ input.totalCreditedDifficulty ≤ 0) :
    (buildPayoutDistribution env input).entries = [] := by
  rw [buildPayoutDistribution, if_pos h]

theorem entries_of_something (h : ¬ (input.coinbaseValue ≤ 0 ∨ input.totalCreditedDifficulty ≤ 0)) :
    (buildPayoutDistribution env input).entries = input.rankedEntries env := by
  rw [buildPayoutDistribution, if_neg h]

open PayoutDistributionInput in
/-- `buildPayoutDistribution` conserves the reward. What it distributes is the sum over the
outputs and at most the coinbase value, and all of it as soon as an output goes to an
address with work. The outputs are exactly the entries that are paid something. -/
theorem buildPayoutDistribution_conserves (input : PayoutDistributionInput)
    (hvalue : 0 ≤ input.coinbaseValueSats) (hfee : input.feePercent ≤ 100) :
    let result := buildPayoutDistribution env input
    result.distributedSats
        = ((result.entries.filter (·.includedInCoinbase)).map (·.payoutSats)).sum ∧
      result.distributedSats ≤ input.coinbaseValueSats ∧
      ((∃ entry ∈ result.entries, entry.includedInCoinbase = true ∧ 0 < entry.creditedDifficulty) →
        result.distributedSats = input.coinbaseValueSats) ∧
      ∀ entry ∈ result.entries,
        (entry.includedInCoinbase = true → 0 < entry.payoutSats) ∧
        (entry.includedInCoinbase = false → entry.payoutSats = 0) := by
  obtain ⟨hreward, hfeeSats⟩ := nonneg_minerRewardSats input hfee
  obtain ⟨hsel, hspent⟩ := selected_settled env input hreward
  have hvalue' : input.coinbaseValue = input.coinbaseValueSats := max_eq_right hvalue
  have hminers : input.minerRewardSats = input.coinbaseValue - input.feeSats := rfl
  have htotal := hsel.total
  have hsum := sum_outputs_rankedEntries env input hsel hfeeSats
  have hpaid := entryPaid_rankedEntries env input hsel
  simp only [buildPayoutDistribution]
  split
  · simp [hvalue]
  · refine ⟨rfl, hsum.le.trans (by omega), ?_, fun entry hentry =>
      ⟨(hpaid entry hentry).paid, (hpaid entry hentry).unpaid⟩⟩
    rintro ⟨entry, hentry, hinc, hcredit⟩
    have hall := hspent (exists_isKept env input hentry hinc hcredit)
    exact hsum.trans (by omega)

/-- An environment in which every address is a `p2wpkh` address and addresses are compared by
their first letters. -/
def sampleEnv : PayoutEnv where
  getAddressInfo _ := some .p2wpkh
  localeCompare a b := (a.toList.headD 'A').toNat - (b.toList.headD 'A').toNat

/-- Three miners and a budget with room for one output. -/
def sampleInput : PayoutDistributionInput where
  addressWork := [⟨"A", 10, 1⟩, ⟨"B", 9, 1⟩, ⟨"C", 8, 1⟩]
  balances := []
  coinbaseValueSats := 3000
  feeAddress := none
  feePercent := 0
  minOutputSats := 546
  coinbaseWeightBudget := 850

theorem buildPayoutDistribution_conserves_sample :
    (buildPayoutDistribution sampleEnv sampleInput).distributedSats
      = sampleInput.coinbaseValueSats :=
  (buildPayoutDistribution_conserves sampleEnv sampleInput (by decide)
    (by decide +kernel)).2.2.1 (by decide +kernel)

end PublicPool.Proofs
