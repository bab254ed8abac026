import PublicPool.Proofs.Distribution

/-!
# `PublicPool.Proofs.Payout.LargestRemainder`: what each target of a split gets

`allocateIntegerSats` rounds every share down and hands out what is left, one sat each, in the order
of the parts that were cut off. `get?_allocateIntegerSats` says what this comes to for one target,
and `allocateIntegerSats_apportions` what the split as a whole is: exact, within one sat of the
shares, nothing for a weight of zero, and no target overtaken by a lighter one.

The last of these rests on the sort. Of two shares with the same floor the larger one has the larger
fraction, so it stands before the other and is not passed over. The ties that are broken by weight
and item do not enter.
-/

set_option autoImplicit false

namespace PublicPool.Proofs

open Lib

/-- The share of a target before it is rounded. -/
def exactShare (amountSats : ℤ) (totalWeight : ℚ) (target : AllocationTarget) : ℚ :=
  target.weight * amountSats / totalWeight

/-- A split of an amount over targets by their weights. -/
structure Apportions (targets : List AllocationTarget) (amountSats : ℤ) (totalWeight : ℚ)
    (result : OrdMap String ℤ) : Prop where
  sum : result.values.sum = amountSats
  nonneg : ∀ value ∈ result.values, 0 ≤ value
  rounded : ∀ target ∈ targets, 0 < target.weight →
    result.get? target.item = some ⌊exactShare amountSats totalWeight target⌋ ∨
      result.get? target.item = some (⌊exactShare amountSats totalWeight target⌋ + 1)
  nothing : ∀ target ∈ targets, target.weight = 0 → result.get? target.item = none
  only : ∀ item ∈ result.keys, ∃ target ∈ targets, target.item = item
  monotone : ∀ target ∈ targets, ∀ heavier ∈ targets, target.weight < heavier.weight →
    (result.get? target.item).getD 0 ≤ (result.get? heavier.item).getD 0

/-! ### The sats that are left -/

/-- The first targets get one sat more, as many of them as there are sats left. -/
theorem get?_handOutResidual {fractions : List AllocationFraction} {residual : ℤ}
    {result : OrdMap String ℤ} (hitems : (fractions.map (·.item)).Nodup) (item : String) :
    (handOutResidual fractions residual result).get? item
      = if item ∈ (fractions.take residual.toNat).map (·.item) then
          some ((result.get? item).getD 0 + 1)
        else result.get? item := by
  induction fractions generalizing residual result with
  | nil => simp [handOutResidual]
  | cons target fractions ih =>
    obtain ⟨hnew, hrest⟩ := List.nodup_cons.mp (List.map_cons .. ▸ hitems)
    unfold handOutResidual
    split
    · rename_i hnone
      have hzero : residual.toNat = 0 := by omega
      simp [hzero]
    · rename_i hleft
      have hsucc : residual.toNat = (residual - 1).toNat + 1 := by omega
      rw [ih hrest, hsucc, List.take_succ_cons, List.map_cons, OrdMap.get?_set]
      by_cases htarget : item = target.item
      · -- its turn is over, and no later target has its item
        subst htarget
        have hlater : target.item ∉ (fractions.take (residual - 1).toNat).map (·.item) := by
          intro hmem
          exact hnew (List.map_subset _ (List.take_subset _ _) hmem)
        rw [if_neg hlater, if_pos rfl, if_pos List.mem_cons_self]
      · simp [htarget]

/-- Of a list in order, the first ones include all that stand before one of them. -/
theorem mem_take_of_pairwise {α : Type*} {R : α → α → Prop} {xs : List α} (h : xs.Pairwise R)
    {n : ℕ} {x y : α} (hx : x ∈ xs.take n) (hy : y ∈ xs) (hbefore : ¬R x y) : y ∈ xs.take n := by
  rw [← List.take_append_drop n xs] at h hy
  rcases List.mem_append.mp hy with hfirst | hlast
  · exact hfirst
  · exact absurd ((List.pairwise_append.mp h).2.2 x hx y hlast) hbefore

/-! ### One target -/

section
variable (env : PayoutEnv) (targets : List AllocationTarget) (amountSats : ℤ) (totalWeight : ℚ)

/-- The targets that share the amount. -/
def sharing : List AllocationTarget := targets.filter fun target => 0 < target.weight

/-- A target with what rounding its share down cuts off. -/
def fractionOf (target : AllocationTarget) : AllocationFraction where
  item := target.item
  weight := target.weight
  fraction := exactShare amountSats totalWeight target
    - ⌊exactShare amountSats totalWeight target⌋

/-- The targets in the order in which the sats that are left are handed out. -/
def handOutOrder : List AllocationFraction :=
  Js.sort
    (fun a b => Js.orElse (b.fraction - a.fraction)
      (Js.orElse (b.weight - a.weight) (env.localeCompare a.item b.item)))
    ((sharing targets).map (fractionOf amountSats totalWeight))

/-- What is left when all shares are rounded down. -/
def leftOver : ℤ :=
  amountSats - ((sharing targets).map fun target => ⌊exactShare amountSats totalWeight target⌋).sum

/-- The items of the targets that get one sat more. -/
def firstItems : List String :=
  ((handOutOrder env targets amountSats totalWeight).take
    (leftOver targets amountSats totalWeight).toNat).map (·.item)

variable {env targets amountSats totalWeight}

theorem mem_sharing {target : AllocationTarget} :
    target ∈ sharing targets ↔ target ∈ targets ∧ 0 < target.weight := by
  simp [sharing]

theorem allocateIntegerSats_eq (hamount : 0 < amountSats) (htotal : 0 < totalWeight) :
    allocateIntegerSats env targets amountSats totalWeight
      = handOutResidual (handOutOrder env targets amountSats totalWeight)
          (leftOver targets amountSats totalWeight)
          (OrdMap.empty.setAll ((sharing targets).map fun target =>
            (target.item, ⌊exactShare amountSats totalWeight target⌋))) := by
  unfold allocateIntegerSats
  rw [if_neg (not_or.mpr ⟨not_le.mpr hamount, not_le.mpr htotal⟩)]
  rfl

/-- The targets of weight zero take no part. -/
theorem allocateIntegerSats_sharing :
    allocateIntegerSats env (sharing targets) amountSats totalWeight
      = allocateIntegerSats env targets amountSats totalWeight := by
  simp only [allocateIntegerSats, sharing, List.filter_filter, Bool.and_self]

/-- The larger a fraction, the earlier its target. -/
theorem pairwise_handOutOrder :
    (handOutOrder env targets amountSats totalWeight).Pairwise
      fun a b => b.fraction ≤ a.fraction := by
  refine Js.pairwise_sort ?_ ?_ ?_
  · intro a _ b _ hle
    unfold Js.orElse at hle
    split at hle
    · linarith
    · linarith
  · intro a _ b _ hlt
    unfold Js.orElse at hlt
    split at hlt
    · linarith
    · linarith
  · intro a _ b _ c _ hab hbc
    exact hbc.trans hab

theorem nodup_handOutOrder (hitems : (targets.map (·.item)).Nodup) :
    ((handOutOrder env targets amountSats totalWeight).map (·.item)).Nodup := by
  have hsharing : ((sharing targets).map (·.item)).Nodup :=
    hitems.sublist (List.filter_sublist.map _)
  unfold handOutOrder
  rw [((Js.sort_perm _ _).map _).nodup_iff, List.map_map]
  exact hsharing

/-- What the rounded shares are under their items. -/
theorem get?_rounded (hitems : (targets.map (·.item)).Nodup) {target : AllocationTarget}
    (htarget : target ∈ targets) :
    ((OrdMap.empty : OrdMap String ℤ).setAll ((sharing targets).map fun target =>
        (target.item, ⌊exactShare amountSats totalWeight target⌋))).get? target.item
      = if 0 < target.weight then some ⌊exactShare amountSats totalWeight target⌋ else none := by
  have hsharing : ((sharing targets).map (·.item)).Nodup :=
    hitems.sublist (List.filter_sublist.map _)
  have hentries : ((OrdMap.empty : OrdMap String ℤ).setAll ((sharing targets).map fun target =>
      (target.item, ⌊exactShare amountSats totalWeight target⌋))).entries
        = [] ++ (sharing targets).map fun target =>
          (target.item, ⌊exactShare amountSats totalWeight target⌋) :=
    OrdMap.entries_setAll (by simpa [OrdMap.keys, Function.comp_def] using hsharing)
  split
  · rename_i hweight
    rw [OrdMap.get?_eq_some_iff, hentries, List.nil_append]
    exact List.mem_map_of_mem (mem_sharing.mpr ⟨htarget, hweight⟩)
  · rename_i hweight
    rw [OrdMap.get?_eq_none_iff, OrdMap.keys, hentries, List.nil_append, List.map_map]
    intro hmem
    obtain ⟨other, hother, hitem⟩ := List.mem_map.mp hmem
    obtain ⟨hin, hpos⟩ := mem_sharing.mp hother
    have hsame : other = target := List.inj_on_of_nodup_map hitems hin htarget hitem
    exact hweight (hsame ▸ hpos)

/-- What a target gets: its share rounded down, and one sat more if it is among the first. -/
theorem get?_allocateIntegerSats (hitems : (targets.map (·.item)).Nodup) (hamount : 0 < amountSats)
    (htotal : 0 < totalWeight) {target : AllocationTarget} (htarget : target ∈ sharing targets) :
    (allocateIntegerSats env targets amountSats totalWeight).get? target.item
      = some (⌊exactShare amountSats totalWeight target⌋
        + if target.item ∈ firstItems env targets amountSats totalWeight then 1 else 0) := by
  obtain ⟨hin, hweight⟩ := mem_sharing.mp htarget
  have hfloor := @get?_rounded targets amountSats totalWeight hitems target hin
  rw [if_pos hweight] at hfloor
  rw [allocateIntegerSats_eq hamount htotal, get?_handOutResidual (nodup_handOutOrder hitems),
    hfloor]
  by_cases hfirst : target.item ∈ firstItems env targets amountSats totalWeight
  · rw [if_pos hfirst]
    exact if_pos hfirst
  · rw [if_neg hfirst, add_zero]
    exact if_neg hfirst

/-- A target of weight zero has no entry. -/
theorem get?_allocateIntegerSats_of_zero (hitems : (targets.map (·.item)).Nodup)
    (hamount : 0 < amountSats) (htotal : 0 < totalWeight) {target : AllocationTarget}
    (htarget : target ∈ targets) (hzero : target.weight = 0) :
    (allocateIntegerSats env targets amountSats totalWeight).get? target.item = none := by
  have hnone := @get?_rounded targets amountSats totalWeight hitems target htarget
  rw [hzero, if_neg (lt_irrefl 0)] at hnone
  rw [allocateIntegerSats_eq hamount htotal, get?_handOutResidual (nodup_handOutOrder hitems),
    hnone]
  refine if_neg fun hmem => ?_
  -- whoever is handed a sat has a positive weight
  obtain ⟨fraction, hfraction, hitem⟩ := List.mem_map.mp hmem
  obtain ⟨other, hother, rfl⟩ :=
    List.mem_map.mp (Js.mem_sort.mp (List.mem_of_mem_take hfraction))
  obtain ⟨hin, hpos⟩ := mem_sharing.mp hother
  have hsame : other = target := List.inj_on_of_nodup_map hitems hin htarget hitem
  rw [hsame, hzero] at hpos
  exact lt_irrefl 0 hpos

/-- Of two targets with the same floor the heavier one is handed a sat first. -/
theorem mem_firstItems_of_lt (hitems : (targets.map (·.item)).Nodup)
    {target heavier : AllocationTarget}
    (htarget : target ∈ sharing targets) (hheavier : heavier ∈ sharing targets)
    (hlt : exactShare amountSats totalWeight target < exactShare amountSats totalWeight heavier)
    (hfloor : ⌊exactShare amountSats totalWeight target⌋
      = ⌊exactShare amountSats totalWeight heavier⌋)
    (hfirst : target.item ∈ firstItems env targets amountSats totalWeight) :
    heavier.item ∈ firstItems env targets amountSats totalWeight := by
  have hmem : ∀ {other : AllocationTarget}, other ∈ sharing targets →
      fractionOf amountSats totalWeight other ∈ handOutOrder env targets amountSats totalWeight :=
    fun hother => Js.mem_sort.mpr (List.mem_map_of_mem hother)
  obtain ⟨fraction, hfraction, hitem⟩ := List.mem_map.mp hfirst
  have hsame : fraction = fractionOf amountSats totalWeight target :=
    List.inj_on_of_nodup_map (nodup_handOutOrder hitems) (List.mem_of_mem_take hfraction)
      (hmem htarget) hitem
  subst hsame
  have hbehind : ¬(fractionOf amountSats totalWeight heavier).fraction
      ≤ (fractionOf amountSats totalWeight target).fraction := by
    simp only [fractionOf, hfloor, not_le]
    linarith
  exact List.mem_map_of_mem
    (mem_take_of_pairwise pairwise_handOutOrder hfraction (hmem hheavier) hbehind)

/-- A target with a larger weight never gets less. -/
theorem monotone_allocateIntegerSats (hitems : (targets.map (·.item)).Nodup)
    (hamount : 0 < amountSats) (htotal : 0 < totalWeight) {target heavier : AllocationTarget}
    (htarget : target ∈ sharing targets) (hheavier : heavier ∈ sharing targets)
    (hlt : target.weight < heavier.weight) :
    ((allocateIntegerSats env targets amountSats totalWeight).get? target.item).getD 0
      ≤ ((allocateIntegerSats env targets amountSats totalWeight).get? heavier.item).getD 0 := by
  rw [get?_allocateIntegerSats hitems hamount htotal htarget,
    get?_allocateIntegerSats hitems hamount htotal hheavier, Option.getD_some, Option.getD_some]
  have hshares : exactShare amountSats totalWeight target
      < exactShare amountSats totalWeight heavier := by
    have hsats : (0 : ℚ) < amountSats := by exact_mod_cast hamount
    unfold exactShare
    gcongr
  rcases (Int.floor_le_floor hshares.le).lt_or_eq with hfloor | hfloor
  · -- one sat is not enough to overtake
    split <;> split <;> omega
  · have hfirst := @mem_firstItems_of_lt env _ _ _ hitems _ _ htarget hheavier hshares hfloor
    rw [hfloor]
    by_cases hmem : target.item ∈ firstItems env targets amountSats totalWeight
    · rw [if_pos hmem, if_pos (hfirst hmem)]
    · rw [if_neg hmem]
      split <;> omega

/-- Only the targets that share the amount have an entry. -/
theorem keys_allocateIntegerSats (hitems : (targets.map (·.item)).Nodup) (hamount : 0 < amountSats)
    (htotal : 0 < totalWeight) :
    (allocateIntegerSats env targets amountSats totalWeight).keys
      = (sharing targets).map (·.item) := by
  have hsharing : ((sharing targets).map (·.item)).Nodup :=
    hitems.sublist (List.filter_sublist.map _)
  have hkeys : ((OrdMap.empty : OrdMap String ℤ).setAll ((sharing targets).map fun target =>
      (target.item, ⌊exactShare amountSats totalWeight target⌋))).keys
        = (sharing targets).map (·.item) := by
    rw [OrdMap.keys,
      OrdMap.entries_setAll (by simpa [OrdMap.keys, Function.comp_def] using hsharing)]
    simp [Function.comp_def]
  rw [allocateIntegerSats_eq hamount htotal, keys_handOutResidual _ _ _ ?_, hkeys]
  intro fraction hfraction
  obtain ⟨target, htarget, rfl⟩ := List.mem_map.mp (Js.mem_sort.mp hfraction)
  rw [hkeys]
  exact List.mem_map_of_mem htarget

/-- The weights of zero add nothing. -/
theorem sum_sharing (hweights : ∀ target ∈ targets, 0 ≤ target.weight) :
    ((sharing targets).map (·.weight)).sum = (targets.map (·.weight)).sum := by
  rw [sharing, sum_filter_eq_sum_ite]
  refine congrArg List.sum (List.map_congr_left ?_)
  intro target htarget
  split
  · rfl
  · rename_i hweight
    exact le_antisymm (hweights target htarget) (not_lt.mp hweight)

variable (env targets amountSats totalWeight) in
/-- For every list of targets with distinct items and non-negative weights that add up to the total,
the split of a positive amount is exact, gives each target its share rounded down or one sat more,
nothing to a weight of zero, and to no target less than to a lighter one. -/
theorem allocateIntegerSats_apportions (hitems : (targets.map (·.item)).Nodup)
    (hweights : ∀ target ∈ targets, 0 ≤ target.weight)
    (hsum : (targets.map (·.weight)).sum = totalWeight) (htotal : 0 < totalWeight)
    (hamount : 0 < amountSats) :
    Apportions targets amountSats totalWeight
      (allocateIntegerSats env targets amountSats totalWeight) := by
  have hkeys := @keys_allocateIntegerSats env _ _ _ hitems hamount htotal
  have hzero : ∀ target ∈ targets, target ∉ sharing targets → target.weight = 0 := by
    intro target htarget hnot
    have hnonpos : ¬0 < target.weight := fun hpos => hnot (mem_sharing.mpr ⟨htarget, hpos⟩)
    exact le_antisymm (not_lt.mp hnonpos) (hweights target htarget)
  constructor
  · -- the targets that share the amount are a split of their own
    have hsharing : sharing targets ≠ [] := by
      intro hnil
      rw [← sum_sharing hweights, hnil] at hsum
      exact htotal.ne hsum
    rw [← sum_lookup_eq_sum_values _ hkeys, ← allocateIntegerSats_sharing]
    exact sum_allocateIntegerSats env _ amountSats totalWeight
      (hitems.sublist (List.filter_sublist.map _)) (fun target ht => (mem_sharing.mp ht).2) hsharing
      hamount ((sum_sharing hweights).trans hsum)
  · intro value hvalue
    obtain ⟨item, hentry⟩ := OrdMap.mem_values.mp hvalue
    have hnonneg := nonneg_allocateIntegerSats env targets amountSats totalWeight item
    rwa [OrdMap.get?_eq_some_iff.mpr hentry, Option.getD_some] at hnonneg
  · intro target htarget hweight
    rw [get?_allocateIntegerSats hitems hamount htotal (mem_sharing.mpr ⟨htarget, hweight⟩)]
    split
    · exact Or.inr rfl
    · rw [add_zero]
      exact Or.inl rfl
  · intro target htarget hweight
    exact get?_allocateIntegerSats_of_zero hitems hamount htotal htarget hweight
  · intro item hitem
    rw [hkeys] at hitem
    obtain ⟨target, htarget, rfl⟩ := List.mem_map.mp hitem
    exact ⟨target, (mem_sharing.mp htarget).1, rfl⟩
  · intro target htarget heavier hheavier hlt
    have hpos : 0 < heavier.weight := (hweights target htarget).trans_lt hlt
    by_cases hshares : target ∈ sharing targets
    · exact monotone_allocateIntegerSats hitems hamount htotal hshares
        (mem_sharing.mpr ⟨hheavier, hpos⟩) hlt
    · rw [get?_allocateIntegerSats_of_zero hitems hamount htotal htarget
        (hzero target htarget hshares), Option.getD_none]
      exact nonneg_allocateIntegerSats env targets amountSats totalWeight heavier.item

/-- Four sats over weights of one, two and nothing. -/
theorem allocateIntegerSats_apportions_sample :
    Apportions [⟨"A", 1⟩, ⟨"B", 2⟩, ⟨"C", 0⟩] 4 3
      (allocateIntegerSats sampleEnv [⟨"A", 1⟩, ⟨"B", 2⟩, ⟨"C", 0⟩] 4 3) :=
  allocateIntegerSats_apportions sampleEnv _ 4 3 (by decide) (by simp) (by norm_num) (by norm_num)
    (by norm_num)

end

end PublicPool.Proofs
