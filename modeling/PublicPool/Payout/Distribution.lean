import PublicPool.Js
import PublicPool.Lib.OrdMap

/-!
# `PublicPool.Payout.Distribution`: who is paid what from a coinbase

The model of `ORM/payout-snapshot/payout-distribution.ts`. `buildPayoutDistribution` takes
the work each address did, the balances carried over from earlier blocks and the value of a
coinbase, and returns one entry for each address that is paid now or keeps a balance.

The stages follow the source. The fee is taken off the top (`feeSats`). The rest is split
over the work by largest remainder (`allocateIntegerSats`), which gives each address its
fair share; with the carried balance that is its target. `allocatePayoutTargets` turns
targets into payouts that fit the reward, `includeEligible` keeps those that fit the weight
budget of the coinbase, and `redistributeUnfitMinerPayouts` spreads what the others would
have got over the kept addresses that did work. The fee entry is merged in last.

Satoshis are integers, difficulties and percentages exact rationals. The weight of an
output depends on the type of its address, which a package outside this repository
decides, as the collation of two addresses is the runtime's; `PayoutEnv` carries both. The
source also memoizes the weight of an address, which changes no result and is left out.
-/

set_option autoImplicit false

namespace PublicPool

open Lib (OrdMap)

/-- The address types `getAddressInfo` tells apart. -/
inductive AddressType
  | p2pkh
  | p2sh
  | p2wpkh
  | p2wsh
  | p2tr
  deriving DecidableEq, Repr

/-- What the distribution takes from outside the repository. -/
structure PayoutEnv where
  /-- The type of an address, or `none` when `getAddressInfo` throws. -/
  getAddressInfo : String → Option AddressType
  /-- `a.localeCompare(b)`. -/
  localeCompare : String → String → ℤ

structure PayoutAddressWork where
  address : String
  creditedDifficulty : ℚ
  acceptedShareCount : ℕ

structure PayoutBalanceInput where
  address : String
  balanceSats : ℤ

structure PayoutDistributionEntry where
  address : String
  creditedDifficulty : ℚ
  acceptedShareCount : ℕ
  payoutWeight : ℚ
  grossPayoutSats : ℤ
  payoutSats : ℤ
  balanceBeforeSats : ℤ
  balanceAfterSats : ℤ
  includedInCoinbase : Bool
  rank : ℕ
  deriving DecidableEq

structure PayoutDistributionResult where
  entries : List PayoutDistributionEntry
  payoutOutputs : List PayoutDistributionEntry
  consideredAddressCount : ℕ
  distributedSats : ℤ
  unallocatedRemainderSats : ℤ
  feeSats : ℤ
  deriving DecidableEq

structure PayoutDistributionInput where
  addressWork : List PayoutAddressWork
  balances : List PayoutBalanceInput
  coinbaseValueSats : ℤ
  feeAddress : Option String
  feePercent : ℚ
  minOutputSats : ℚ
  coinbaseWeightBudget : ℚ

def defaultCoinbaseWeightBudget : ℚ := 50000
def dustLimitSats : ℤ := 546
def coinbaseBaseWeight : ℕ := 328
def coinbaseWitnessCommitmentWeight : ℕ := 188
def coinbaseOutputWeight : ℕ := 172
def budgetSafetyMarginWeight : ℚ := 200

/-- `OUTPUT_WEIGHT_BY_TYPE`. -/
def outputWeightByType : AddressType → ℕ
  | .p2wpkh => 124
  | .p2sh => 128
  | .p2pkh => 136
  | .p2wsh => 172
  | .p2tr => 172

/-- The weight of an output that pays `address`. An address the library rejects counts as
the heaviest kind. -/
def outputWeightForAddress (env : PayoutEnv) (address : String) : ℕ :=
  if address = "" then coinbaseOutputWeight
  else match env.getAddressInfo address with
    | some type => outputWeightByType type
    | none => coinbaseOutputWeight

/-- The difficulty and share count of one address while the work is summed up. -/
structure CreditedWork where
  creditedDifficulty : ℚ
  acceptedShareCount : ℕ

/-- The work so far with one more row. Rows without an address or without work are
skipped. -/
def addWork (workByAddress : OrdMap String CreditedWork) (work : PayoutAddressWork) :
    OrdMap String CreditedWork :=
  if work.address = "" ∨ work.creditedDifficulty ≤ 0 then workByAddress
  else
    let existing := (workByAddress.get? work.address).getD ⟨0, 0⟩
    workByAddress.set work.address
      { creditedDifficulty := existing.creditedDifficulty + work.creditedDifficulty
        acceptedShareCount := existing.acceptedShareCount + work.acceptedShareCount }

/-- The balances so far with one more. Zero balances are skipped. -/
def addBalance (balanceByAddress : OrdMap String ℤ) (balance : PayoutBalanceInput) :
    OrdMap String ℤ :=
  if balance.address ≠ "" ∧ balance.balanceSats ≠ 0 then
    balanceByAddress.set balance.address balance.balanceSats
  else balanceByAddress

/-- The row of one address while the distribution is computed. -/
structure ComputedAddress where
  address : String
  creditedDifficulty : ℚ
  acceptedShareCount : ℕ
  payoutWeight : ℚ
  rawFairSats : ℤ
  balanceBeforeSats : ℤ
  targetSats : ℤ
  payoutSats : ℤ
  balanceAfterSats : ℤ
  includedInCoinbase : Bool

structure AllocationTarget where
  item : String
  weight : ℚ

/-! ### Largest remainder -/

/-- A target with the part of its exact share that rounding down cuts off. -/
structure AllocationFraction where
  item : String
  weight : ℚ
  fraction : ℚ

/-- One more sat for each target in turn while any are left. -/
def handOutResidual : List AllocationFraction → ℤ → OrdMap String ℤ → OrdMap String ℤ
  | [], _, result => result
  | target :: fractions, residual, result =>
    if residual ≤ 0 then result
    else handOutResidual fractions (residual - 1)
      (result.set target.item ((result.get? target.item).getD 0 + 1))

/-- Split `amountSats` over the targets in proportion to their weights, by largest
remainder. -/
def allocateIntegerSats (env : PayoutEnv) (targets : List AllocationTarget) (amountSats : ℤ)
    (totalWeight : ℚ) : OrdMap String ℤ :=
  if amountSats ≤ 0 ∨ totalWeight ≤ 0 then .empty
  else
    let positive := targets.filter fun target => 0 < target.weight
    let exact (target : AllocationTarget) : ℚ := target.weight * amountSats / totalWeight
    let assigned := (positive.map fun target => ⌊exact target⌋).sum
    let result := OrdMap.empty.setAll (positive.map fun target => (target.item, ⌊exact target⌋))
    let fractions := Js.sort
      (fun a b => Js.orElse (b.fraction - a.fraction)
        (Js.orElse (b.weight - a.weight) (env.localeCompare a.item b.item)))
      (positive.map fun target =>
        { item := target.item, weight := target.weight
          fraction := exact target - ⌊exact target⌋ })
    handOutResidual fractions (amountSats - assigned) result

/-! ### The stages -/

abbrev Computations := OrdMap String ComputedAddress

/-- The allocation targets of some rows, weighted by `weight`. -/
def targetsOf (rows : List ComputedAddress) (weight : ComputedAddress → ℚ) :
    List AllocationTarget :=
  rows.map fun row => { item := row.address, weight := weight row }

/-- Turn targets into payouts that add up to at most the reward. Positive targets are paid
in full when they fit, with any surplus shared by work; otherwise they are scaled down.
When no target is positive the reward goes to the work alone. -/
def allocatePayoutTargets (env : PayoutEnv) (computations : Computations)
    (minerRewardSats : ℤ) (totalCreditedDifficulty : ℚ) : Computations :=
  let positiveTargets := computations.values.filter fun row => 0 < row.targetSats
  let totalPositiveTarget := (positiveTargets.map (·.targetSats)).sum
  if totalPositiveTarget ≤ 0 then
    let activeRows := computations.values.filter fun row => 0 < row.creditedDifficulty
    let activeAllocations := allocateIntegerSats env
      (targetsOf activeRows (·.creditedDifficulty)) minerRewardSats totalCreditedDifficulty
    computations.mapValues fun _ row =>
      if 0 < row.creditedDifficulty then
        let payoutSats := (activeAllocations.get? row.address).getD 0
        { row with payoutSats, balanceAfterSats := row.targetSats - payoutSats }
      else row
  else if totalPositiveTarget ≤ minerRewardSats then
    let paid := computations.mapValues fun _ row =>
      if 0 < row.targetSats then
        { row with payoutSats := row.targetSats, balanceAfterSats := 0 }
      else row
    let surplus := minerRewardSats - totalPositiveTarget
    if surplus ≤ 0 then paid
    else
      let activeRows := positiveTargets.filter fun row => 0 < row.creditedDifficulty
      let activeWeight := (activeRows.map (·.creditedDifficulty)).sum
      let surplusAllocations := allocateIntegerSats env
        (targetsOf activeRows (·.creditedDifficulty)) surplus activeWeight
      paid.mapValues fun _ row =>
        if 0 < row.targetSats ∧ 0 < row.creditedDifficulty then
          let extra := (surplusAllocations.get? row.address).getD 0
          { row with
            payoutSats := row.payoutSats + extra
            balanceAfterSats := row.balanceAfterSats - extra }
        else row
  else
    let cappedAllocations := allocateIntegerSats env
      (targetsOf positiveTargets fun row => row.targetSats) minerRewardSats totalPositiveTarget
    computations.mapValues fun _ row =>
      if 0 < row.targetSats then
        let payoutSats := (cappedAllocations.get? row.address).getD 0
        { row with payoutSats, balanceAfterSats := row.targetSats - payoutSats }
      else row

/-- The order in which payouts claim the weight budget and, later, appear as outputs. -/
def comparePayouts (env : PayoutEnv) (a b : ComputedAddress) : ℚ :=
  Js.orElse (b.payoutSats - a.payoutSats)
    (Js.orElse (b.targetSats - a.targetSats) (env.localeCompare a.address b.address))

/-- Take each eligible row into the coinbase unless it no longer fits the budget. -/
def includeEligible (env : PayoutEnv) (effectiveBudget : ℚ) :
    List ComputedAddress → ℕ → Computations → Computations
  | [], _, computations => computations
  | row :: eligible, usedWeight, computations =>
    let outputWeight := outputWeightForAddress env row.address
    if effectiveBudget < (usedWeight + outputWeight : ℕ) then
      includeEligible env effectiveBudget eligible usedWeight
        (computations.modify row.address fun row => { row with balanceAfterSats := row.targetSats })
    else
      includeEligible env effectiveBudget eligible (usedWeight + outputWeight)
        (computations.modify row.address fun row =>
          { row with
            includedInCoinbase := true
            balanceAfterSats := row.targetSats - row.payoutSats })

/-- The rows that did not make it into the coinbase are paid nothing. -/
def resetUnfit (computations : Computations) : Computations :=
  computations.mapValues fun _ row =>
    if ¬ row.includedInCoinbase ∧ 0 < row.payoutSats then
      { row with payoutSats := 0, balanceAfterSats := row.targetSats }
    else row

/-- Spread what is left of the reward over the kept rows that did work. -/
def redistributeUnfitMinerPayouts (env : PayoutEnv) (computations : Computations)
    (minerRewardSats : ℤ) : Computations :=
  let distributedToMiners :=
    ((computations.values.filter (·.includedInCoinbase)).map (·.payoutSats)).sum
  let remainder := minerRewardSats - distributedToMiners
  if remainder ≤ 0 then computations
  else
    let keptActive := computations.values.filter fun row =>
      row.includedInCoinbase ∧ 0 < row.creditedDifficulty
    let keptDifficulty := (keptActive.map (·.creditedDifficulty)).sum
    if keptDifficulty ≤ 0 then computations
    else
      let bonusAllocations := allocateIntegerSats env
        (targetsOf keptActive (·.creditedDifficulty)) remainder keptDifficulty
      computations.mapValues fun _ row =>
        if row.includedInCoinbase ∧ 0 < row.creditedDifficulty then
          let bonus := (bonusAllocations.get? row.address).getD 0
          { row with
            payoutSats := row.payoutSats + bonus
            balanceAfterSats := row.balanceAfterSats - bonus }
        else row

/-- Add the fee to the first entry with a property. -/
def addFeeToFirst (feeEntry : PayoutDistributionEntry) (p : PayoutDistributionEntry → Bool) :
    List PayoutDistributionEntry → List PayoutDistributionEntry
  | [] => []
  | entry :: entries =>
    if p entry then
      { entry with
        payoutSats := entry.payoutSats + feeEntry.payoutSats
        grossPayoutSats := entry.grossPayoutSats + feeEntry.grossPayoutSats } :: entries
    else entry :: addFeeToFirst feeEntry p entries

/-- The fee joins the output that already pays the fee address, or goes first. -/
def mergeFeeEntry (feeEntry : PayoutDistributionEntry)
    (minerEntries : List PayoutDistributionEntry) : List PayoutDistributionEntry :=
  let paysFeeAddress (entry : PayoutDistributionEntry) : Bool :=
    decide (entry.address = feeEntry.address) && entry.includedInCoinbase
  if (minerEntries.find? paysFeeAddress).isNone then feeEntry :: minerEntries
  else addFeeToFirst feeEntry paysFeeAddress minerEntries

/-! ### The whole distribution -/

namespace PayoutDistributionInput

variable (input : PayoutDistributionInput)

/-- `coinbaseValueSats` as the distribution uses it. -/
def coinbaseValue : ℤ := max 0 input.coinbaseValueSats

/-- `minOutputSats` as the distribution uses it: never below the dust limit. -/
def minOutput : ℤ := max dustLimitSats ⌊input.minOutputSats⌋

/-- `coinbaseWeightBudget` as the distribution uses it. -/
def weightBudget : ℚ :=
  if 0 < input.coinbaseWeightBudget then input.coinbaseWeightBudget
  else defaultCoinbaseWeightBudget

/-- `feePercent` as the distribution uses it. -/
def fee : ℚ := if 0 < input.feePercent then input.feePercent else 0

/-- `feeAddress` as the distribution uses it, empty when there is none. -/
def feeOutputAddress : String := (input.feeAddress.map Js.trim).getD ""

def wantedFeeSats : ℤ := ⌊input.fee / 100 * input.coinbaseValue⌋

/-- The fee is taken only when there is an address for it and it is no dust. -/
def feeSats : ℤ :=
  if input.feeOutputAddress ≠ "" ∧ input.minOutput ≤ input.wantedFeeSats then input.wantedFeeSats
  else 0

def minerRewardSats : ℤ := input.coinbaseValue - input.feeSats

/-- The work of each address, summed over its rows. -/
def workByAddress : OrdMap String CreditedWork :=
  input.addressWork.foldl addWork .empty

/-- The non-zero balances. -/
def balanceByAddress : OrdMap String ℤ :=
  input.balances.foldl addBalance .empty

def totalCreditedDifficulty : ℚ := (input.workByAddress.values.map (·.creditedDifficulty)).sum

/-- The addresses with work or a balance, those with work first. -/
def considered : List String :=
  input.workByAddress.keys ++
    input.balanceByAddress.keys.filter fun address => address ∉ input.workByAddress.keys

theorem nodup_considered : input.considered.Nodup := by
  refine List.nodup_append.mpr ⟨input.workByAddress.nodup,
    input.balanceByAddress.nodup.filter _, ?_⟩
  rintro a ha b hb rfl
  simp [ha] at hb

/-- The fair share of each address with work. -/
def fairShareSats (env : PayoutEnv) : OrdMap String ℤ :=
  allocateIntegerSats env
    (input.workByAddress.entries.map fun e => { item := e.1, weight := e.2.creditedDifficulty })
    input.minerRewardSats input.totalCreditedDifficulty

/-- The row of `address` before any payout. -/
def computedAddress (env : PayoutEnv) (address : String) : ComputedAddress :=
  let work := input.workByAddress.get? address
  let creditedDifficulty := (work.map (·.creditedDifficulty)).getD 0
  let rawFairSats := ((input.fairShareSats env).get? address).getD 0
  let balanceBeforeSats := (input.balanceByAddress.get? address).getD 0
  { address
    creditedDifficulty
    acceptedShareCount := (work.map (·.acceptedShareCount)).getD 0
    payoutWeight :=
      if 0 < creditedDifficulty then creditedDifficulty / input.totalCreditedDifficulty else 0
    rawFairSats
    balanceBeforeSats
    targetSats := rawFairSats + balanceBeforeSats
    payoutSats := 0
    balanceAfterSats := rawFairSats + balanceBeforeSats
    includedInCoinbase := false }

/-- The rows before any payout. -/
def computations (env : PayoutEnv) : Computations :=
  .ofKeys input.considered input.nodup_considered (input.computedAddress env)

/-- The rows after the payouts are fitted to the reward. -/
def targeted (env : PayoutEnv) : Computations :=
  allocatePayoutTargets env (input.computations env) input.minerRewardSats
    input.totalCreditedDifficulty

/-- The rows that may become outputs, in the order they are tried. -/
def eligible (env : PayoutEnv) : List ComputedAddress :=
  Js.sort (comparePayouts env) ((input.targeted env).values.filter fun row =>
    0 < row.payoutSats ∧ (0 < row.creditedDifficulty ∨ input.minOutput ≤ row.payoutSats))

/-- The weight of the coinbase before any miner output. -/
def usedWeight (env : PayoutEnv) : ℕ :=
  coinbaseBaseWeight + coinbaseWitnessCommitmentWeight +
    if 0 < input.feeSats then outputWeightForAddress env input.feeOutputAddress else 0

/-- The rows after the selection of outputs. -/
def selected (env : PayoutEnv) : Computations :=
  resetUnfit (includeEligible env (input.weightBudget - budgetSafetyMarginWeight)
    (input.eligible env) (input.usedWeight env) (input.targeted env))

/-- The rows after the redistribution. -/
def settled (env : PayoutEnv) : Computations :=
  redistributeUnfitMinerPayouts env (input.selected env) input.minerRewardSats

/-- The entry of the pool fee. -/
def feeEntry : PayoutDistributionEntry :=
  { address := input.feeOutputAddress
    creditedDifficulty := 0
    acceptedShareCount := 0
    payoutWeight := 0
    grossPayoutSats := input.feeSats
    payoutSats := input.feeSats
    balanceBeforeSats := 0
    balanceAfterSats := 0
    includedInCoinbase := true
    rank := 1 }

/-- The entry a row becomes. -/
def minerEntry (row : ComputedAddress) : PayoutDistributionEntry :=
  { address := row.address
    creditedDifficulty := row.creditedDifficulty
    acceptedShareCount := row.acceptedShareCount
    payoutWeight := row.payoutWeight
    grossPayoutSats := row.rawFairSats
    payoutSats := row.payoutSats
    balanceBeforeSats := row.balanceBeforeSats
    balanceAfterSats := row.balanceAfterSats
    includedInCoinbase := row.includedInCoinbase
    rank := 0 }

/-- The rows that are paid or keep a balance, outputs first. -/
def minerEntries (env : PayoutEnv) : List PayoutDistributionEntry :=
  (Js.sort
    (fun a b =>
      if a.includedInCoinbase ≠ b.includedInCoinbase then
        if a.includedInCoinbase then -1 else 1
      else comparePayouts env a b)
    ((input.settled env).values.filter fun row =>
      row.includedInCoinbase ∨ row.balanceBeforeSats ≠ row.balanceAfterSats ∨
        row.balanceAfterSats ≠ 0)).map minerEntry

def mergedEntries (env : PayoutEnv) : List PayoutDistributionEntry :=
  if 0 < input.feeSats then mergeFeeEntry input.feeEntry (input.minerEntries env)
  else input.minerEntries env

/-- The merged entries with their ranks. -/
def rankedEntries (env : PayoutEnv) : List PayoutDistributionEntry :=
  (input.mergedEntries env).mapIdx fun index entry => { entry with rank := index + 1 }

end PayoutDistributionInput

open PayoutDistributionInput in
/-- The distribution of one coinbase. -/
def buildPayoutDistribution (env : PayoutEnv) (input : PayoutDistributionInput) :
    PayoutDistributionResult :=
  if input.coinbaseValue ≤ 0 ∨ input.totalCreditedDifficulty ≤ 0 then
    { entries := []
      payoutOutputs := []
      consideredAddressCount := 0
      distributedSats := 0
      unallocatedRemainderSats := input.coinbaseValue
      feeSats := input.feeSats }
  else
    let entries := input.rankedEntries env
    let payoutOutputs := entries.filter (·.includedInCoinbase)
    let distributedSats := (payoutOutputs.map (·.payoutSats)).sum
    { entries
      payoutOutputs
      consideredAddressCount := input.considered.length
      distributedSats
      unallocatedRemainderSats := input.coinbaseValue - distributedSats
      feeSats := input.feeSats }

end PublicPool
