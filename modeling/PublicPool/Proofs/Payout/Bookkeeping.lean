import PublicPool.Proofs.Payout.DistinctEntries
import PublicPool.Proofs.Payout.OutputLimit

/-!
# `PublicPool.Proofs.Payout.Bookkeeping`: the books of a coinbase

A distribution books, for each address, its share of the reward, its payout and its balance
before and after. `BooksKept` is what these books owe each other: each entry carries over what it
does not pay, the shares add up to the coinbase value, and so the balances change by what the
coinbase leaves unpaid, which is nothing as soon as somebody with work is kept. Who has no entry
is owed nothing.

The five stages of `buildPayoutDistribution` and `limitCoinbaseOutputs` move sats between the
payout and the balance of an entry, so `EntryBalanced` survives them; the shares are set once, by
a split that hands out all of the reward of the miners (`sum_fairShares`). Nothing is booked
when there is no work, and then an address keeps its balance without an entry
(`not_keepsBooks`).
-/

set_option autoImplicit false

namespace PublicPool.Proofs

open Lib
open PayoutDistributionInput

variable (env : PayoutEnv)

/-- What the balances of some entries change by. -/
def balanceChange (entries : List PayoutDistributionEntry) : ℤ :=
  (entries.map fun entry => entry.balanceAfterSats - entry.balanceBeforeSats).sum

/-- What the books of a distribution owe each other when the shares are worth `reward`. -/
structure BooksKept (reward : ℤ) (entries : List PayoutDistributionEntry) : Prop where
  gross : (entries.map (·.grossPayoutSats)).sum = reward
  change : balanceChange entries = reward - (entries.map (·.payoutSats)).sum
  conserved : (∃ entry ∈ entries, entry.includedInCoinbase = true ∧ 0 < entry.creditedDifficulty) →
    balanceChange entries = 0

/-- An address that is owed nothing: it has no share, and no balance before or after. -/
structure OwedNothing (input : PayoutDistributionInput) (address : String) : Prop where
  before : carriedBalanceOf input address = 0
  share : fairShareOf env input address = 0
  after : ∀ row, (input.settled env).get? address = some row → row.balanceAfterSats = 0

/-- Balanced entries change the balances by what they do not pay of their shares. -/
theorem balanceChange_eq {entries : List PayoutDistributionEntry}
    (h : ∀ entry ∈ entries, EntryBalanced entry) :
    balanceChange entries
      = (entries.map (·.grossPayoutSats)).sum - (entries.map (·.payoutSats)).sum := by
  unfold balanceChange
  induction entries with
  | nil => rfl
  | cons entry entries ih =>
    obtain ⟨⟨hcarried, -⟩, hrest⟩ := List.forall_mem_cons.mp h
    rw [List.map_cons, List.map_cons, List.map_cons, List.sum_cons, List.sum_cons, List.sum_cons,
      ih hrest]
    omega

/-! ### The shares -/

section
variable (input : PayoutDistributionInput)

/-- The shares of the addresses with work are all of the reward. -/
theorem sum_fairShares (hwork : 0 < input.totalCreditedDifficulty)
    (hreward : 0 < input.minerRewardSats) :
    (input.workByAddress.keys.map (fairShareOf env input)).sum = input.minerRewardSats := by
  have hsplit := sum_allocateIntegerSats env
    (input.workByAddress.entries.map fun e => { item := e.1, weight := e.2.creditedDifficulty })
    input.minerRewardSats input.totalCreditedDifficulty ?_ ?_ ?_ hreward ?_
  · rw [List.map_map] at hsplit
    rw [OrdMap.keys, List.map_map]
    exact hsplit
  · rw [List.map_map]
    exact input.workByAddress.nodup
  · intro target htarget
    obtain ⟨e, he, rfl⟩ := List.mem_map.mp htarget
    exact pos_workByAddress input e he
  · intro hnil
    rw [List.map_eq_nil_iff] at hnil
    rw [totalCreditedDifficulty, OrdMap.values, hnil] at hwork
    exact lt_irrefl _ hwork
  · rw [List.map_map, totalCreditedDifficulty, OrdMap.values, List.map_map]
    rfl

/-- The settled rows are the rows of the considered addresses. -/
theorem keys_settled_perm : (input.settled env).keys.Perm input.considered := by
  refine (List.perm_ext_iff_of_nodup (input.settled env).nodup input.nodup_considered).mpr
    fun address => ?_
  show address ∈ (input.settled env).keys ↔ _
  rw [← OrdMap.get?_isSome_iff, Option.isSome_iff_exists]
  constructor
  · rintro ⟨row, hrow⟩
    exact (settledRow_of_get? env input hrow).considered
  · exact exists_settledRow env input

/-- The settled rows hold the whole reward as shares. -/
theorem sum_rawFairSats_settled (hwork : 0 < input.totalCreditedDifficulty)
    (hreward : 0 < input.minerRewardSats) :
    ((input.settled env).values.map (·.rawFairSats)).sum = input.minerRewardSats := by
  have hkeys : (input.settled env).values.map (·.rawFairSats)
      = (input.settled env).keys.map (fairShareOf env input) := by
    rw [map_values_eq _ _ 0]
    refine List.map_congr_left fun address haddress => ?_
    obtain ⟨row, hrow⟩ := Option.isSome_iff_exists.mp (OrdMap.get?_isSome_iff.mpr haddress)
    rw [hrow]
    exact (settledRow_of_get? env input hrow).fairShare
  rw [hkeys, ((keys_settled_perm env input).map _).sum_eq, considered, List.map_append,
    List.sum_append, sum_fairShares env input hwork hreward]
  -- an address that only carries a balance has no share
  have hrest : ((input.balanceByAddress.keys.filter fun address =>
      address ∉ input.workByAddress.keys).map (fairShareOf env input)).sum = 0 := by
    refine List.sum_eq_zero fun x hx => ?_
    obtain ⟨address, haddress, rfl⟩ := List.mem_map.mp hx
    have hno : address ∉ input.workByAddress.keys := by
      simpa using (List.mem_filter.mp haddress).2
    by_contra hshare
    exact hno (mem_keys_of_fairShare env input hshare)
  rw [hrest, add_zero]

/-- A row that leaves no entry has no share. -/
theorem rawFairSats_eq_zero {row : ComputedAddress} (hrow : row ∈ (input.settled env).values)
    (hleft : ¬ (row.includedInCoinbase = true ∨ row.balanceBeforeSats ≠ row.balanceAfterSats ∨
      row.balanceAfterSats ≠ 0)) : row.rawFairSats = 0 := by
  obtain ⟨hexcluded, hleft⟩ := not_or.mp hleft
  have hafter := balanceAfter_settled env input hrow (Bool.eq_false_iff.mpr hexcluded)
  omega

/-- The entries of the miners hold all the shares. -/
theorem sum_gross_minerEntries :
    ((input.minerEntries env).map (·.grossPayoutSats)).sum
      = ((input.settled env).values.map (·.rawFairSats)).sum := by
  rw [minerEntries, List.map_map, ((Js.sort_perm _ _).map _).sum_eq, sum_filter_eq_sum_ite]
  refine congrArg List.sum (List.map_congr_left fun row hrow => ?_)
  split
  · rfl
  · rename_i hleft
    exact (rawFairSats_eq_zero env input hrow hleft).symm

/-- With the fee, the shares are the coinbase value. -/
theorem sum_gross_rankedEntries (hwork : 0 < input.totalCreditedDifficulty)
    (hreward : 0 < input.minerRewardSats) :
    ((input.rankedEntries env).map (·.grossPayoutSats)).sum = input.coinbaseValue := by
  have hfee := nonneg_feeSats input
  rw [map_rankedEntries env input fun _ _ => rfl,
    sum_mergedEntries env input (fun _ => add_comm _ _)
      (fun hnone => le_antisymm (not_lt.mp hnone) hfee),
    sum_gross_minerEntries, sum_rawFairSats_settled env input hwork hreward]
  show input.feeSats + (input.coinbaseValue - input.feeSats) = input.coinbaseValue
  omega

/-- An address without an entry is owed nothing. -/
theorem owedNothing_of_notMem {address : String}
    (h : address ∉ (input.rankedEntries env).map (·.address)) : OwedNothing env input address := by
  rw [map_rankedEntries env input fun _ _ => rfl] at h
  have hminer : address ∉ (input.minerEntries env).map (·.address) := by
    intro hmem
    refine h ?_
    unfold mergedEntries
    split
    · simp only [mergeFeeEntry]
      split
      · exact List.mem_cons_of_mem _ hmem
      · rw [map_addFeeToFirst fun _ _ _ => rfl]
        exact hmem
    · exact hmem
  obtain ⟨hexcluded, hnothing⟩ := not_or.mp ((mem_minerEntries_iff env input address).not.mp hminer)
  obtain ⟨hshare, hbefore⟩ := not_or.mp hnothing
  have hshare : fairShareOf env input address = 0 := not_not.mp hshare
  have hbefore : carriedBalanceOf input address = 0 := not_not.mp hbefore
  refine ⟨hbefore, hshare, fun row hget => ?_⟩
  have hrow := settledRow_of_get? env input hget
  have hafter := balanceAfter_settled env input
    (OrdMap.mem_values.mpr ⟨_, OrdMap.get?_eq_some_iff.mp hget⟩)
    (Bool.eq_false_iff.mpr fun hinc => hexcluded (hrow.chosen.mp hinc))
  rw [hafter, hrow.fairShare, hrow.carried, hshare, hbefore]
  rfl

end

/-! ### The books of the limited entries -/

section
variable {entries : List PayoutDistributionEntry} {reward : ℤ}

variable (config : PayoutConfig)

/-- Limiting leaves the addresses and the shares of the entries alone. -/
theorem map_limitCoinbaseOutputs_eq
    (hpaid : ∀ entry ∈ entries, entry.includedInCoinbase = true → 0 < entry.payoutSats) :
    (limitCoinbaseOutputs env config entries).map (fun entry =>
        (entry.address, entry.grossPayoutSats))
      = entries.map fun entry => (entry.address, entry.grossPayoutSats) := by
  rw [map_limitCoinbaseOutputs env config hpaid fun _ _ _ => rfl]
  refine List.ext_getElem? fun i => ?_
  rw [List.getElem?_map, List.getElem?_map, getElem?_dropOutputs, Option.map_map]
  refine congrArg (Option.map · _) (funext fun entry => ?_)
  rw [Function.comp_apply]
  split <;> rfl

theorem map_gross_limitCoinbaseOutputs
    (hpaid : ∀ entry ∈ entries, entry.includedInCoinbase = true → 0 < entry.payoutSats) :
    (limitCoinbaseOutputs env config entries).map (·.grossPayoutSats)
      = entries.map (·.grossPayoutSats) := by
  have hread := congrArg (List.map Prod.snd) (map_limitCoinbaseOutputs_eq env config hpaid)
  rw [List.map_map, List.map_map] at hread
  exact hread

theorem map_address_limitCoinbaseOutputs
    (hpaid : ∀ entry ∈ entries, entry.includedInCoinbase = true → 0 < entry.payoutSats) :
    (limitCoinbaseOutputs env config entries).map (·.address) = entries.map (·.address) := by
  have hread := congrArg (List.map Prod.fst) (map_limitCoinbaseOutputs_eq env config hpaid)
  rw [List.map_map, List.map_map] at hread
  exact hread

/-- Limiting the outputs keeps the books. -/
theorem booksKept_limitCoinbaseOutputs
    (hpaid : ∀ entry ∈ entries, entry.includedInCoinbase = true → 0 < entry.payoutSats)
    (hbalanced : ∀ entry ∈ entries, EntryBalanced entry)
    (hgross : (entries.map (·.grossPayoutSats)).sum = reward)
    (hspent : (∃ entry ∈ outputsOf entries, 0 < entry.creditedDifficulty) →
      ((outputsOf entries).map (·.payoutSats)).sum = reward) :
    BooksKept reward (limitCoinbaseOutputs env config entries) := by
  have hlimited := limitCoinbaseOutputs_limited env config hpaid
  have hbalanced' := entryBalanced_limitCoinbaseOutputs env config hbalanced
  have hgross' : ((limitCoinbaseOutputs env config entries).map (·.grossPayoutSats)).sum = reward := by
    rw [map_gross_limitCoinbaseOutputs env config hpaid, hgross]
  have hchange := balanceChange_eq hbalanced'
  rw [hgross'] at hchange
  refine ⟨hgross', hchange, ?_⟩
  rintro ⟨entry', hmem', hincluded', hwork'⟩
  have hkept : ∃ entry ∈ outputsOf (limitCoinbaseOutputs env config entries),
      0 < entry.creditedDifficulty := ⟨entry', mem_outputsOf.mpr ⟨hmem', hincluded'⟩, hwork'⟩
  -- the worker was an output before
  have hbefore : ∃ entry ∈ outputsOf entries, 0 < entry.creditedDifficulty := by
    obtain ⟨i, hentry'⟩ := List.mem_iff_getElem?.mp hmem'
    have hi := (List.getElem?_eq_some_iff.mp hentry').1
    rw [hlimited.length] at hi
    have hentry : entries[i]? = some entries[i] := List.getElem?_eq_getElem hi
    obtain ⟨extra, -, heq⟩ := hlimited.kept i _ _ hentry hentry' hincluded'
    rw [heq] at hwork' hincluded'
    exact ⟨entries[i], mem_outputsOf.mpr ⟨List.getElem_mem hi, hincluded'⟩, hwork'⟩
  have hsum := hlimited.conserved hkept
  rw [hspent hbefore, outputsOf, sum_outputs fun entry hentry => (hbalanced' entry hentry).unpaid]
    at hsum
  omega

/-- The books of some entries that are not limited. -/
theorem booksKept_entries (hbalanced : ∀ entry ∈ entries, EntryBalanced entry)
    (hgross : (entries.map (·.grossPayoutSats)).sum = reward)
    (hspent : (∃ entry ∈ outputsOf entries, 0 < entry.creditedDifficulty) →
      ((outputsOf entries).map (·.payoutSats)).sum = reward) : BooksKept reward entries := by
  have hchange := balanceChange_eq hbalanced
  rw [hgross] at hchange
  refine ⟨hgross, hchange, ?_⟩
  rintro ⟨entry, hmem, hincluded, hwork⟩
  have hsum := hspent ⟨entry, mem_outputsOf.mpr ⟨hmem, hincluded⟩, hwork⟩
  rw [outputsOf, sum_outputs fun entry hentry => (hbalanced entry hentry).unpaid] at hsum
  omega

end

/-! ### The books of a distribution -/

section
variable (input : PayoutDistributionInput)

/-- An output is paid something, also when the fee takes more than the coinbase value. -/
theorem paid_rankedEntries (hvalue : 0 < input.coinbaseValue) :
    ∀ entry ∈ input.rankedEntries env, entry.includedInCoinbase = true → 0 < entry.payoutSats := by
  intro entry hentry hincluded
  by_cases hreward : 0 ≤ input.minerRewardSats
  · have hsettled := (selected_settled env input hreward).1
    exact (entryPaid_rankedEntries env input hsettled entry hentry).paid hincluded
  · have hoverdrawn := not_le.mp hreward
    have houtput : entry ∈ outputsOf (input.rankedEntries env) :=
      mem_outputsOf.mpr ⟨hentry, hincluded⟩
    rw [outputs_of_excessiveFee env input hvalue hoverdrawn, List.mem_singleton] at houtput
    rw [houtput]
    show 0 < input.feeSats
    unfold minerRewardSats at hoverdrawn
    omega

/-- An output for somebody with work means that the whole coinbase value is paid out. -/
theorem spent_rankedEntries (hreward : 0 ≤ input.minerRewardSats)
    (hworker : ∃ entry ∈ outputsOf (input.rankedEntries env), 0 < entry.creditedDifficulty) :
    ((outputsOf (input.rankedEntries env)).map (·.payoutSats)).sum = input.coinbaseValue := by
  obtain ⟨hsettled, hspent⟩ := selected_settled env input hreward
  have hsum := sum_outputs_rankedEntries env input hsettled (nonneg_feeSats input)
  rw [hspent ((exists_worker_iff env input).mp hworker)] at hsum
  refine hsum.trans ?_
  show input.feeSats + (input.coinbaseValue - input.feeSats) = input.coinbaseValue
  omega

theorem entries_of_pos (hwork : 0 < input.totalCreditedDifficulty)
    (hvalue : 0 < input.coinbaseValue) :
    (buildPayoutDistribution env input).entries = input.rankedEntries env :=
  entries_of_something env (not_or.mpr ⟨not_le.mpr hvalue, not_le.mpr hwork⟩)

/-- The entries of the distribution of `input`, as they are or with their outputs limited. -/
def EntriesFor (entries : List PayoutDistributionEntry) : Prop :=
  entries = (buildPayoutDistribution env input).entries ∨
    ∃ config : PayoutConfig,
      entries = limitCoinbaseOutputs env config (buildPayoutDistribution env input).entries

/-- The entries keep the books of each address: what is not paid is carried over, the books of a
reward are kept, and who has no entry is owed nothing. -/
def KeepsBooks (entries : List PayoutDistributionEntry) : Prop :=
  (∀ entry ∈ entries, entry.balanceAfterSats
      = entry.balanceBeforeSats + entry.grossPayoutSats - entry.payoutSats) ∧
    (0 < input.totalCreditedDifficulty → 0 < input.minerRewardSats →
      BooksKept input.coinbaseValueSats entries) ∧
    ∀ address, address ∉ entries.map (·.address) → OwedNothing env input address

/-- Every distribution carries over what it does not pay, limited or not. When there is work and
a reward for the miners, the shares add up to the coinbase value, the balances change by what is
not paid of it, and they do not change in total once somebody with work is kept. When something
is distributed at all, who has no entry is owed nothing. -/
theorem distribution_keepsBooks {entries : List PayoutDistributionEntry}
    (hentries : EntriesFor env input entries) :
    (∀ entry ∈ entries, entry.balanceAfterSats
        = entry.balanceBeforeSats + entry.grossPayoutSats - entry.payoutSats) ∧
      (0 < input.totalCreditedDifficulty → 0 < input.minerRewardSats →
        BooksKept input.coinbaseValueSats entries) ∧
      (0 < input.totalCreditedDifficulty → 0 < input.coinbaseValueSats →
        ∀ address, address ∉ entries.map (·.address) → OwedNothing env input address) := by
  have hbalanced := entryBalanced_buildPayoutDistribution env input
  refine ⟨?_, fun hwork hreward => ?_, fun hwork hvalue address haddress => ?_⟩
  · have hcarried : ∀ entry ∈ entries, EntryBalanced entry := by
      rcases hentries with rfl | ⟨config, rfl⟩
      · exact hbalanced
      · exact entryBalanced_limitCoinbaseOutputs env config hbalanced
    intro entry hentry
    rw [(hcarried entry hentry).carried, add_sub_assoc]
  · have hfee := nonneg_feeSats input
    have hvalue : 0 < input.coinbaseValue := by
      unfold minerRewardSats at hreward
      omega
    have hsame : input.coinbaseValue = input.coinbaseValueSats := by
      unfold coinbaseValue at hvalue ⊢
      omega
    have hgross := sum_gross_rankedEntries env input hwork hreward
    have hspent := spent_rankedEntries env input hreward.le
    unfold EntriesFor at hentries
    rw [entries_of_pos env input hwork hvalue] at hentries hbalanced
    rw [hsame] at hgross hspent
    rcases hentries with rfl | ⟨config, rfl⟩
    · exact booksKept_entries hbalanced hgross hspent
    · exact booksKept_limitCoinbaseOutputs env config (paid_rankedEntries env input hvalue)
        hbalanced hgross hspent
  · have hvalue : 0 < input.coinbaseValue := by
      unfold coinbaseValue
      omega
    unfold EntriesFor at hentries
    rw [entries_of_pos env input hwork hvalue] at hentries
    refine owedNothing_of_notMem env input ?_
    rcases hentries with rfl | ⟨config, rfl⟩
    · exact haddress
    · rwa [map_address_limitCoinbaseOutputs env config (paid_rankedEntries env input hvalue)]
        at haddress

end

/-- The output of the third miner goes when there is room for two. -/
theorem distribution_keepsBooks_sample :
    KeepsBooks sampleEnv sampleInput (limitCoinbaseOutputs sampleEnv OutputLimitSample.config
      (buildPayoutDistribution sampleEnv sampleInput).entries) := by
  obtain ⟨hcarried, hbooks, howed⟩ := distribution_keepsBooks sampleEnv sampleInput
    (Or.inr ⟨OutputLimitSample.config, rfl⟩)
  exact ⟨hcarried, hbooks, howed (by decide +kernel) (by decide +kernel)⟩

/-- Nobody did work, and an address carries a balance. -/
def idleInput : PayoutDistributionInput where
  addressWork := []
  balances := [⟨"A", 100⟩]
  coinbaseValueSats := 3000
  feeAddress := none
  feePercent := 0
  minOutputSats := 546
  coinbaseWeightBudget := 50000

/-- A fee of twice the coinbase value. -/
def overdrawnInput : PayoutDistributionInput where
  addressWork := [⟨"A", 10, 1⟩]
  balances := []
  coinbaseValueSats := 3000
  feeAddress := some "F"
  feePercent := 200
  minOutputSats := 546
  coinbaseWeightBudget := 50000

/-- Without work there is no entry, and an address with a balance is left out. And the shares are
more than the coinbase value when the fee is. -/
theorem not_keepsBooks :
    ¬ KeepsBooks sampleEnv idleInput (buildPayoutDistribution sampleEnv idleInput).entries ∧
      0 < overdrawnInput.totalCreditedDifficulty ∧ 0 < overdrawnInput.coinbaseValueSats ∧
      ¬ BooksKept overdrawnInput.coinbaseValueSats
        (buildPayoutDistribution sampleEnv overdrawnInput).entries := by
  refine ⟨fun hbooks => ?_, by decide +kernel, by decide, fun hbooks => ?_⟩
  · exact absurd (hbooks.2.2 "A" (by decide +kernel)).before (by decide +kernel)
  · exact absurd hbooks.gross (by decide +kernel)

end PublicPool.Proofs
