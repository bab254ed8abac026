import PublicPool.Proofs.Payout.Remainder

/-!
# `PublicPool.Proofs.Payout.OutputLimit`: limiting the outputs of a coinbase

`limitCoinbaseOutputs` keeps the first outputs and hands the sats of the others to the kept ones
with work. `LimitedTo` says what that makes of the entries, position by position: which stay
outputs, what a kept one gains, what a removed one carries over, and that nothing is lost when
somebody with work is kept.

`getElem?_dropOutputs` is the cut, `getElem?_payAllocations` the hand-out. The sats are conserved
because the hand-out pays all that is taken away (`sum_limitAllocations`) and touches outputs
only.
-/

set_option autoImplicit false

namespace PublicPool.Proofs

open Lib

/-- An output that is taken away: it carries over what it would have been paid. -/
def takenAway (entry : PayoutDistributionEntry) : PayoutDistributionEntry :=
  { entry with
    payoutSats := 0
    balanceAfterSats := entry.balanceAfterSats + entry.payoutSats
    includedInCoinbase := false }

/-- An entry that is paid `extra` more, out of what it would carry over. -/
def paidMore (entry : PayoutDistributionEntry) (extra : ℤ) : PayoutDistributionEntry :=
  { entry with
    payoutSats := entry.payoutSats + extra
    balanceAfterSats := entry.balanceAfterSats - extra }

/-- How many outputs stand before a position. -/
def outputsBefore (entries : List PayoutDistributionEntry) (i : ℕ) : ℕ :=
  (outputsOf (entries.take i)).length

/-- The entries `limited` are `entries` limited to the first `max` outputs. -/
structure LimitedTo (max : ℕ) (entries limited : List PayoutDistributionEntry) : Prop where
  length : limited.length = entries.length
  /-- At most `max` entries remain included. -/
  count : (outputsOf limited).length ≤ max
  /-- They are the first included ones. -/
  included_iff : ∀ (i : ℕ) (entry entry' : PayoutDistributionEntry), entries[i]? = some entry →
    limited[i]? = some entry' →
    (entry'.includedInCoinbase = true ↔
      entry.includedInCoinbase = true ∧ outputsBefore entries i < max)
  /-- With work among them, nothing of what is paid is lost. -/
  conserved : (∃ entry ∈ outputsOf limited, 0 < entry.creditedDifficulty) →
    ((outputsOf limited).map (·.payoutSats)).sum = ((outputsOf entries).map (·.payoutSats)).sum
  /-- A kept entry is paid what it was paid, or more. -/
  kept : ∀ (i : ℕ) (entry entry' : PayoutDistributionEntry), entries[i]? = some entry →
    limited[i]? = some entry' → entry'.includedInCoinbase = true →
    ∃ extra : ℤ, 0 ≤ extra ∧ entry' = paidMore entry extra
  /-- A removed entry is paid nothing and carries over its payout. -/
  removed : ∀ (i : ℕ) (entry entry' : PayoutDistributionEntry), entries[i]? = some entry →
    limited[i]? = some entry' → entry.includedInCoinbase = true →
    entry'.includedInCoinbase = false → entry' = takenAway entry
  /-- The others stay as they are. -/
  others : ∀ (i : ℕ) (entry : PayoutDistributionEntry), entries[i]? = some entry →
    entry.includedInCoinbase = false → limited[i]? = some entry

/-! ### The cut -/

theorem outputsBefore_succ (entry : PayoutDistributionEntry)
    (entries : List PayoutDistributionEntry) (i : ℕ) :
    outputsBefore (entry :: entries) (i + 1)
      = outputsBefore entries i + if entry.includedInCoinbase = true then 1 else 0 := by
  unfold outputsBefore outputsOf
  rw [List.take_succ_cons, List.filter_cons]
  split
  · rw [List.length_cons]
  · rfl

/-- The cut takes away the outputs that have enough outputs before them. -/
theorem getElem?_dropOutputs (max included : ℕ) (entries : List PayoutDistributionEntry) (i : ℕ) :
    (dropOutputs max included entries).1[i]? = entries[i]?.map fun entry =>
      if entry.includedInCoinbase = true ∧ max ≤ included + outputsBefore entries i then
        takenAway entry
      else entry := by
  induction entries generalizing included i with
  | nil => rfl
  | cons entry entries ih =>
    cases i with
    | zero =>
      have hzero : outputsBefore (entry :: entries) 0 = 0 := rfl
      rw [List.getElem?_cons_zero, Option.map_some, hzero, add_zero]
      unfold dropOutputs
      by_cases hincluded : entry.includedInCoinbase = true
      · by_cases hroom : included + 1 ≤ max
        · have hkeep : ¬ max ≤ included := by omega
          simp [hincluded, hroom, hkeep]
        · have hdrop : max ≤ included := by omega
          simp [hincluded, hroom, hdrop, takenAway]
      · simp [hincluded]
    | succ i =>
      rw [List.getElem?_cons_succ, outputsBefore_succ]
      unfold dropOutputs
      by_cases hincluded : entry.includedInCoinbase = true
      · have hnext := ih (included + 1) i
        rw [if_pos hincluded, if_pos hincluded]
        simp only
        rw [← add_assoc, add_right_comm included, ← hnext]
        split <;> rfl
      · rw [if_neg hincluded, if_neg hincluded]
        exact ih included i

/-! ### The hand-out -/

/-- An allocation goes to an output and pays it something. -/
def PaysOutput (entries : List PayoutDistributionEntry) (allocation : LimitAllocation) : Prop :=
  0 ≤ allocation.whole ∧
    ∃ entry, entries[allocation.index]? = some entry ∧ entry.includedInCoinbase = true

/-- Paying one entry more leaves the outputs what they are. -/
theorem PaysOutput.modify {entries : List PayoutDistributionEntry} {allocation : LimitAllocation}
    (h : PaysOutput entries allocation) (index : ℕ) (extra : ℤ) :
    PaysOutput (entries.modify index fun entry => paidMore entry extra) allocation := by
  obtain ⟨hwhole, entry, hentry, hincluded⟩ := h
  have hget : (entries.modify index fun entry => paidMore entry extra)[allocation.index]?
      = some (if index = allocation.index then paidMore entry extra else entry) := by
    rw [List.getElem?_modify, hentry]
    rfl
  refine ⟨hwhole, _, hget, ?_⟩
  split
  · exact hincluded
  · exact hincluded

section
variable (entries : List PayoutDistributionEntry) (allocations : List LimitAllocation)
  (residual : ℤ) (env : PayoutEnv)

/-- Allocations pay outputs more, and nobody else. -/
theorem getElem?_payAllocations {entries : List PayoutDistributionEntry}
    (h : ∀ allocation ∈ allocations, PaysOutput entries allocation) {i : ℕ}
    {entry : PayoutDistributionEntry} (hentry : entries[i]? = some entry) :
    ∃ extra : ℤ, 0 ≤ extra ∧ (entry.includedInCoinbase = false → extra = 0) ∧
      (payAllocations allocations residual entries)[i]? = some (paidMore entry extra) := by
  induction allocations generalizing residual entries entry with
  | nil => exact ⟨0, le_rfl, fun _ => rfl, by simp [payAllocations, hentry, paidMore]⟩
  | cons allocation allocations ih =>
    obtain ⟨⟨hwhole, output, houtput, hincluded⟩, hrest⟩ := List.forall_mem_cons.mp h
    unfold payAllocations
    simp only
    -- the entries with this allocation paid
    set unit : ℤ := allocation.whole + if 0 < residual then 1 else 0 with hunit
    have hnonneg : 0 ≤ unit := by
      rw [hunit]
      split <;> omega
    have hothers : ∀ other ∈ allocations, PaysOutput
        (entries.modify allocation.index fun entry => paidMore entry unit) other :=
      fun other hother => (hrest other hother).modify allocation.index unit
    by_cases hi : allocation.index = i
    · rw [hi] at houtput
      obtain rfl : output = entry := Option.some.inj (houtput.symm.trans hentry)
      have hpaid : (entries.modify allocation.index fun entry => paidMore entry unit)[i]?
          = some (paidMore output unit) := by
        rw [List.getElem?_modify, houtput]
        simp [hi]
      obtain ⟨extra, hextra, -, hpaid⟩ := ih
        (if 0 < residual then residual - 1 else residual) hothers hpaid
      refine ⟨unit + extra, add_nonneg hnonneg hextra, fun hno => ?_, ?_⟩
      · rw [hincluded] at hno
        cases hno
      · rw [show paidMore output (unit + extra) = paidMore (paidMore output unit) extra by
          simp only [paidMore, add_assoc, sub_sub]]
        exact hpaid
    · exact ih _ hothers (by rw [List.getElem?_modify, hentry]; simp [hi])

/-- The hand-out goes to kept outputs with work. -/
theorem paysOutput_limitAllocations {limitedEntries : List PayoutDistributionEntry}
    {removedPayoutSats : ℤ} (hremoved : 0 ≤ removedPayoutSats) :
    ∀ allocation ∈ limitAllocations env (keptWorkers limitedEntries) removedPayoutSats,
      PaysOutput limitedEntries allocation := by
  intro allocation hallocation
  obtain ⟨e, he, rfl⟩ := List.mem_map.mp (Js.mem_sort.mp hallocation)
  obtain ⟨hmem, hkept⟩ := List.mem_filter.mp he
  have hwork : ∀ e ∈ keptWorkers limitedEntries, 0 < e.1.creditedDifficulty := fun e he =>
    (mem_keptWorkers he).2.1
  refine ⟨Int.floor_nonneg.mpr ?_, e.1, List.mem_zipIdx_iff_getElem?.mp hmem,
    (of_decide_eq_true hkept).1⟩
  -- a share of what is taken away is not negative
  have htotal : (0 : ℚ) ≤ ((keptWorkers limitedEntries).map fun e => e.1.creditedDifficulty).sum := by
    refine List.sum_nonneg fun x hx => ?_
    obtain ⟨e', he', rfl⟩ := List.mem_map.mp hx
    exact (hwork e' he').le
  exact div_nonneg (mul_nonneg (hwork e he).le (by exact_mod_cast hremoved)) htotal

/-! ### The limited entries -/

theorem length_dropOutputs (max included : ℕ) (entries : List PayoutDistributionEntry) :
    (dropOutputs max included entries).1.length = entries.length := by
  induction entries generalizing included with
  | nil => rfl
  | cons entry entries ih =>
    unfold dropOutputs
    split
    · simp only
      split
      · rw [List.length_cons, List.length_cons, ih]
      · rw [List.length_cons, List.length_cons, ih]
    · simp only [List.length_cons, ih]

theorem length_payAllocations :
    (payAllocations allocations residual entries).length = entries.length := by
  induction allocations generalizing residual entries with
  | nil => rfl
  | cons allocation allocations ih =>
    unfold payAllocations
    rw [ih, List.length_modify]

theorem length_limitCoinbaseOutputs (config : PayoutConfig) (entries : List PayoutDistributionEntry)
    :
    (limitCoinbaseOutputs env config entries).length = entries.length := by
  rw [limitCoinbaseOutputs_eq]
  split
  · exact length_dropOutputs _ _ _
  · split
    · exact length_dropOutputs _ _ _
    · rw [length_payAllocations, length_dropOutputs]

/-- What is paid, inside and outside the coinbase. -/
theorem sum_payouts_eq :
    (entries.map (·.payoutSats)).sum
      = ((outputsOf entries).map (·.payoutSats)).sum
        + (entries.map fun entry =>
            if entry.includedInCoinbase = true then 0 else entry.payoutSats).sum := by
  induction entries with
  | nil => rfl
  | cons entry entries ih =>
    unfold outputsOf at ih ⊢
    rw [List.filter_cons, List.map_cons, List.map_cons, List.sum_cons, List.sum_cons, ih]
    split
    · rw [List.map_cons, List.sum_cons]
      omega
    · omega

theorem length_outputsOf :
    (outputsOf entries).length = (entries.map (·.includedInCoinbase)).count true := by
  rw [outputsOf, List.count, List.countP_map, List.countP_eq_length_filter]
  refine congrArg List.length (List.filter_congr fun entry _ => ?_)
  rw [Function.comp_apply, beq_true]

end

section
variable (env : PayoutEnv) (config : PayoutConfig) {entries : List PayoutDistributionEntry}
  (hpaid : ∀ entry ∈ entries, entry.includedInCoinbase = true → 0 < entry.payoutSats)
include hpaid

/-- What is taken away is not negative. -/
theorem nonneg_removedPayoutSats : 0 ≤ (dropOutputs config.maxCoinbaseOutputs 0 entries).2 := by
  obtain ⟨-, hremoved⟩ := outputs_dropOutputs config.maxCoinbaseOutputs 0 entries
  rw [hremoved]
  refine List.sum_nonneg fun x hx => ?_
  obtain ⟨output, houtput, rfl⟩ := List.mem_map.mp hx
  obtain ⟨hmem, hincluded⟩ := mem_outputsOf.mp (List.mem_of_mem_drop houtput)
  exact (hpaid output hmem hincluded).le

variable {i : ℕ} {entry : PayoutDistributionEntry}

/-- The hand-out pays the entries that the cut leaves more, and only outputs among them. -/
theorem getElem?_limitCoinbaseOutputs {cut : PayoutDistributionEntry}
    (hcut : (dropOutputs config.maxCoinbaseOutputs 0 entries).1[i]? = some cut) :
    ∃ extra : ℤ, 0 ≤ extra ∧ (cut.includedInCoinbase = false → extra = 0) ∧
      (limitCoinbaseOutputs env config entries)[i]? = some (paidMore cut extra) := by
  have hstay : paidMore cut 0 = cut := by simp [paidMore]
  rw [limitCoinbaseOutputs_eq]
  split
  · exact ⟨0, le_rfl, fun _ => rfl, by rw [hcut, hstay]⟩
  · split
    · exact ⟨0, le_rfl, fun _ => rfl, by rw [hcut, hstay]⟩
    · have hnonneg := nonneg_removedPayoutSats config hpaid
      exact getElem?_payAllocations _ _ (paysOutput_limitAllocations env hnonneg) hcut

/-- A kept output is paid more. -/
theorem limited_of_kept (hentry : entries[i]? = some entry)
    (hroom : outputsBefore entries i < config.maxCoinbaseOutputs) :
    ∃ extra : ℤ, 0 ≤ extra ∧
      (limitCoinbaseOutputs env config entries)[i]? = some (paidMore entry extra) := by
  have hcut := getElem?_dropOutputs config.maxCoinbaseOutputs 0 entries i
  rw [hentry, Option.map_some, zero_add, if_neg fun h => absurd h.2 (not_le.mpr hroom)] at hcut
  obtain ⟨extra, hextra, -, hlimited⟩ := getElem?_limitCoinbaseOutputs env config hpaid hcut
  exact ⟨extra, hextra, hlimited⟩

/-- An output with enough outputs before it is taken away. -/
theorem limited_of_removed (hentry : entries[i]? = some entry)
    (hincluded : entry.includedInCoinbase = true)
    (hdrop : config.maxCoinbaseOutputs ≤ outputsBefore entries i) :
    (limitCoinbaseOutputs env config entries)[i]? = some (takenAway entry) := by
  have hcut := getElem?_dropOutputs config.maxCoinbaseOutputs 0 entries i
  rw [hentry, Option.map_some, zero_add, if_pos ⟨hincluded, hdrop⟩] at hcut
  obtain ⟨extra, -, hzero, hlimited⟩ := getElem?_limitCoinbaseOutputs env config hpaid hcut
  rw [hlimited, hzero rfl]
  simp [paidMore]

/-- What is no output stays as it is. -/
theorem limited_of_excluded (hentry : entries[i]? = some entry)
    (hexcluded : entry.includedInCoinbase = false) :
    (limitCoinbaseOutputs env config entries)[i]? = some entry := by
  have hcut := getElem?_dropOutputs config.maxCoinbaseOutputs 0 entries i
  rw [hentry, Option.map_some, if_neg (by simp [hexcluded])] at hcut
  obtain ⟨extra, -, hzero, hlimited⟩ := getElem?_limitCoinbaseOutputs env config hpaid hcut
  rw [hlimited, hzero hexcluded]
  simp [paidMore]

/-- What the hand-out does not touch is what the cut leaves. -/
theorem map_limitCoinbaseOutputs {β : Type*} {g : PayoutDistributionEntry → β}
    (hg : ∀ (entry : PayoutDistributionEntry) (extra : ℤ),
      (entry.includedInCoinbase = false → extra = 0) → g (paidMore entry extra) = g entry) :
    (limitCoinbaseOutputs env config entries).map g
      = (dropOutputs config.maxCoinbaseOutputs 0 entries).1.map g := by
  refine List.ext_getElem? fun i => ?_
  rw [List.getElem?_map, List.getElem?_map]
  cases hcut : (dropOutputs config.maxCoinbaseOutputs 0 entries).1[i]? with
  | none =>
    rw [List.getElem?_eq_none_iff, length_dropOutputs] at hcut
    rw [List.getElem?_eq_none_iff.mpr (by rwa [length_limitCoinbaseOutputs])]
  | some cut =>
    obtain ⟨extra, -, hzero, hlimited⟩ := getElem?_limitCoinbaseOutputs env config hpaid hcut
    rw [hlimited, Option.map_some, Option.map_some, hg cut extra hzero]

/-- With a worker among the kept outputs, the outputs pay what they paid before. -/
theorem sum_outputs_limitCoinbaseOutputs
    (hworker : ∃ entry ∈ outputsOf (limitCoinbaseOutputs env config entries),
      0 < entry.creditedDifficulty) :
    ((outputsOf (limitCoinbaseOutputs env config entries)).map (·.payoutSats)).sum
      = ((outputsOf entries).map (·.payoutSats)).sum := by
  obtain ⟨hkept, hremoved⟩ := outputs_dropOutputs config.maxCoinbaseOutputs 0 entries
  rw [Nat.sub_zero] at hkept hremoved
  have hnonneg := nonneg_removedPayoutSats config hpaid
  -- what is kept of the outputs and what is taken away make up the outputs
  have hsplit : ((outputsOf entries).map (·.payoutSats)).sum
      = ((outputsOf (dropOutputs config.maxCoinbaseOutputs 0 entries).1).map (·.payoutSats)).sum
        + (dropOutputs config.maxCoinbaseOutputs 0 entries).2 := by
    rw [hkept, hremoved, ← List.sum_append, ← List.map_append, List.take_append_drop]
  -- the worker was kept by the cut
  have hcutWorker : ¬ ((keptWorkers (dropOutputs config.maxCoinbaseOutputs 0 entries).1).map
      fun e => e.1.creditedDifficulty).sum ≤ 0 := by
    obtain ⟨entry, hentry, hwork⟩ := hworker
    obtain ⟨hmem, hincluded⟩ := mem_outputsOf.mp hentry
    have hread : (entry.includedInCoinbase, entry.creditedDifficulty)
        ∈ (limitCoinbaseOutputs env config entries).map fun e =>
          (e.includedInCoinbase, e.creditedDifficulty) := List.mem_map.mpr ⟨entry, hmem, rfl⟩
    rw [map_limitCoinbaseOutputs env config hpaid fun _ _ _ => rfl] at hread
    obtain ⟨cut, hcut, heq⟩ := List.mem_map.mp hread
    obtain ⟨hflag, hcredit⟩ := Prod.mk.inj heq
    exact (pos_keptWorkers_iff _).mpr
      ⟨cut, mem_outputsOf.mpr ⟨hcut, hflag.trans hincluded⟩, hcredit ▸ hwork⟩
  -- the total with what is paid outside the coinbase, which the hand-out leaves alone
  have houtside := map_limitCoinbaseOutputs env config hpaid
    (g := fun entry => if entry.includedInCoinbase = true then 0 else entry.payoutSats) (by
      intro entry extra hzero
      cases hincluded : entry.includedInCoinbase
      · rw [hzero hincluded]
        simp [paidMore, hincluded]
      · simp [paidMore, hincluded])
  have htotal : ((limitCoinbaseOutputs env config entries).map (·.payoutSats)).sum
      = ((dropOutputs config.maxCoinbaseOutputs 0 entries).1.map (·.payoutSats)).sum
        + (dropOutputs config.maxCoinbaseOutputs 0 entries).2 := by
    rw [limitCoinbaseOutputs_eq]
    split
    · omega
    · exact sum_limitAllocations env _ hcutWorker
  have hbefore := sum_payouts_eq (dropOutputs config.maxCoinbaseOutputs 0 entries).1
  have hafter := sum_payouts_eq (limitCoinbaseOutputs env config entries)
  rw [houtside] at hafter
  omega

/-- `limitCoinbaseOutputs` limits the entries to the first `maxCoinbaseOutputs` outputs, and no
sat is lost as long as somebody with work is kept. -/
theorem limitCoinbaseOutputs_limited :
    LimitedTo config.maxCoinbaseOutputs entries (limitCoinbaseOutputs env config entries) where
  length := length_limitCoinbaseOutputs env config entries
  count := by
    have hkept := (outputs_dropOutputs config.maxCoinbaseOutputs 0 entries).1
    rw [length_outputsOf, map_limitCoinbaseOutputs env config hpaid fun _ _ _ => rfl,
      ← length_outputsOf, hkept, Nat.sub_zero]
    exact List.length_take_le _ _
  included_iff i entry entry' hentry hentry' := by
    cases hincluded : entry.includedInCoinbase with
    | false =>
      rw [limited_of_excluded env config hpaid hentry hincluded] at hentry'
      cases hentry'
      simp [hincluded]
    | true =>
      by_cases hroom : outputsBefore entries i < config.maxCoinbaseOutputs
      · obtain ⟨extra, -, hlimited⟩ := limited_of_kept env config hpaid hentry hroom
        rw [hlimited] at hentry'
        cases hentry'
        exact iff_of_true hincluded ⟨rfl, hroom⟩
      · rw [limited_of_removed env config hpaid hentry hincluded (not_lt.mp hroom)] at hentry'
        cases hentry'
        exact iff_of_false (by simp [takenAway]) fun h => hroom h.2
  conserved := sum_outputs_limitCoinbaseOutputs env config hpaid
  kept i entry entry' hentry hentry' hincluded := by
    by_cases hroom : outputsBefore entries i < config.maxCoinbaseOutputs
    · obtain ⟨extra, hextra, hlimited⟩ := limited_of_kept env config hpaid hentry hroom
      exact ⟨extra, hextra, Option.some.inj (hentry'.symm.trans hlimited)⟩
    · cases hflag : entry.includedInCoinbase with
      | false =>
        rw [limited_of_excluded env config hpaid hentry hflag] at hentry'
        cases hentry'
        exact absurd hincluded (by simp [hflag])
      | true =>
        rw [limited_of_removed env config hpaid hentry hflag (not_lt.mp hroom)] at hentry'
        cases hentry'
        exact absurd hincluded (by simp [takenAway])
  removed i entry entry' hentry hentry' hincluded hexcluded := by
    by_cases hroom : outputsBefore entries i < config.maxCoinbaseOutputs
    · obtain ⟨extra, -, hlimited⟩ := limited_of_kept env config hpaid hentry hroom
      rw [hlimited] at hentry'
      cases hentry'
      exact absurd hincluded (by simp [show entry.includedInCoinbase = false from hexcluded])
    · rw [limited_of_removed env config hpaid hentry hincluded (not_lt.mp hroom)] at hentry'
      exact (Option.some.inj hentry').symm
  others i entry hentry hexcluded := limited_of_excluded env config hpaid hentry hexcluded

end

namespace OutputLimitSample

/-- Room for two outputs. -/
def config : PayoutConfig where
  snapshotsEnabled := true
  method := "pplns"
  windowFactor := 8
  bootstrapWindow := false
  maxCoinbaseOutputs := 2
  minOutputSats := 546
  feeAddress := ""
  feePercent := 0
  coinbaseWeightBudget := 50000

/-- An entry that is paid `payoutSats`. -/
def entry (address : String) (creditedDifficulty : ℚ) (payoutSats : ℤ) :
    PayoutDistributionEntry where
  address
  creditedDifficulty
  acceptedShareCount := 1
  payoutWeight := 0
  grossPayoutSats := payoutSats
  payoutSats
  balanceBeforeSats := 0
  balanceAfterSats := 0
  includedInCoinbase := decide (0 < payoutSats)
  rank := 0

/-- Three outputs, the first without work, and an address that waits. -/
def entries : List PayoutDistributionEntry :=
  [entry "F" 0 900, entry "A" 2 2000, entry "W" 1 0, entry "B" 1 1001]

end OutputLimitSample

open OutputLimitSample in
/-- The third output goes, and its sats go to the one with work. -/
theorem limitCoinbaseOutputs_limited_sample :
    LimitedTo 2 entries (limitCoinbaseOutputs sampleEnv config entries) :=
  limitCoinbaseOutputs_limited sampleEnv config (by decide +kernel)

open OutputLimitSample in
example : (limitCoinbaseOutputs sampleEnv config entries).map (·.payoutSats) = [900, 3001, 0, 0] := by
  decide +kernel

end PublicPool.Proofs
