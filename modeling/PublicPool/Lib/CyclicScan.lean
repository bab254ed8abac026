import Mathlib.Data.Nat.ModEq
import Mathlib.Logic.Function.Iterate

/-!
# `PublicPool.Lib.CyclicScan`: looking for a free number around a circle

The numbers `1` to `last` are tried in turn, from any of them on, and after `last` comes `1`
again. `scan` goes on while the number is taken, for a bounded number of steps.

`scan_free` is what a scan is for: `last` steps are enough to find a free number if there is one,
wherever the scan starts.
-/

set_option autoImplicit false

namespace PublicPool.Lib

/-- The number after another on the circle. -/
def cyclicNext (last n : ℕ) : ℕ := if last < n + 1 then 1 else n + 1

/-- The first number that is not taken, from one on, within some steps. -/
def scan (next : ℕ → ℕ) (taken : ℕ → Prop) [DecidablePred taken] : ℕ → ℕ → ℕ
  | 0, n => n
  | steps + 1, n => if taken n then scan next taken steps (next n) else n

section
variable {next : ℕ → ℕ} {taken : ℕ → Prop} [DecidablePred taken]

/-- A scan ends where its steps lead. -/
theorem scan_induction {P : ℕ → Prop} (hnext : ∀ n, P n → P (next n)) {steps n : ℕ} (h : P n) :
    P (scan next taken steps n) := by
  induction steps generalizing n with
  | zero => exact h
  | succ steps ih =>
    unfold scan
    split
    · exact ih (hnext n h)
    · exact h

/-- A scan that comes to a free number within its steps ends on a free one. -/
theorem not_taken_scan {steps k n : ℕ} (hk : k ≤ steps) (hfree : ¬ taken (next^[k] n)) :
    ¬ taken (scan next taken steps n) := by
  induction steps generalizing k n with
  | zero =>
    obtain rfl : k = 0 := by omega
    exact hfree
  | succ steps ih =>
    unfold scan
    split
    · rename_i htaken
      cases k with
      | zero => exact absurd htaken hfree
      | succ k =>
        rw [Function.iterate_succ_apply] at hfree
        exact ih (by omega) hfree
    · rename_i hnot
      exact hnot

end

variable {last : ℕ}

theorem cyclicNext_mem (hlast : 0 < last) {n : ℕ} : 1 ≤ cyclicNext last n ∧ cyclicNext last n ≤ last := by
  unfold cyclicNext
  split
  · omega
  · omega

/-- Where a number of steps around the circle lead. -/
theorem iterate_cyclicNext {n : ℕ} (hn : 1 ≤ n) (hlast : n ≤ last) (k : ℕ) :
    (cyclicNext last)^[k] n = (n - 1 + k) % last + 1 := by
  induction k with
  | zero =>
    have hmod : (n - 1) % last = n - 1 := Nat.mod_eq_of_lt (by omega)
    rw [Function.iterate_zero_apply, show n - 1 + 0 = n - 1 from rfl, hmod]
    omega
  | succ k ih =>
    have hpos : 0 < last := by omega
    have hlt := Nat.mod_lt (n - 1 + k) hpos
    rw [Function.iterate_succ_apply', ih, ← Nat.add_assoc, ← Nat.mod_add_mod (n - 1 + k) last 1,
      cyclicNext]
    by_cases hwrap : (n - 1 + k) % last + 1 = last
    · -- the last number is followed by the first
      rw [if_pos (by omega), hwrap, Nat.mod_self]
    · rw [if_neg (by omega), Nat.mod_eq_of_lt (show (n - 1 + k) % last + 1 < last by omega)]

/-- Every number of the circle is reached from every other. -/
theorem exists_iterate_cyclicNext {n m : ℕ} (hn : 1 ≤ n) (hnlast : n ≤ last) (hm : 1 ≤ m)
    (hmlast : m ≤ last) : ∃ k ≤ last, (cyclicNext last)^[k] n = m := by
  by_cases hle : n ≤ m
  · refine ⟨m - n, by omega, ?_⟩
    rw [iterate_cyclicNext hn hnlast, show n - 1 + (m - n) = m - 1 by omega,
      Nat.mod_eq_of_lt (by omega)]
    omega
  · refine ⟨last + m - n, by omega, ?_⟩
    rw [iterate_cyclicNext hn hnlast, show n - 1 + (last + m - n) = m - 1 + last by omega,
      Nat.add_mod_right, Nat.mod_eq_of_lt (by omega)]
    omega

/-- A scan of the whole circle finds a free number if there is one. -/
theorem scan_free {taken : ℕ → Prop} [DecidablePred taken] {steps n m : ℕ} (hsteps : last ≤ steps)
    (hn : 1 ≤ n) (hnlast : n ≤ last) (hm : 1 ≤ m) (hmlast : m ≤ last) (hfree : ¬ taken m) :
    ¬ taken (scan (cyclicNext last) taken steps n) := by
  obtain ⟨k, hk, hreach⟩ := exists_iterate_cyclicNext hn hnlast hm hmlast
  exact not_taken_scan (hk.trans hsteps) (hreach ▸ hfree)

end PublicPool.Lib
