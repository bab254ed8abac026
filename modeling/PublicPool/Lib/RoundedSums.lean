import Mathlib.Algebra.BigOperators.Group.List.Basic
import Mathlib.Tactic.Abel

/-!
# `PublicPool.Lib.RoundedSums`: subtractions that round

Amounts are subtracted one after the other from a balance, and every result is rounded. What is left
is the exact difference plus the errors that rounding made on the way (`subtractRounded_eq`). When
every intermediate result is a number that rounding leaves alone, the difference is exact
(`subtractRounded_of_fixed`); otherwise errors may still cancel out.
-/

set_option autoImplicit false

namespace PublicPool.Lib

variable {α : Type*} [AddCommGroup α] (round : α → α)

/-- What is left of a balance after some amounts. -/
def subtractRounded (balance : α) (amounts : List α) : α :=
  amounts.foldl (fun balance amount => round (balance - amount)) balance

/-- The error of each subtraction. -/
def roundingErrors : α → List α → List α
  | _, [] => []
  | balance, amount :: amounts =>
    (round (balance - amount) - (balance - amount))
      :: roundingErrors (round (balance - amount)) amounts

theorem subtractRounded_eq (balance : α) (amounts : List α) :
    subtractRounded round balance amounts
      = balance - amounts.sum + (roundingErrors round balance amounts).sum := by
  induction amounts generalizing balance with
  | nil => simp [subtractRounded, roundingErrors]
  | cons amount amounts ih =>
    rw [roundingErrors, List.sum_cons, List.sum_cons]
    refine (ih (round (balance - amount))).trans ?_
    abel

/-- No error is made on numbers that rounding leaves alone. -/
theorem roundingErrors_of_fixed {balance : α} {amounts : List α}
    (hfixed : ∀ first, first <+: amounts → round (balance - first.sum) = balance - first.sum) :
    ∀ error ∈ roundingErrors round balance amounts, error = 0 := by
  induction amounts generalizing balance with
  | nil =>
    intro error herror
    cases herror
  | cons amount amounts ih =>
    have hround : round (balance - amount) = balance - amount := by
      have hfirst := hfixed [amount] (List.prefix_append _ _)
      rwa [List.sum_singleton] at hfirst
    intro error herror
    rw [roundingErrors, hround] at herror
    rcases List.mem_cons.mp herror with rfl | herror
    · exact sub_self _
    · refine ih ?_ error herror
      intro first hfirst
      have hnext := hfixed (amount :: first) ((List.prefix_cons_inj amount).mpr hfirst)
      rwa [List.sum_cons, ← sub_sub] at hnext

/-- The difference is exact when every intermediate result is. -/
theorem subtractRounded_of_fixed {balance : α} {amounts : List α}
    (hfixed : ∀ first, first <+: amounts → round (balance - first.sum) = balance - first.sum) :
    subtractRounded round balance amounts = balance - amounts.sum := by
  rw [subtractRounded_eq, List.sum_eq_zero (roundingErrors_of_fixed round hfixed), add_zero]

end PublicPool.Lib
