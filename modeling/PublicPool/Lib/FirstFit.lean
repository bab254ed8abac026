import Mathlib.Algebra.BigOperators.Group.List.Basic
import Mathlib.Algebra.Order.Monoid.Defs
import Mathlib.Data.List.Basic

/-!
# `PublicPool.Lib.FirstFit`: first fit into a budget

Items with weights are tried in turn, and each is taken unless it no longer fits the budget.
`firstFit` is the list of those taken. An item that does not fit is passed over, and lighter ones
after it may still be taken.

What is taken stays within the budget (`add_sum_firstFit_le`), and an item is passed over only if
it did not fit on top of what was taken before it (`mem_firstFit_of_fits`).
-/

set_option autoImplicit false

namespace PublicPool.Lib

variable {α M : Type*} [Add M] [LE M] [DecidableLE M] (weight : α → M) (budget : M)

/-- The items that are taken, when `used` of the budget is used. -/
def firstFit : M → List α → List α
  | _, [] => []
  | used, item :: items =>
    if used + weight item ≤ budget then item :: firstFit (used + weight item) items
    else firstFit used items

theorem firstFit_cons_of_fits {used : M} {item : α} (h : used + weight item ≤ budget)
    (items : List α) : firstFit weight budget used (item :: items)
      = item :: firstFit weight budget (used + weight item) items := if_pos h

theorem firstFit_cons_of_full {used : M} {item : α} (h : ¬ used + weight item ≤ budget)
    (items : List α) : firstFit weight budget used (item :: items)
      = firstFit weight budget used items := if_neg h

/-- Taking keeps the order. -/
theorem firstFit_sublist (used : M) (items : List α) :
    (firstFit weight budget used items).Sublist items := by
  induction items generalizing used with
  | nil => exact List.Sublist.slnil
  | cons item items ih =>
    unfold firstFit
    split
    · exact (ih _).cons_cons item
    · exact (ih used).cons item

/-- What is taken is one of the items. -/
theorem mem_of_mem_firstFit {used : M} {items : List α} {item : α}
    (h : item ∈ firstFit weight budget used items) : item ∈ items :=
  (firstFit_sublist weight budget used items).subset h

section Sums

variable {N : Type*} [AddMonoid N] [LE N] [DecidableLE N] (weight : α → N) (budget : N)

/-- What is taken of some items, and then of others on top of it. -/
theorem firstFit_append (used : N) (items more : List α) :
    firstFit weight budget used (items ++ more)
      = firstFit weight budget used items ++ firstFit weight budget
          (used + ((firstFit weight budget used items).map weight).sum) more := by
  induction items generalizing used with
  | nil => simp [firstFit]
  | cons item items ih =>
    rw [List.cons_append]
    by_cases hfits : used + weight item ≤ budget
    · rw [firstFit_cons_of_fits _ _ hfits, firstFit_cons_of_fits _ _ hfits, ih, List.cons_append,
        List.map_cons, List.sum_cons, add_assoc]
    · rw [firstFit_cons_of_full _ _ hfits, firstFit_cons_of_full _ _ hfits, ih]

/-- What is taken fits the budget. -/
theorem add_sum_firstFit_le {used : N} {items : List α}
    (h : firstFit weight budget used items ≠ []) :
    used + ((firstFit weight budget used items).map weight).sum ≤ budget := by
  induction items generalizing used with
  | nil => exact absurd rfl h
  | cons item items ih =>
    by_cases hfits : used + weight item ≤ budget
    · rw [firstFit_cons_of_fits _ _ hfits, List.map_cons, List.sum_cons, ← add_assoc]
      by_cases hlast : firstFit weight budget (used + weight item) items = []
      · rw [hlast, List.map_nil, List.sum_nil, add_zero]
        exact hfits
      · exact ih hlast
    · rw [firstFit_cons_of_full _ _ hfits] at h ⊢
      exact ih h

/-- An item that fits on top of what was taken before it is taken. -/
theorem mem_firstFit_of_fits {used : N} {before after : List α} {item : α}
    (h : used + ((firstFit weight budget used before).map weight).sum + weight item ≤ budget) :
    item ∈ firstFit weight budget used (before ++ item :: after) := by
  rw [firstFit_append, firstFit_cons_of_fits _ _ h]
  exact List.mem_append_right _ List.mem_cons_self

end Sums

end PublicPool.Lib
