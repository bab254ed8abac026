import Mathlib.Algebra.Order.Floor.Ring
import Mathlib.Algebra.Order.BigOperators.Group.List
import Mathlib.Algebra.BigOperators.Ring.List
import Mathlib.Data.Rat.Floor
import Mathlib.Tactic.Linarith
import Mathlib.Tactic.FieldSimp

/-!
# `PublicPool.Lib.Apportion`: rounding a list of shares without losing a unit

Largest-remainder rounding of shares that add up to an integer `amount` rounds every share
down and then hands out what is left, one unit each, in some order. It spends exactly
`amount` because the floors never add up to more than `amount` (`sum_floor_le`), and they
miss it by at most one unit for each share (`sub_sum_floor_le_length`). Neither fact
depends on the order in which the units are handed out.
-/

set_option autoImplicit false

namespace PublicPool.Lib

/-- A sum of positive terms over a non-empty list is positive. -/
theorem sum_pos_of_ne_nil {R α : Type*} [Field R] [LinearOrder R] [IsStrictOrderedRing R]
    (targets : List α) (weight : α → R) (hne : targets ≠ [])
    (hpos : ∀ t ∈ targets, 0 < weight t) : 0 < (targets.map weight).sum := by
  refine List.sum_pos _ ?_ (by simpa using hne)
  simpa using hpos

/-- Shares proportional to weights add up to the amount shared. -/
theorem sum_proportional {R α : Type*} [Field R] (targets : List α) (weight : α → R)
    (amount total : R) (htotal : (targets.map weight).sum = total) (hne : total ≠ 0) :
    (targets.map fun t => weight t * amount / total).sum = amount := by
  have h : (targets.map fun t => weight t * amount / total)
      = (targets.map weight).map fun w => w * (amount / total) := by
    rw [List.map_map]
    exact List.map_congr_left fun t _ => mul_div_assoc _ _ _
  rw [h, List.sum_map_mul_right, List.map_id', htotal]
  field_simp

section Floors

variable {R : Type*} [Field R] [LinearOrder R] [IsStrictOrderedRing R] [FloorRing R]

variable (shares : List R) (amount : ℤ)

/-- The floors of shares do not exceed their total. -/
theorem sum_floor_le (h : shares.sum = amount) : (shares.map Int.floor).sum ≤ amount := by
  have hle : (((shares.map Int.floor).sum : ℤ) : R) ≤ shares.sum := by
    clear h
    induction shares with
    | nil => simp
    | cons q qs ih =>
      simp only [List.map_cons, List.sum_cons, Int.cast_add]
      exact add_le_add (Int.floor_le q) ih
  rw [h] at hle
  exact_mod_cast hle

/-- The floors of shares miss their total by at most one unit for each share. -/
theorem sub_sum_floor_le_length (h : shares.sum = amount) :
    amount - (shares.map Int.floor).sum ≤ shares.length := by
  have hle : shares.sum ≤ (((shares.map Int.floor).sum : ℤ) : R) + shares.length := by
    clear h
    induction shares with
    | nil => simp
    | cons q qs ih =>
      have hq : q < ⌊q⌋ + 1 := Int.lt_floor_add_one q
      simp only [List.map_cons, List.sum_cons, Int.cast_add, List.length_cons, Nat.cast_add,
        Nat.cast_one]
      linarith
  rw [h] at hle
  have : amount ≤ (shares.map Int.floor).sum + shares.length := by exact_mod_cast hle
  omega

end Floors

/-- Summing over the elements with a property is summing zero over the others. -/
theorem sum_filter_eq_sum_ite {α M : Type*} [AddCommMonoid M] (l : List α) (p : α → Prop)
    [DecidablePred p] (f : α → M) :
    ((l.filter fun a => decide (p a)).map f).sum = (l.map fun a => if p a then f a else 0).sum := by
  induction l with
  | nil => rfl
  | cons a l ih =>
    by_cases hp : p a <;> simp [hp, ih]

end PublicPool.Lib
