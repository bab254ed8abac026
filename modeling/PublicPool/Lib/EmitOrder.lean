import Mathlib.Data.List.Basic
import Mathlib.Order.Basic

/-!
# `PublicPool.Lib.EmitOrder`: emitting in order what is held for a while

A component takes things in, holds them for some time and emits them. `EmitOrder` says that what
it has emitted is in order and that nothing it holds comes before something it has emitted. It
stays so when a thing is taken in that comes before nothing emitted (`hold`), and when one is
emitted that no other held thing comes before (`emit`), which are the two ways in which the order
can break.
-/

set_option autoImplicit false

namespace PublicPool.Lib

/-- What was emitted is in order, and nothing held comes before it. -/
structure EmitOrder {α : Type*} [Preorder α] (emitted held : List α) : Prop where
  sorted : emitted.Pairwise (· ≤ ·)
  ahead : ∀ a ∈ emitted, ∀ b ∈ held, a ≤ b

namespace EmitOrder

variable {α : Type*} [Preorder α] {emitted held held' : List α}

theorem nil : EmitOrder ([] : List α) held where
  sorted := List.Pairwise.nil
  ahead _ h := absurd h List.not_mem_nil

/-- What is taken in comes before nothing that was emitted. -/
theorem hold (h : EmitOrder emitted held)
    (hnew : ∀ b ∈ held', b ∈ held ∨ ∀ a ∈ emitted, a ≤ b) : EmitOrder emitted held' where
  sorted := h.sorted
  ahead a ha b hb := by
    rcases hnew b hb with hheld | hlater
    · exact h.ahead a ha b hheld
    · exact hlater a ha

/-- Holding less keeps the order. -/
theorem mono (h : EmitOrder emitted held) (hsub : ∀ b ∈ held', b ∈ held) :
    EmitOrder emitted held' :=
  h.hold fun b hb => .inl (hsub b hb)

/-- What is emitted comes after nothing that is held. -/
theorem emit (h : EmitOrder emitted held) {b : α} (hb : b ∈ held) (hturn : ∀ c ∈ held, b ≤ c)
    (hsub : ∀ c ∈ held', c ∈ held) : EmitOrder (emitted ++ [b]) held' where
  sorted := by
    refine List.pairwise_append.mpr ⟨h.sorted, List.pairwise_singleton _ _, ?_⟩
    intro a ha c hc
    rw [List.mem_singleton.mp hc]
    exact h.ahead a ha b hb
  ahead a ha c hc := by
    rcases List.mem_append.mp ha with hbefore | hnow
    · exact h.ahead a hbefore c (hsub c hc)
    · rw [List.mem_singleton.mp hnow]
      exact hturn c (hsub c hc)

end EmitOrder

end PublicPool.Lib
