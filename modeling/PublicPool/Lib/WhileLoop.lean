import Mathlib.Order.Basic

/-!
# `PublicPool.Lib.WhileLoop`: loops that run while a test holds

`whileLoop` runs its body as long as the test holds, for a bounded number of rounds. The rule of
total correctness is `whileLoop_rule`: an invariant that the body keeps, and a natural number that
every round makes smaller, so that as many rounds as it says are enough.
-/

set_option autoImplicit false

namespace PublicPool.Lib

variable {σ : Type*}

/-- `while (test s) s = body s;` with `fuel` rounds at most: `none` when the test still holds
after them. -/
def whileLoop (test : σ → Bool) (body : σ → σ) : ℕ → σ → Option σ
  | 0, s => if test s then none else some s
  | fuel + 1, s => if test s then whileLoop test body fuel (body s) else some s

/-- The loop ends, with the invariant and without the test. -/
theorem whileLoop_rule {test : σ → Bool} {body : σ → σ} (Inv : σ → Prop) (variant : σ → ℕ)
    (hbody : ∀ s, Inv s → test s = true → Inv (body s) ∧ variant (body s) < variant s) :
    ∀ (fuel : ℕ) (s : σ), variant s ≤ fuel → Inv s →
      ∃ s', whileLoop test body fuel s = some s' ∧ Inv s' ∧ test s' = false := by
  intro fuel
  induction fuel with
  | zero =>
    intro s hfuel hinv
    -- A round would make the variant smaller than zero.
    have htest : test s = false := by
      by_contra htest
      have hless := (hbody s hinv (by simpa using htest)).2
      omega
    exact ⟨s, by simp [whileLoop, htest], hinv, htest⟩
  | succ fuel ih =>
    intro s hfuel hinv
    cases htest : test s with
    | false => exact ⟨s, by simp [whileLoop, htest], hinv, htest⟩
    | true =>
      obtain ⟨hkept, hless⟩ := hbody s hinv htest
      obtain ⟨s', hrun, hend⟩ := ih (body s) (by omega) hkept
      exact ⟨s', by simpa [whileLoop, htest] using hrun, hend⟩

end PublicPool.Lib
