import Mathlib.Data.List.MinMax

/-!
# `PublicPool.Lib.BestOf`: tables that keep the best

A table has one row for each key. A record replaces the row of its key if its score is greater. What
such a table holds after some records depends on them alone: under each key the best of its records,
and the first one among equals (`foldl_keepBest`).
-/

set_option autoImplicit false

namespace PublicPool.Lib

variable {ρ κ σ : Type*} [DecidableEq κ] [LinearOrder σ] (key : ρ → κ) (score : ρ → σ)

/-- The row under a key after one more record. -/
def keepBest (table : κ → Option ρ) (record : ρ) (k : κ) : Option ρ :=
  if k = key record ∧ ∀ kept ∈ table k, score kept < score record then some record else table k

theorem foldl_keepBest (records : List ρ) (k : κ) :
    records.foldl (keepBest key score) (fun _ => none) k
      = (records.filter fun record => key record = k).argmax score := by
  induction records using List.reverseRecOn with
  | nil => rfl
  | append_singleton records record ih =>
    rw [List.foldl_append, List.filter_append]
    simp only [List.foldl_cons, List.foldl_nil, keepBest, ih]
    by_cases hkey : key record = k
    · rw [List.filter_cons_of_pos (by simpa using hkey), List.filter_nil, List.argmax_concat]
      cases (records.filter fun record => key record = k).argmax score with
      | none => simp [hkey]
      | some kept => simp [hkey]
    · rw [List.filter_cons_of_neg (by simpa using hkey), List.filter_nil, List.append_nil,
        if_neg fun h => hkey h.1.symm]

end PublicPool.Lib
