import Mathlib.Data.List.Basic
import Mathlib.Logic.Function.Basic

/-!
# `PublicPool.Lib.RowLocks`: transactions over rows with locks

A store has at most one row for each key. A transaction writes rows that nobody else sees until
it commits, and holds a lock on each: while it is under way no other transaction writes that row.
Its statements see the rows committed so far and, over them, its own.

`Serial` is the invariant of such a system: what a transaction sees is what its own writes make
of the committed store as it is now. Others may commit in between; the locks keep their rows
apart. So a commit changes the store as if all writes of the transaction had run at that moment,
one after the other (`Serial.commit`).
-/

set_option autoImplicit false

namespace PublicPool.Lib.RowLocks

variable {κ ι : Type*} {ν : κ → Type*}

/-- The row of each key, if it has one. -/
abbrev Store (ν : κ → Type*) := ∀ k, Option (ν k)

/-- A store with the rows of a transaction over it. -/
def overlay (store rows : Store ν) : Store ν := fun k => (rows k).or (store k)

theorem overlay_of_none {store rows : Store ν} {k : κ} (h : rows k = none) :
    overlay store rows k = store k := by
  rw [overlay, h, Option.none_or]

theorem overlay_of_some {store rows : Store ν} {k : κ} (h : (rows k).isSome) :
    overlay store rows k = rows k := by
  rw [overlay, Option.or_of_isSome h]

theorem isSome_overlay {store rows : Store ν} {k : κ} (h : (store k).isSome) :
    (overlay store rows k).isSome := by
  rw [overlay, Option.isSome_or, h, Bool.or_true]

/-- A write of one row. -/
inductive Write (ν : κ → Type*)
  /-- The row becomes a function of what it was. -/
  | upsert (key : κ) (row : Option (ν key) → ν key)
  /-- The row is inserted, and nothing happens when there is one. -/
  | insertIfAbsent (key : κ) (row : ν key)

namespace Write

/-- The key that is written. -/
def key : Write ν → κ
  | .upsert key _ => key
  | .insertIfAbsent key _ => key

/-- A write that leaves a row alone that is there. -/
def InsertsOnly : Write ν → Prop
  | .upsert .. => False
  | .insertIfAbsent .. => True

variable [DecidableEq κ]

/-- A write runs. -/
def run (store : Store ν) : Write ν → Store ν
  | .upsert key row => Function.update store key (some (row (store key)))
  | .insertIfAbsent key row =>
    if (store key).isSome then store else Function.update store key (some row)

end Write

variable [DecidableEq κ] [DecidableEq ι]

/-- Several writes run, one after the other. -/
def runAll (writes : List (Write ν)) (store : Store ν) : Store ν :=
  writes.foldl Write.run store

@[simp] theorem runAll_nil (store : Store ν) : runAll [] store = store := rfl

theorem runAll_append (writes more : List (Write ν)) (store : Store ν) :
    runAll (writes ++ more) store = runAll more (runAll writes store) :=
  List.foldl_append

/-! ### What a write does to one row -/

theorem run_of_ne {w : Write ν} {k : κ} (hk : w.key ≠ k) (store : Store ν) :
    w.run store k = store k := by
  cases w with
  | upsert key row => exact Function.update_of_ne (Ne.symm hk) _ _
  | insertIfAbsent key row =>
    simp only [Write.run]
    split
    · rfl
    · exact Function.update_of_ne (Ne.symm hk) _ _

/-- What a write makes of a row depends on that row alone. -/
theorem run_congr (w : Write ν) {k : κ} {store store' : Store ν} (h : store k = store' k) :
    w.run store k = w.run store' k := by
  by_cases hk : w.key = k
  · subst hk
    cases w with
    | upsert key row =>
      simp only [Write.key] at h
      simp only [Write.run, Write.key, Function.update_self, h]
    | insertIfAbsent key row =>
      simp only [Write.key] at h
      simp only [Write.run, Write.key, h]
      split
      · exact h
      · simp only [Function.update_self]
  · rw [run_of_ne hk, run_of_ne hk, h]

theorem run_of_present {w : Write ν} {store : Store ν} (hinserts : w.InsertsOnly)
    (hpresent : (store w.key).isSome) : w.run store = store := by
  cases w with
  | upsert key row => exact hinserts.elim
  | insertIfAbsent key row => exact if_pos hpresent

theorem runAll_of_ne {writes : List (Write ν)} {k : κ} (h : ∀ w ∈ writes, w.key ≠ k)
    (store : Store ν) : runAll writes store k = store k := by
  induction writes generalizing store with
  | nil => rfl
  | cons w writes ih =>
    obtain ⟨hw, hrest⟩ := List.forall_mem_cons.mp h
    exact (ih hrest (w.run store)).trans (run_of_ne hw store)

theorem runAll_congr (writes : List (Write ν)) {k : κ} {store store' : Store ν}
    (h : store k = store' k) : runAll writes store k = runAll writes store' k := by
  induction writes generalizing store store' with
  | nil => exact h
  | cons w writes ih => exact ih (run_congr w h)

/-- Inserts leave a row alone that is there. -/
theorem runAll_of_present {writes : List (Write ν)} {k : κ} {store : Store ν}
    (hpresent : (store k).isSome) (h : ∀ w ∈ writes, w.key = k → w.InsertsOnly) :
    runAll writes store k = store k := by
  induction writes generalizing store with
  | nil => rfl
  | cons w writes ih =>
    obtain ⟨hw, hrest⟩ := List.forall_mem_cons.mp h
    have hsame : w.run store k = store k := by
      by_cases hk : w.key = k
      · subst hk
        rw [run_of_present (hw rfl) hpresent]
      · exact run_of_ne hk store
    exact (ih (hsame ▸ hpresent) hrest).trans hsame

/-! ### Transactions -/

/-- A transaction under way: the writes it has run, and the rows they made. -/
@[ext] structure Txn (ν : κ → Type*) where
  writes : List (Write ν)
  rows : Store ν

/-- The transaction that has not written. -/
def Txn.start : Txn ν where
  writes := []
  rows _ := none

/-- The transaction after a write. An insert that finds a row makes none. -/
def Txn.run (store : Store ν) (t : Txn ν) (w : Write ν) : Txn ν where
  writes := t.writes ++ [w]
  rows := match w with
    | .upsert key row => Function.update t.rows key (some (row (overlay store t.rows key)))
    | .insertIfAbsent key row =>
      if (overlay store t.rows key).isSome then t.rows
      else Function.update t.rows key (some row)

/-- A write that has nothing to do: an insert that finds a row. -/
def Skips (store : Store ν) (t : Txn ν) (w : Write ν) : Prop :=
  w.InsertsOnly ∧ (overlay store t.rows w.key).isSome

theorem Txn.rows_of_skips {store : Store ν} {t : Txn ν} {w : Write ν} (h : Skips store t w) :
    (t.run store w).rows = t.rows := by
  obtain ⟨hinserts, hpresent⟩ := h
  cases w with
  | upsert key row => exact hinserts.elim
  | insertIfAbsent key row => exact if_pos hpresent

theorem Txn.rows_of_ne {store : Store ν} {t : Txn ν} {w : Write ν} {k : κ} (hk : w.key ≠ k) :
    (t.run store w).rows k = t.rows k := by
  cases w with
  | upsert key row => exact Function.update_of_ne (Ne.symm hk) _ _
  | insertIfAbsent key row =>
    simp only [Txn.run]
    split
    · rfl
    · exact Function.update_of_ne (Ne.symm hk) _ _

/-- A write that does not skip leaves a row of its own. -/
theorem Txn.isSome_rows {store : Store ν} {t : Txn ν} {w : Write ν} (h : ¬ Skips store t w) :
    ((t.run store w).rows w.key).isSome := by
  cases w with
  | upsert key row => simp [Txn.run, Write.key]
  | insertIfAbsent key row =>
    have hnone : ¬ (overlay store t.rows key).isSome := fun hpresent => h ⟨trivial, hpresent⟩
    simp only [Txn.run, if_neg hnone, Write.key, Function.update_self, Option.isSome_some]

theorem Txn.isSome_rows_of {store : Store ν} {t : Txn ν} {w : Write ν} {k : κ}
    (h : (t.rows k).isSome) : ((t.run store w).rows k).isSome := by
  by_cases hskips : Skips store t w
  · rw [Txn.rows_of_skips hskips]
    exact h
  · by_cases hk : w.key = k
    · exact hk ▸ Txn.isSome_rows hskips
    · rw [Txn.rows_of_ne hk]
      exact h

/-- A write changes what its transaction sees as it would change a store. -/
theorem overlay_run (store : Store ν) (t : Txn ν) (w : Write ν) :
    overlay store (t.run store w).rows = w.run (overlay store t.rows) := by
  funext k
  by_cases hk : w.key = k
  · subst hk
    cases w with
    | upsert key row =>
      simp only [overlay, Txn.run, Write.run, Write.key, Function.update_self, Option.some_or]
    | insertIfAbsent key row =>
      simp only [Txn.run, Write.run, Write.key]
      by_cases hpresent : (overlay store t.rows key).isSome
      · rw [if_pos hpresent, if_pos hpresent]
      · rw [if_neg hpresent, if_neg hpresent]
        simp only [overlay, Function.update_self, Option.some_or]
  · rw [run_of_ne hk, overlay, Txn.rows_of_ne hk]
    rfl

/-! ### The system -/

/-- The transactions under way hold different rows, and each sees what its writes make of the
committed store. An insert without a row of its own found a committed one. -/
structure Serial (store : Store ν) (txns : ι → Option (Txn ν)) : Prop where
  locks : ∀ i j s t k, i ≠ j → txns i = some s → txns j = some t → (s.rows k).isSome →
    t.rows k = none
  sees : ∀ i t, txns i = some t → overlay store t.rows = runAll t.writes store
  found : ∀ i t, txns i = some t → ∀ w ∈ t.writes, t.rows w.key = none →
    w.InsertsOnly ∧ (store w.key).isSome

namespace Serial

variable {store : Store ν} {txns : ι → Option (Txn ν)}

/-- A transaction starts. -/
theorem start (h : Serial store txns) (i : ι) :
    Serial store (Function.update txns i (some .start)) where
  locks j j' s t k hne hs ht hrow := by
    by_cases hj : j = i
    · subst hj
      rw [Function.update_self] at hs
      cases hs
      cases hrow
    · rw [Function.update_of_ne hj] at hs
      by_cases hj' : j' = i
      · subst hj'
        rw [Function.update_self] at ht
        cases ht
        rfl
      · rw [Function.update_of_ne hj'] at ht
        exact h.locks j j' s t k hne hs ht hrow
  sees j t ht := by
    by_cases hj : j = i
    · subst hj
      rw [Function.update_self] at ht
      cases ht
      funext k
      exact overlay_of_none rfl
    · rw [Function.update_of_ne hj] at ht
      exact h.sees j t ht
  found j t ht w hw := by
    by_cases hj : j = i
    · subst hj
      rw [Function.update_self] at ht
      cases ht
      cases hw
    · rw [Function.update_of_ne hj] at ht
      exact h.found j t ht w hw

/-- A transaction writes a row that no other one holds, or skips the write. -/
theorem write (h : Serial store txns) {i : ι} {t : Txn ν} (ht : txns i = some t) {w : Write ν}
    (hfree : Skips store t w ∨ ∀ j s, j ≠ i → txns j = some s → s.rows w.key = none) :
    Serial store (Function.update txns i (some (t.run store w))) where
  locks j j' s s' k hne hs hs' hrow := by
    -- the rows of the transaction that writes are its old ones, or the new one
    have hrows : ∀ k, ((t.run store w).rows k).isSome →
        (t.rows k).isSome ∨ ∀ j s, j ≠ i → txns j = some s → s.rows k = none := by
      intro k hk
      rcases hfree with hskips | hfree
      · rw [Txn.rows_of_skips hskips] at hk
        exact Or.inl hk
      · by_cases hkey : w.key = k
        · exact Or.inr (hkey ▸ hfree)
        · rw [Txn.rows_of_ne hkey] at hk
          exact Or.inl hk
    by_cases hj : j = i
    · subst hj
      rw [Function.update_self] at hs
      cases hs
      rw [Function.update_of_ne (Ne.symm hne)] at hs'
      rcases hrows k hrow with hold | hfree
      · exact h.locks j j' t s' k hne ht hs' hold
      · exact hfree j' s' (Ne.symm hne) hs'
    · rw [Function.update_of_ne hj] at hs
      by_cases hj' : j' = i
      · subst hj'
        rw [Function.update_self] at hs'
        cases hs'
        by_contra hnone
        have hsome : ((t.run store w).rows k).isSome := Option.isSome_iff_ne_none.mpr hnone
        have hother : s.rows k = none := by
          rcases hrows k hsome with hold | hfree
          · exact h.locks j' j t s k (Ne.symm hne) ht hs hold
          · exact hfree j s hj hs
        rw [hother] at hrow
        cases hrow
      · rw [Function.update_of_ne hj'] at hs'
        exact h.locks j j' s s' k hne hs hs' hrow
  sees j s hs := by
    by_cases hj : j = i
    · subst hj
      rw [Function.update_self] at hs
      cases hs
      have hwrites : (t.run store w).writes = t.writes ++ [w] := rfl
      rw [overlay_run, h.sees j t ht, hwrites, runAll_append]
      rfl
    · rw [Function.update_of_ne hj] at hs
      exact h.sees j s hs
  found j s hs w' hw' hnone := by
    by_cases hj : j = i
    · subst hj
      rw [Function.update_self] at hs
      cases hs
      have hold : t.rows w'.key = none := by
        by_contra hsome
        have hrow : ((t.run store w).rows w'.key).isSome :=
          Txn.isSome_rows_of (Option.isSome_iff_ne_none.mpr hsome)
        rw [hnone] at hrow
        cases hrow
      rcases List.mem_append.mp hw' with hmem | hlast
      · exact h.found j t ht w' hmem hold
      · obtain rfl := List.mem_singleton.mp hlast
        by_cases hskips : Skips store t w'
        · obtain ⟨hinserts, hpresent⟩ := hskips
          rw [overlay_of_none hold] at hpresent
          exact ⟨hinserts, hpresent⟩
        · have hrow := Txn.isSome_rows hskips
          rw [hnone] at hrow
          cases hrow
    · rw [Function.update_of_ne hj] at hs
      exact h.found j s hs w' hw' hnone

omit [DecidableEq ι] in
/-- Transactions end without a commit. -/
theorem rollback (h : Serial store txns) {txns' : ι → Option (Txn ν)}
    (hsub : ∀ i t, txns' i = some t → txns i = some t) : Serial store txns' where
  locks i j s t k hne hs ht := h.locks i j s t k hne (hsub i s hs) (hsub j t ht)
  sees i t ht := h.sees i t (hsub i t ht)
  found i t ht := h.found i t (hsub i t ht)

/-- A transaction commits: the store becomes what its writes make of it. -/
theorem commit (h : Serial store txns) {i : ι} {t : Txn ν} (ht : txns i = some t) :
    Serial (runAll t.writes store) (Function.update txns i none) := by
  have hcommitted := h.sees i t ht
  have hother : ∀ j s, Function.update txns i none j = some s → j ≠ i ∧ txns j = some s := by
    intro j s hs
    by_cases hj : j = i
    · subst hj
      rw [Function.update_self] at hs
      cases hs
    · rw [Function.update_of_ne hj] at hs
      exact ⟨hj, hs⟩
  -- rows of the others stay as they were
  have hkept : ∀ j s k, j ≠ i → txns j = some s → (s.rows k).isSome →
      runAll t.writes store k = store k := by
    intro j s k hj hs hrow
    rw [← hcommitted]
    exact overlay_of_none (h.locks j i s t k hj hs ht hrow)
  rw [← hcommitted] at hkept ⊢
  refine ⟨(h.rollback fun j s hs => (hother j s hs).2).locks, ?_, ?_⟩
  · intro j s hs
    obtain ⟨hj, hs⟩ := hother j s hs
    have hsees := h.sees j s hs
    funext k
    by_cases hrow : (s.rows k).isSome
    · have hown : overlay store s.rows k = s.rows k := overlay_of_some hrow
      rw [overlay_of_some hrow, ← hown, hsees]
      exact runAll_congr s.writes (hkept j s k hj hs hrow).symm
    · have hnone : s.rows k = none := Option.not_isSome_iff_eq_none.mp hrow
      rw [overlay_of_none hnone]
      by_cases htouched : ∃ w ∈ s.writes, w.key = k
      · obtain ⟨w, hw, hwk⟩ := htouched
        have hpresent := (h.found j s hs w hw (hwk ▸ hnone)).2
        refine (runAll_of_present (isSome_overlay (hwk ▸ hpresent)) ?_).symm
        intro w' hw' hw'k
        exact (h.found j s hs w' hw' (hw'k ▸ hnone)).1
      · refine (runAll_of_ne ?_ _).symm
        intro w hw hwk
        exact htouched ⟨w, hw, hwk⟩
  · intro j s hs w hw hnone
    obtain ⟨-, hs⟩ := hother j s hs
    obtain ⟨hinserts, hpresent⟩ := h.found j s hs w hw hnone
    exact ⟨hinserts, isSome_overlay hpresent⟩

end Serial

end PublicPool.Lib.RowLocks
