import PublicPool.Lib.Runs
import Mathlib.Data.List.Nodup
import Mathlib.Data.List.Perm.Basic

/-!
# `PublicPool.Lib.Ledger`: who is going to close what was opened

Something is opened again and again, each time under the next number, and all of it is to be
closed in the end. A `Ledger` says what is live and which closings are still owed. It is clean
when each live number has its closing owed.

A step `Keeps` the ledger clean or `Loses` a number: it opens one that nobody is going to close,
opens a closed one again, or gives up a closing. What is lost stays lost, since nobody owes it any
more. So a run ends with a clean ledger exactly when none of its steps loses (`along_iff_clean`),
and where nothing is owed any more, clean means that nothing is live.
-/

set_option autoImplicit false

namespace PublicPool.Lib

/-- What is live, by number, and the closings that are owed. -/
structure Ledger where
  live : List Bool
  owed : List ℕ

namespace Ledger

/-- Only what is live is going to be closed, and once. -/
structure Sound (ledger : Ledger) : Prop where
  nodup : ledger.owed.Nodup
  live : ∀ n ∈ ledger.owed, ledger.live[n]? = some true

/-- All that is live is going to be closed. -/
def Clean (ledger : Ledger) : Prop := ∀ n : ℕ, ledger.live[n]? = some true → n ∈ ledger.owed

/-- The steps after which as much is going to be closed as before. -/
inductive Keeps (before after : Ledger) : Prop
  | same (live : after.live = before.live) (owed : after.owed.Perm before.owed)
  | opened (live : after.live = before.live ++ [true])
      (owed : after.owed.Perm (before.live.length :: before.owed))
  | closed (n : ℕ) (live : after.live = before.live.set n false)
      (owed : before.owed.Perm (n :: after.owed))

/-- The steps that leave something live that nobody is going to close. -/
inductive Loses (before after : Ledger) : Prop
  | opened (live : after.live = before.live ++ [true]) (owed : after.owed.Perm before.owed)
  | revived (n : ℕ) (dead : before.live[n]? = some false)
      (live : after.live = before.live.set n true) (owed : after.owed.Perm before.owed)
  | dropped (n : ℕ) (live : after.live = before.live) (owed : before.owed.Perm (n :: after.owed))

variable {before after : Ledger}

section
variable {n : ℕ} {live : List Bool} {before' : Ledger}

theorem Sound.lt_length (h : before.Sound) (hn : n ∈ before.owed) : n < before.live.length :=
  (List.getElem?_eq_some_iff.mp (h.live n hn)).1

theorem Sound.length_notMem (h : before.Sound) : before.live.length ∉ before.owed :=
  fun hmem => Nat.lt_irrefl _ (h.lt_length hmem)

/-- What is live after an opening. -/
theorem getElem?_opened :
    (live ++ [true])[n]? = some true ↔ live[n]? = some true ∨ n = live.length := by
  rcases Nat.lt_trichotomy n live.length with hlt | heq | hgt
  · rw [List.getElem?_append_left hlt]
    simp [Nat.ne_of_lt hlt]
  · subst heq
    simp
  · rw [List.getElem?_append_right (Nat.le_of_lt hgt),
      List.getElem?_eq_none (by simp; omega), List.getElem?_eq_none (Nat.le_of_lt hgt)]
    simp [Nat.ne_of_gt hgt]

theorem getElem?_set_of_ne {m : ℕ} {b : Bool} (h : m ≠ n) : (live.set n b)[m]? = live[m]? :=
  List.getElem?_set_ne (Ne.symm h)

/-- A closing that is taken from the owed ones is not owed twice. -/
theorem Sound.of_perm_cons (h : before.Sound) {owed : List ℕ} (hperm : before.owed.Perm (n :: owed))
    :
    n ∉ owed ∧ owed.Nodup ∧ before.live[n]? = some true := by
  have hnodup := hperm.nodup_iff.mp h.nodup
  rw [List.nodup_cons] at hnodup
  exact ⟨hnodup.1, hnodup.2, h.live n (hperm.mem_iff.mpr List.mem_cons_self)⟩

/-- The order in which the closings are owed does not matter. -/
theorem Keeps.of_perm (hlive : before'.live = before.live) (howed : before'.owed.Perm before.owed)
    (hkeeps : Keeps before after) : Keeps before' after := by
  cases hkeeps with
  | same hsame hperm => exact .same (hsame.trans hlive.symm) (hperm.trans howed.symm)
  | opened hopen hperm =>
    refine .opened (by rw [hlive, hopen]) ?_
    rw [hlive]
    exact hperm.trans (howed.symm.cons _)
  | closed n hclose hperm => exact .closed n (by rw [hlive, hclose]) (howed.trans hperm)

theorem Loses.of_perm (hlive : before'.live = before.live) (howed : before'.owed.Perm before.owed)
    (hloses : Loses before after) : Loses before' after := by
  cases hloses with
  | opened hopen hperm => exact .opened (by rw [hlive, hopen]) (hperm.trans howed.symm)
  | revived n hdead hrevive hperm =>
    exact .revived n (by rw [hlive, hdead]) (by rw [hlive, hrevive]) (hperm.trans howed.symm)
  | dropped n hsame hperm => exact .dropped n (hsame.trans hlive.symm) (howed.trans hperm)

end

theorem Keeps.sound (hkeeps : Keeps before after) (h : before.Sound) : after.Sound := by
  cases hkeeps with
  | same hlive howed =>
    refine ⟨howed.nodup_iff.mpr h.nodup, fun n hn => ?_⟩
    rw [hlive]
    exact h.live n (howed.mem_iff.mp hn)
  | opened hlive howed =>
    have hnodup : (before.live.length :: before.owed).Nodup :=
      List.nodup_cons.mpr ⟨h.length_notMem, h.nodup⟩
    refine ⟨howed.nodup_iff.mpr hnodup, fun n hn => ?_⟩
    rw [hlive, getElem?_opened]
    rcases List.mem_cons.mp (howed.mem_iff.mp hn) with heq | hn
    · exact Or.inr heq
    · exact Or.inl (h.live n hn)
  | closed n hlive howed =>
    obtain ⟨hnot, hnodup, -⟩ := h.of_perm_cons howed
    refine ⟨hnodup, fun m hm => ?_⟩
    have hne : m ≠ n := fun heq => hnot (heq ▸ hm)
    rw [hlive, getElem?_set_of_ne hne]
    exact h.live m (howed.mem_iff.mpr (List.mem_cons_of_mem n hm))

theorem Loses.sound (hloses : Loses before after) (h : before.Sound) : after.Sound := by
  cases hloses with
  | opened hlive howed =>
    refine ⟨howed.nodup_iff.mpr h.nodup, fun n hn => ?_⟩
    rw [hlive, getElem?_opened]
    exact Or.inl (h.live n (howed.mem_iff.mp hn))
  | revived n hdead hlive howed =>
    refine ⟨howed.nodup_iff.mpr h.nodup, fun m hm => ?_⟩
    have hbefore := h.live m (howed.mem_iff.mp hm)
    have hne : m ≠ n := by
      rintro rfl
      rw [hdead] at hbefore
      cases hbefore
    rw [hlive, getElem?_set_of_ne hne]
    exact hbefore
  | dropped n hlive howed =>
    obtain ⟨-, hnodup, -⟩ := h.of_perm_cons howed
    refine ⟨hnodup, fun m hm => ?_⟩
    rw [hlive]
    exact h.live m (howed.mem_iff.mpr (List.mem_cons_of_mem n hm))

/-- What is lost is not found again by a step that keeps. -/
theorem Keeps.clean_iff (hkeeps : Keeps before after) : after.Clean ↔ before.Clean := by
  cases hkeeps with
  | same hlive howed =>
    unfold Clean
    rw [hlive]
    exact forall_congr' fun n => imp_congr_right fun _ => howed.mem_iff
  | opened hlive howed =>
    unfold Clean
    simp only [hlive, getElem?_opened, howed.mem_iff, List.mem_cons]
    constructor
    · intro hclean n hn
      have hlt : n < before.live.length := (List.getElem?_eq_some_iff.mp hn).1
      exact (hclean n (Or.inl hn)).resolve_left (Nat.ne_of_lt hlt)
    · intro hclean n hn
      exact hn.symm.imp_right (hclean n)
  | closed n hlive howed =>
    unfold Clean
    simp only [hlive, howed.mem_iff, List.mem_cons]
    constructor
    · intro hclean m hm
      by_cases heq : m = n
      · exact Or.inl heq
      · exact Or.inr (hclean m ((getElem?_set_of_ne heq).trans hm))
    · intro hclean m hm
      have hne : m ≠ n := by
        rintro rfl
        rw [List.getElem?_set_self'] at hm
        cases hget : before.live[m]? <;> simp [hget] at hm
      rw [getElem?_set_of_ne hne] at hm
      exact (hclean m hm).resolve_left hne

theorem Loses.not_clean (hloses : Loses before after) (h : before.Sound) : ¬ after.Clean := by
  intro hclean
  cases hloses with
  | opened hlive howed =>
    have hnew : after.live[before.live.length]? = some true := by
      rw [hlive, getElem?_opened]
      exact Or.inr rfl
    exact h.length_notMem (howed.mem_iff.mp (hclean _ hnew))
  | revived n hdead hlive howed =>
    have hnew : after.live[n]? = some true := by
      rw [hlive, List.getElem?_set_self', hdead]
      rfl
    have hbefore := h.live n (howed.mem_iff.mp (hclean n hnew))
    rw [hdead] at hbefore
    cases hbefore
  | dropped n hlive howed =>
    obtain ⟨hnot, -, hbefore⟩ := h.of_perm_cons howed
    exact hnot (hclean n (by rw [hlive]; exact hbefore))

section Runs

variable {σ ι ε : Type*} (m : Machine σ ι ε) (ledger : σ → Ledger) {Inv : σ → Prop}
  {InTime : σ → ι → Prop}

/-- A machine with a ledger, and an exact account of its steps that lose: a run ends with a clean
ledger exactly when all its steps keep. -/
theorem along_iff_clean (hinv : ∀ s i, Inv s → Inv (m.step s i).1)
    (hkeeps : ∀ s i, Inv s → InTime s i → Keeps (ledger s) (ledger (m.step s i).1))
    (hloses : ∀ s i, Inv s → ¬ InTime s i → Loses (ledger s) (ledger (m.step s i).1))
    {s : σ} (hs : Inv s) (hsound : (ledger s).Sound) (hclean : (ledger s).Clean)
    (inputs : List ι) :
    m.Along (fun s _ i => InTime s i) s [] inputs ↔ (ledger (m.final s inputs)).Clean := by
  have hrun : ∀ inputs : List ι, Inv (m.final s inputs) ∧ (ledger (m.final s inputs)).Sound := by
    intro inputs
    induction inputs using List.reverseRecOn with
    | nil => exact ⟨hs, hsound⟩
    | append_singleton inputs i ih =>
      rw [m.final_append]
      refine ⟨hinv _ i ih.1, ?_⟩
      by_cases hin : InTime (m.final s inputs) i
      · exact (hkeeps _ i ih.1 hin).sound ih.2
      · exact (hloses _ i ih.1 hin).sound ih.2
  induction inputs using List.reverseRecOn with
  | nil => exact iff_of_true trivial hclean
  | append_singleton inputs i ih =>
    obtain ⟨hthere, hledger⟩ := hrun inputs
    rw [m.along_append, m.final_append]
    by_cases hin : InTime (m.final s inputs) i
    · have hiff := (hkeeps _ i hthere hin).clean_iff
      constructor
      · intro h
        exact hiff.mpr (ih.mp h.1)
      · intro h
        exact ⟨ih.mpr (hiff.mp h), hin, trivial⟩
    · have hnot := (hloses _ i hthere hin).not_clean hledger
      exact iff_of_false (fun h => hin h.2.1) hnot

end Runs

end Ledger

end PublicPool.Lib
