import Mathlib.Data.List.TakeDrop

/-!
# `PublicPool.Lib.OnlyLast`: lists where only the last element has work left

Loops that were started one after the other have some work each. As long as a new one comes only
when nobody has work left, no element but the last one has any (`OnlyLast`), and then the work of
the whole list is done in order, whichever element moves: `set` takes the first piece off,
`erase` drops an element, `append` adds one.
-/

set_option autoImplicit false

namespace PublicPool.Lib

variable {α β : Type*} {work : α → List β} {l : List α}

/-- No element but the last one has work. -/
def OnlyLast (work : α → List β) (l : List α) : Prop :=
  l.Pairwise fun earlier _ => work earlier = []

theorem getElem?_split {i : ℕ} {x : α} (h : l[i]? = some x) :
    ∃ before after, l = before ++ x :: after ∧ l.eraseIdx i = before ++ after ∧
      ∀ y, l.set i y = before ++ y :: after := by
  obtain ⟨hi, hx⟩ := List.getElem?_eq_some_iff.mp h
  refine ⟨l.take i, l.drop (i + 1), ?_, List.eraseIdx_eq_take_drop_succ .., fun y => ?_⟩
  · rw [← hx, List.cons_getElem_drop_succ, List.take_append_drop]
  · rw [List.set_eq_take_append_cons_drop, if_pos hi]

namespace OnlyLast

section
variable {x y : α} {i : ℕ}

/-- An element with work is the last one, and the only one. -/
theorem last {before after : List α} (h : OnlyLast work (before ++ x :: after)) (hx : work x ≠ []) :
    after = [] ∧ ∀ y ∈ before, work y = [] := by
  obtain ⟨-, hafter, hbefore⟩ := List.pairwise_append.mp h
  refine ⟨?_, fun y hy => hbefore y hy x List.mem_cons_self⟩
  cases after with
  | nil => rfl
  | cons later after => exact absurd ((List.pairwise_cons.mp hafter).1 later List.mem_cons_self) hx

theorem erase (h : OnlyLast work l) (hx : l[i]? = some x) :
    OnlyLast work (l.eraseIdx i) ∧ ((l.eraseIdx i).flatMap work = l.flatMap work ∨
      work x ≠ [] ∧ (l.eraseIdx i).flatMap work = []) := by
  obtain ⟨before, after, rfl, herase, -⟩ := getElem?_split hx
  refine ⟨h.sublist (List.eraseIdx_sublist ..), ?_⟩
  rw [herase]
  by_cases hwork : work x = []
  · left
    simp [hwork]
  · obtain ⟨rfl, hbefore⟩ := h.last hwork
    right
    rw [List.append_nil]
    exact ⟨hwork, List.flatMap_eq_nil_iff.mpr hbefore⟩

/-- An element is replaced by one with the same work. -/
theorem set_same (h : OnlyLast work l) (hx : l[i]? = some x) (hwork : work y = work x) :
    OnlyLast work (l.set i y) ∧ (l.set i y).flatMap work = l.flatMap work := by
  obtain ⟨before, after, rfl, -, hset⟩ := getElem?_split hx
  rw [hset]
  constructor
  · simp only [OnlyLast, List.pairwise_append, List.pairwise_cons, List.mem_cons, forall_eq_or_imp]
      at h ⊢
    exact ⟨h.1, ⟨fun later hmem => hwork.trans (h.2.1.1 later hmem), h.2.1.2⟩, h.2.2⟩
  · simp only [List.flatMap_append, List.flatMap_cons, hwork]

/-- An element does the first pieces of its work. -/
theorem move (h : OnlyLast work l) {i : ℕ} {x y : α} {done : List β} (hx : l[i]? = some x)
    (hwork : work x = done ++ work y) :
    OnlyLast work (l.set i y) ∧ l.flatMap work = done ++ (l.set i y).flatMap work := by
  cases done with
  | nil =>
    obtain ⟨hset, hflat⟩ := h.set_same hx hwork.symm
    exact ⟨hset, hflat.symm⟩
  | cons w done =>
    obtain ⟨before, after, rfl, -, hset⟩ := getElem?_split hx
    obtain ⟨rfl, hbefore⟩ := h.last (by rw [hwork]; exact List.cons_ne_nil _ _)
    have hnone := List.flatMap_eq_nil_iff.mpr hbefore
    rw [hset]
    constructor
    · simp only [OnlyLast, List.pairwise_append] at h ⊢
      exact ⟨h.1, List.pairwise_singleton .., fun earlier hmem _ _ => hbefore earlier hmem⟩
    · simp only [List.flatMap_append, List.flatMap_cons, List.flatMap_nil, List.append_nil, hnone,
        hwork, List.nil_append]

/-- An element does the first piece of its work. -/
theorem set (h : OnlyLast work l) {w : β} (hx : l[i]? = some x) (hwork : work x = w :: work y) :
    OnlyLast work (l.set i y) ∧ l.flatMap work = w :: (l.set i y).flatMap work :=
  @move _ _ _ _ h i x y [w] hx hwork

end

/-- A new element comes when nobody has work. -/
theorem append (h : OnlyLast work l) (hnone : l.flatMap work = []) (y : α) :
    OnlyLast work (l ++ [y]) ∧ (l ++ [y]).flatMap work = work y := by
  have hall := List.flatMap_eq_nil_iff.mp hnone
  constructor
  · simp only [OnlyLast, List.pairwise_append] at h ⊢
    exact ⟨h, List.pairwise_singleton .., fun earlier hmem _ _ => hall earlier hmem⟩
  · rw [List.flatMap_append, hnone, List.flatMap_cons, List.flatMap_nil, List.append_nil,
      List.nil_append]

end OnlyLast

end PublicPool.Lib
