import Mathlib.Data.List.Forall2

/-!
# `PublicPool.Lib.PartialMaps`: a partial function along a list

A partial function that is mapped along a list gives a list only if it has a value at every element.
`mapM_eq_some_iff` takes the two lists apart element by element, `exists_mapM_iff` says when there is
a result.
-/

set_option autoImplicit false

namespace PublicPool.Lib

variable {α β : Type} {f : α → Option β}

section
variable {xs : List α} {ys : List β}

theorem mapM_eq_some_iff : xs.mapM f = some ys ↔ List.Forall₂ (fun x y => f x = some y) xs ys := by
  induction xs generalizing ys with
  | nil =>
    rw [List.forall₂_nil_left_iff]
    exact ⟨fun h => (Option.some.inj h).symm, fun h => congrArg some h.symm⟩
  | cons x xs ih =>
    simp only [List.mapM_cons, Option.bind_eq_bind, Option.bind_eq_some_iff, Option.pure_def,
      Option.some.injEq, ih]
    constructor
    · rintro ⟨y, hy, rest, hrest, rfl⟩
      exact List.Forall₂.cons hy hrest
    · intro h
      cases h with
      | cons hy hrest => exact ⟨_, hy, _, hrest, rfl⟩

theorem exists_mapM_iff : (∃ ys, xs.mapM f = some ys) ↔ ∀ x ∈ xs, ∃ y, f x = some y := by
  simp only [mapM_eq_some_iff]
  constructor
  · rintro ⟨ys, h⟩ x hx
    obtain ⟨i, hi, rfl⟩ := List.mem_iff_getElem.mp hx
    have hlength := h.length_eq
    exact ⟨ys[i], h.get hi (hlength ▸ hi)⟩
  · intro h
    induction xs with
    | nil => exact ⟨[], List.Forall₂.nil⟩
    | cons x xs ih =>
      obtain ⟨y, hy⟩ := h x List.mem_cons_self
      obtain ⟨ys, hys⟩ := ih fun z hz => h z (List.mem_cons_of_mem _ hz)
      exact ⟨y :: ys, List.Forall₂.cons hy hys⟩

/-- Every element of the result is a value. -/
theorem exists_of_mem_mapM (h : xs.mapM f = some ys) {y : β} (hy : y ∈ ys) :
    ∃ x ∈ xs, f x = some y := by
  have hvalues := mapM_eq_some_iff.mp h
  clear h
  induction hvalues with
  | nil => cases hy
  | cons hvalue _ ih =>
    rcases List.mem_cons.mp hy with rfl | hy
    · exact ⟨_, List.mem_cons_self, hvalue⟩
    · obtain ⟨x, hx, hfx⟩ := ih hy
      exact ⟨x, List.mem_cons_of_mem _ hx, hfx⟩

end

end PublicPool.Lib
