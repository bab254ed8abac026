import Mathlib.Data.List.Basic
import Mathlib.Data.Nat.Init

/-!
# `PublicPool.Lib.MerkleTree`: merkle trees that pair a last node with itself

A tree over a list of leaves is built level by level: `nextLevel` combines neighbours, and a last
node that has no partner is combined with itself. `root` is the node that is left in the end.

`path` lists the siblings of the nodes above one leaf, and `climb` goes up along such a list.

* `root_eq_climb`: climbing from a leaf along its path ends in the root.
* `path_cons_congr`: the path of the first leaf does not depend on that leaf. Of the nodes of a
  level only the first has the first leaf below it, and its sibling is another node. For a last
  leaf this fails, since it may be its own sibling.
-/

set_option autoImplicit false

namespace PublicPool.Lib.MerkleTree

variable {α : Type*} (combine : α → α → α)

/-! ### Levels -/

/-- The level above a level. -/
def nextLevel : List α → List α
  | left :: right :: rest => combine left right :: nextLevel rest
  | [left] => [combine left left]
  | [] => []

theorem length_nextLevel (level : List α) :
    (nextLevel combine level).length = (level.length + 1) / 2 := by
  induction level using nextLevel.induct with
  | case1 left right rest ih =>
    simp only [nextLevel, List.length_cons, ih]
    omega
  | case2 left => simp [nextLevel]
  | case3 => simp [nextLevel]

/-- A node is the combination of the two nodes below it, or of the one with itself. -/
theorem getElem?_nextLevel (level : List α) (i : ℕ) :
    (nextLevel combine level)[i]?
      = level[2 * i]?.map fun left => combine left (level[2 * i + 1]?.getD left) := by
  induction level using nextLevel.induct generalizing i with
  | case1 left right rest ih =>
    cases i with
    | zero => rfl
    | succ i =>
      have heven : 2 * (i + 1) = 2 * i + 1 + 1 := by omega
      simp only [nextLevel, List.getElem?_cons_succ, ih, heven]
  | case2 left =>
    cases i with
    | zero => rfl
    | succ i => simp [nextLevel, Nat.mul_add]
  | case3 => simp [nextLevel]

section
variable {level : List α} {i : ℕ}

/-- A level above is shorter, as long as there is something to combine. -/
theorem length_nextLevel_lt (h : 1 < level.length) :
    (nextLevel combine level).length < level.length := by
  rw [length_nextLevel]
  omega

/-! ### The root -/

/-- The root of the tree over some leaves. -/
def root (level : List α) : Option α :=
  if 1 < level.length then root (nextLevel combine level) else level.head?
termination_by level.length
decreasing_by exact length_nextLevel_lt combine ‹_›

theorem root_of_lt (h : 1 < level.length) :
    root combine level = root combine (nextLevel combine level) := by
  rw [root, if_pos h]

/-! ### Paths -/

/-- The node that is combined with the one at `i`: its neighbour, or the node itself. -/
def sibling (level : List α) (i : ℕ) : Option α :=
  if i % 2 = 0 then level[i + 1]?.or level[i]? else level[i - 1]?

/-- The siblings from a leaf up to the root. -/
def path (level : List α) (i : ℕ) : List α :=
  if 1 < level.length then
    (sibling level i).toList ++ path (nextLevel combine level) (i / 2)
  else []
termination_by level.length
decreasing_by exact length_nextLevel_lt combine ‹_›

theorem path_of_lt (h : 1 < level.length) (i : ℕ) :
    path combine level i
      = (sibling level i).toList ++ path combine (nextLevel combine level) (i / 2) := by
  rw [path, if_pos h]

theorem path_of_le (h : level.length ≤ 1) (i : ℕ) : path combine level i = [] := by
  rw [path, if_neg (by omega)]

/-- The node above the one at `i`, whose sibling is given. -/
def parent (i : ℕ) (node sibling : α) : α :=
  if i % 2 = 0 then combine node sibling else combine sibling node

/-- The node reached from the one at `i` along a path. -/
def climb (i : ℕ) (node : α) : List α → α
  | [] => node
  | sibling :: rest => climb (i / 2) (parent combine i node sibling) rest

/-- Climbing from the first node combines from the left. -/
theorem climb_zero (node : α) (siblings : List α) :
    climb combine 0 node siblings = siblings.foldl combine node := by
  induction siblings generalizing node with
  | nil => rfl
  | cons sibling rest ih => exact ih (combine node sibling)

/-- A node has a sibling, and the two are combined into the node above. -/
theorem exists_sibling {node : α} (hnode : level[i]? = some node) :
    ∃ other, sibling level i = some other ∧
      (nextLevel combine level)[i / 2]? = some (parent combine i node other) := by
  unfold sibling parent
  rw [getElem?_nextLevel]
  rcases Nat.mod_two_eq_zero_or_one i with heven | hodd
  · -- The node is on the left, and possibly the last of its level.
    have hi : 2 * (i / 2) = i := by omega
    rw [if_pos heven, hi, hnode]
    cases hright : level[i + 1]? with
    | none => exact ⟨node, rfl, by rw [if_pos heven]; rfl⟩
    | some right => exact ⟨right, rfl, by rw [if_pos heven]; rfl⟩
  · -- The node is on the right, so there is one on its left.
    have hi : 2 * (i / 2) = i - 1 := by omega
    have hlt : i < level.length := (List.getElem?_eq_some_iff.mp hnode).1
    have hleft : level[i - 1]? = some level[i - 1] := List.getElem?_eq_getElem (by omega)
    have hodd' : ¬ i % 2 = 0 := by omega
    refine ⟨level[i - 1], by rw [if_neg hodd', hleft], ?_⟩
    have hright : i - 1 + 1 = i := by omega
    rw [if_neg hodd', hi, hleft, hright, hnode]
    rfl

/-- Climbing from a leaf along its path ends in the root. -/
theorem root_eq_climb {leaf : α} (hleaf : level[i]? = some leaf) :
    root combine level = some (climb combine i leaf (path combine level i)) := by
  induction hn : level.length using Nat.strong_induction_on generalizing level i leaf
  rename_i n ih
  by_cases hlength : 1 < level.length
  · obtain ⟨other, hsibling, hnext⟩ := exists_sibling combine hleaf
    rw [root_of_lt combine hlength, path_of_lt combine hlength, hsibling]
    exact ih _ (hn ▸ length_nextLevel_lt combine hlength) hnext rfl
  · -- One leaf is the root, and its path is empty.
    have hi : i < level.length := (List.getElem?_eq_some_iff.mp hleaf).1
    have hzero : i = 0 := by omega
    rw [path_of_le combine (by omega), root, if_neg hlength, List.head?_eq_getElem?, ← hzero]
    exact hleaf

end

/-- The path of the first leaf does not depend on that leaf. -/
theorem path_cons_congr (leaf other : α) (rest : List α) :
    path combine (leaf :: rest) 0 = path combine (other :: rest) 0 := by
  induction hn : rest.length using Nat.strong_induction_on generalizing leaf other rest
  rename_i n ih
  cases rest with
  | nil => rw [path_of_le combine (by simp) 0, path_of_le combine (by simp) 0]
  | cons right rest =>
    have hlength : (nextLevel combine rest).length < n := by
      rw [length_nextLevel, ← hn, List.length_cons]
      omega
    have hpath (first : α) : path combine (first :: right :: rest) 0
        = right :: path combine (combine first right :: nextLevel combine rest) 0 :=
      path_of_lt combine (by simp) 0
    rw [hpath leaf, hpath other]
    exact congrArg (right :: ·) (ih _ hlength (combine leaf right) (combine other right) _ rfl)

end PublicPool.Lib.MerkleTree
