import Mathlib.Data.List.Basic

/-!
# `PublicPool.Lib.UniqueTable`: a table with a unique key

A table keeps rows. A value is stored as a row, or refused for what it is; a row is refused when
the table has one with its key. `insertRows` is the statement that inserts several values: one
refused value fails it, and the table stays as it was. `insertEach` inserts the same values one by
one, each in a statement of its own, and `storable` are those of them that are then stored.

The two agree when the table takes all values or none. `insertRows_eq_some_iff` is the rule for the
first, and a storable value is one that the table did not have (`not_mem_of_mem_storable`).
-/

set_option autoImplicit false

namespace PublicPool.Lib

/-- What a table asks of its rows. -/
structure TableRules (α ρ κ : Type*) where
  /-- The row that a value is stored as, if the table does not refuse the value. -/
  row : α → Option ρ
  /-- The columns of the unique index. -/
  key : ρ → κ

namespace TableRules

variable {α ρ κ : Type*} [DecidableEq κ] (rules : TableRules α ρ κ)

/-- A value inserted alone. -/
def insertRow (table : List ρ) (value : α) : Option (List ρ) :=
  match rules.row value with
  | none => none
  | some row =>
    if rules.key row ∈ table.map rules.key then none else some (table ++ [row])

/-- Several values inserted by one statement. -/
def insertRows : List ρ → List α → Option (List ρ)
  | table, [] => some table
  | table, value :: values =>
    match rules.insertRow table value with
    | none => none
    | some table => insertRows table values

/-- The table after the values were inserted one by one. -/
def insertEach : List ρ → List α → List ρ
  | table, [] => table
  | table, value :: values => insertEach ((rules.insertRow table value).getD table) values

/-- The values that are stored when they are inserted one by one. -/
def storable : List ρ → List α → List α
  | _, [] => []
  | table, value :: values =>
    match rules.insertRow table value with
    | none => storable table values
    | some table => value :: storable table values

variable {rules} {table : List ρ} {value : α} {values : List α}

theorem insertRow_eq_some {table' : List ρ} (h : rules.insertRow table value = some table') :
    ∃ row, rules.row value = some row ∧ rules.key row ∉ table.map rules.key ∧
      table' = table ++ [row] := by
  unfold insertRow at h
  cases hrow : rules.row value with
  | none => simp [hrow] at h
  | some row =>
    by_cases hkey : rules.key row ∈ table.map rules.key
    · simp [hrow, hkey] at h
    · rw [hrow] at h
      simp only [hkey, if_false, Option.some.injEq] at h
      exact ⟨row, rfl, hkey, h.symm⟩

variable (rules) in
theorem length_storable_le (table : List ρ) (values : List α) :
    (rules.storable table values).length ≤ values.length := by
  induction values generalizing table with
  | nil => simp [storable]
  | cons value values ih =>
    unfold storable
    cases rules.insertRow table value with
    | none =>
      have hrest := ih table
      simp only [List.length_cons]
      omega
    | some table' =>
      have hrest := ih table'
      simp only [List.length_cons]
      omega

/-- Inserting one by one appends the rows of the values that are stored. -/
theorem insertEach_eq (table : List ρ) (values : List α) :
    rules.insertEach table values = table ++ (rules.storable table values).filterMap rules.row := by
  induction values generalizing table with
  | nil => simp [insertEach, storable]
  | cons value values ih =>
    unfold insertEach storable
    cases h : rules.insertRow table value with
    | none => exact ih table
    | some table' =>
      obtain ⟨row, hrow, -, rfl⟩ := insertRow_eq_some h
      show rules.insertEach (table ++ [row]) values = _
      rw [ih, List.filterMap_cons_some hrow, List.append_assoc, List.singleton_append]

/-- One statement stores the values iff each is stored when they are inserted one by one. -/
theorem insertRows_eq_some_iff {table' : List ρ} :
    rules.insertRows table values = some table' ↔
      rules.storable table values = values ∧ rules.insertEach table values = table' := by
  induction values generalizing table with
  | nil => simp [insertRows, storable, insertEach]
  | cons value values ih =>
    unfold insertRows storable insertEach
    cases h : rules.insertRow table value with
    | none =>
      -- the values that are left are too few to be all
      have hshort : rules.storable table values ≠ value :: values := by
        intro heq
        have hle := length_storable_le rules table values
        rw [heq, List.length_cons] at hle
        omega
      simp [hshort]
    | some next => simp [ih]

/-- A storable value is one of the values, and its row is not in the table before. -/
theorem mem_storable (h : value ∈ rules.storable table values) :
    value ∈ values ∧ ∃ row, rules.row value = some row ∧ row ∉ table := by
  induction values generalizing table with
  | nil => simp [storable] at h
  | cons first values ih =>
    unfold storable at h
    cases hfirst : rules.insertRow table first with
    | none =>
      rw [hfirst] at h
      obtain ⟨hmem, hrow⟩ := ih h
      exact ⟨List.mem_cons_of_mem _ hmem, hrow⟩
    | some next =>
      obtain ⟨row, hrow, hkey, rfl⟩ := insertRow_eq_some hfirst
      rw [hfirst] at h
      rcases List.mem_cons.mp h with rfl | hlater
      · exact ⟨List.mem_cons_self, row, hrow, fun hin => hkey (List.mem_map_of_mem hin)⟩
      · obtain ⟨hmem, later, hlaterRow, hnew⟩ := ih hlater
        refine ⟨List.mem_cons_of_mem _ hmem, later, hlaterRow, fun hin => hnew ?_⟩
        exact List.mem_append_left _ hin

/-- One by one, the rows of the storable values are stored. -/
theorem mem_insertEach (h : value ∈ rules.storable table values) :
    ∃ row, rules.row value = some row ∧ row ∈ rules.insertEach table values := by
  obtain ⟨-, row, hrow, -⟩ := mem_storable h
  refine ⟨row, hrow, ?_⟩
  rw [insertEach_eq]
  exact List.mem_append_right _ (List.mem_filterMap.mpr ⟨value, h, hrow⟩)

end TableRules

end PublicPool.Lib
