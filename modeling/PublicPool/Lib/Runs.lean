import Mathlib.Data.List.Basic
import Mathlib.Data.List.Induction

/-!
# `PublicPool.Lib.Runs`: runs of a state machine

A `Machine` takes inputs one at a time; each moves its state and emits some events. A run
is a list of inputs from a start state, and its history is the list of all events emitted so
far.

`Along P` says that `P` holds at every step of a run: of the state before the step, the
history before it and the input. It is the form in which conditions on runs and properties
of runs are stated, and `along_of_invariant` is the rule that proves them: an invariant of
state and history that every step keeps under a condition turns the condition along a run
into the property along it. `history_invariant` is the same rule for a property of where the
run ends.
-/

set_option autoImplicit false

namespace PublicPool.Lib

/-- A deterministic state machine with inputs `ι` that emits events `ε`. -/
structure Machine (σ ι ε : Type*) where
  /-- The state after an input, and the events it emits. -/
  step : σ → ι → σ × List ε

namespace Machine

variable {σ ι ε : Type*} (m : Machine σ ι ε)

/-- The state after a run. -/
def final (s : σ) (inputs : List ι) : σ :=
  inputs.foldl (fun s i => (m.step s i).1) s

/-- The events of a run, oldest first. -/
def history : σ → List ι → List ε
  | _, [] => []
  | s, i :: inputs => (m.step s i).2 ++ history (m.step s i).1 inputs

/-- `P` holds at every step of a run that continues the history `h`. -/
def Along (P : σ → List ε → ι → Prop) : σ → List ε → List ι → Prop
  | _, _, [] => True
  | s, h, i :: inputs => P s h i ∧ Along P (m.step s i).1 (h ++ (m.step s i).2) inputs

instance {P : σ → List ε → ι → Prop} [∀ s h i, Decidable (P s h i)] (s : σ) (h : List ε)
    (inputs : List ι) : Decidable (m.Along P s h inputs) := by
  induction inputs generalizing s h with
  | nil => exact isTrue trivial
  | cons i inputs ih => exact inferInstanceAs (Decidable (_ ∧ _))

section
variable (s : σ) (i : ι) (inputs : List ι)

@[simp] theorem final_nil : m.final s [] = s := rfl

@[simp] theorem final_cons : m.final s (i :: inputs) = m.final (m.step s i).1 inputs := rfl

@[simp] theorem history_nil : m.history s [] = [] := rfl

@[simp] theorem history_cons :
    m.history s (i :: inputs) = (m.step s i).2 ++ m.history (m.step s i).1 inputs := rfl

theorem final_append (inputs more : List ι) :
    m.final s (inputs ++ more) = m.final (m.final s inputs) more :=
  List.foldl_append

theorem history_append (inputs more : List ι) :
    m.history s (inputs ++ more) = m.history s inputs ++ m.history (m.final s inputs) more := by
  induction inputs generalizing s with
  | nil => rfl
  | cons i inputs ih => simp [ih]

end

/-- The invariant rule. If an invariant holds at the start, and every step that meets the
condition keeps it and has the property, then the condition along a run gives the property
along it. -/
theorem along_of_invariant {Inv : σ → List ε → Prop} {Cond Good : σ → List ε → ι → Prop}
    (hstep : ∀ s h i, Inv s h → Cond s h i →
      Good s h i ∧ Inv (m.step s i).1 (h ++ (m.step s i).2))
    {s : σ} {h : List ε} (hinv : Inv s h) {inputs : List ι} (hcond : m.Along Cond s h inputs) :
    m.Along Good s h inputs := by
  induction inputs generalizing s h with
  | nil => trivial
  | cons i inputs ih =>
    obtain ⟨hc, hrest⟩ := hcond
    obtain ⟨hgood, hinv'⟩ := hstep s h i hinv hc
    exact ⟨hgood, ih hinv' hrest⟩

/-- The invariant rule for the end of a run. -/
theorem history_invariant {Inv : σ → List ε → Prop} {Cond : σ → List ε → ι → Prop}
    (hstep : ∀ s h i, Inv s h → Cond s h i → Inv (m.step s i).1 (h ++ (m.step s i).2))
    {s : σ} {h : List ε} (hinv : Inv s h) {inputs : List ι} (hcond : m.Along Cond s h inputs) :
    Inv (m.final s inputs) (h ++ m.history s inputs) := by
  induction inputs generalizing s h with
  | nil => simpa using hinv
  | cons i inputs ih =>
    obtain ⟨hc, hrest⟩ := hcond
    have hnext := ih (hstep s h i hinv hc) hrest
    rwa [List.append_assoc] at hnext

section
variable {s : σ} {h : List ε} {inputs : List ι}

/-- A condition along a run is one along its two parts. -/
theorem along_append {P : σ → List ε → ι → Prop} {more : List ι} :
    m.Along P s h (inputs ++ more) ↔
      m.Along P s h inputs ∧ m.Along P (m.final s inputs) (h ++ m.history s inputs) more := by
  induction inputs generalizing s h with
  | nil => simp [Along]
  | cons i inputs ih => simp only [List.cons_append, Along, ih, final_cons, history_cons,
      List.append_assoc, and_assoc]

/-- The invariant rule for invariants that look back at the inputs. -/
theorem prefix_invariant {Inv : List ι → σ → List ε → Prop} {Cond : σ → List ε → ι → Prop}
    (hstart : Inv [] s []) (hstep : ∀ inputs i, Inv inputs (m.final s inputs) (m.history s inputs) →
      Cond (m.final s inputs) (m.history s inputs) i →
      Inv (inputs ++ [i]) (m.step (m.final s inputs) i).1
        (m.history s inputs ++ (m.step (m.final s inputs) i).2)) (hcond : m.Along Cond s [] inputs)
    :
    Inv inputs (m.final s inputs) (m.history s inputs) := by
  induction inputs using List.reverseRecOn with
  | nil => exact hstart
  | append_singleton inputs i ih =>
    obtain ⟨hbefore, hlast, -⟩ := (m.along_append).mp hcond
    rw [List.nil_append] at hlast
    have hnext := hstep inputs i (ih hbefore) hlast
    rw [final_append, history_append]
    simpa using hnext

/-- What holds at every step of every run holds along each run. -/
theorem along_of_forall {P : σ → List ε → ι → Prop} (hP : ∀ s h i, P s h i) (s : σ)
    (h : List ε) (inputs : List ι) : m.Along P s h inputs := by
  induction inputs generalizing s h with
  | nil => trivial
  | cons i inputs ih => exact ⟨hP s h i, ih _ _⟩

/-- What holds of every input of a run holds along it. -/
theorem along_of_forall_mem {P : ι → Prop} (hP : ∀ i ∈ inputs, P i) (s : σ) (h : List ε) :
    m.Along (fun _ _ i => P i) s h inputs := by
  induction inputs generalizing s h with
  | nil => trivial
  | cons i inputs ih =>
    exact ⟨hP i List.mem_cons_self, ih (fun j hj => hP j (List.mem_cons_of_mem i hj)) _ _⟩

/-- A condition along a run may be weakened. -/
theorem Along.imp {P Q : σ → List ε → ι → Prop} (hPQ : ∀ s h i, P s h i → Q s h i)
    (hP : m.Along P s h inputs) : m.Along Q s h inputs := by
  induction inputs generalizing s h with
  | nil => trivial
  | cons i inputs ih => exact ⟨hPQ s h i hP.1, ih hP.2⟩

/-- Two conditions along a run hold together along it. -/
theorem Along.and {P Q : σ → List ε → ι → Prop} (hP : m.Along P s h inputs)
    (hQ : m.Along Q s h inputs) : m.Along (fun s h i => P s h i ∧ Q s h i) s h inputs := by
  induction inputs generalizing s h with
  | nil => trivial
  | cons i inputs ih => exact ⟨⟨hP.1, hQ.1⟩, ih hP.2 hQ.2⟩

end

end Machine

end PublicPool.Lib
