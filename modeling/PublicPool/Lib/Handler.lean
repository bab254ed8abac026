import Mathlib.Data.Option.Basic
import Mathlib.Data.List.Basic

/-!
# `PublicPool.Lib.Handler`: handlers that make calls which may fail

A handler makes calls, one after the other. A call has an effect, and an assignment says which
effects fail: a call that fails ends the handler, as a rejected promise does at its `await`. Under
an assignment a handler comes to the calls it made, in order, and to a value unless it ended early.

The rules are about which calls are made. A call of `h >>= f` is one of `h`, or one of `f a` when
`h` comes to `a` (`mem_calls_bind`); what was called before a failure stays called.
-/

set_option autoImplicit false

namespace PublicPool.Lib

/-- A handler with calls in `κ`, whose effects are in `φ`. -/
def Handler (κ φ α : Type) : Type := (φ → Bool) → List κ × Option α

namespace Handler

variable {κ φ α β : Type}

/-- The calls a handler makes when some effects fail. -/
def calls (h : Handler κ φ α) (fails : φ → Bool) : List κ := (h fails).1

/-- What a handler comes to, or `none` if it ends early. -/
def value (h : Handler κ φ α) (fails : φ → Bool) : Option α := (h fails).2

instance : Monad (Handler κ φ) where
  pure a := fun _ => ([], some a)
  bind h f := fun fails =>
    match h.value fails with
    | none => (h.calls fails, none)
    | some a => (h.calls fails ++ (f a).calls fails, (f a).value fails)

/-- A call that ends the handler when its effect fails. -/
def call (k : κ) (effect : φ) : Handler κ φ Unit := fun fails =>
  ([k], if fails effect then none else some ())

/-- A call that always answers. -/
def tell (k : κ) : Handler κ φ Unit := fun _ => ([k], some ())

/-- A computation that may throw. -/
def ofOption (a : Option α) : Handler κ φ α := fun _ => ([], a)

variable {h : Handler κ φ α} {f : α → Handler κ φ β} {fails : φ → Bool} {k k' : κ} {effect : φ}

@[simp] theorem calls_pure (a : α) : (pure a : Handler κ φ α).calls fails = [] := rfl

@[simp] theorem value_pure (a : α) : (pure a : Handler κ φ α).value fails = some a := rfl

@[simp] theorem calls_call : (call k effect).calls fails = [k] := rfl

/-- A call comes back when its effect does not fail. -/
@[simp] theorem value_call_eq_some {u : Unit} :
    (call k effect).value fails = some u ↔ fails effect = false := by
  show (if fails effect then none else some ()) = some u ↔ _
  cases fails effect with
  | true => simp
  | false => simp

@[simp] theorem calls_tell : (tell k : Handler κ φ Unit).calls fails = [k] := rfl

@[simp] theorem value_tell : (tell k : Handler κ φ Unit).value fails = some () := rfl

@[simp] theorem calls_ofOption (a : Option α) :
    (ofOption a : Handler κ φ α).calls fails = [] := rfl

@[simp] theorem value_ofOption (a : Option α) :
    (ofOption a : Handler κ φ α).value fails = a := rfl

theorem value_bind :
    (h >>= f).value fails = (h.value fails).bind fun a => (f a).value fails := by
  show (match h.value fails with
    | none => (h.calls fails, none)
    | some a => (h.calls fails ++ (f a).calls fails, (f a).value fails)).2 = _
  cases h.value fails with
  | none => rfl
  | some a => rfl

/-- The calls of a sequence, when its first part comes to its end. -/
theorem calls_bind_of_value {a : α} (ha : h.value fails = some a) :
    (h >>= f).calls fails = h.calls fails ++ (f a).calls fails := by
  show (match h.value fails with
    | none => (h.calls fails, none)
    | some a => (h.calls fails ++ (f a).calls fails, (f a).value fails)).1 = _
  rw [ha]

/-- A sequence comes to its end when both parts do. -/
@[simp] theorem value_bind_eq_some {b : β} :
    (h >>= f).value fails = some b ↔
      ∃ a, h.value fails = some a ∧ (f a).value fails = some b := by
  rw [value_bind, Option.bind_eq_some_iff]

/-- A call of a sequence is one of the first part, or one of the second part that follows. -/
@[simp] theorem mem_calls_bind :
    k ∈ (h >>= f).calls fails ↔
      k ∈ h.calls fails ∨ ∃ a, h.value fails = some a ∧ k ∈ (f a).calls fails := by
  show k ∈ (match h.value fails with
    | none => (h.calls fails, none)
    | some a => (h.calls fails ++ (f a).calls fails, (f a).value fails)).1 ↔ _
  cases h.value fails with
  | none => simp
  | some a => simp

/-- The value of a conditional handler. -/
@[simp] theorem value_ite (p : Prop) [Decidable p] (h h' : Handler κ φ α) :
    (if p then h else h').value fails = if p then h.value fails else h'.value fails := by
  split <;> rfl

@[simp] theorem calls_ite (p : Prop) [Decidable p] (h h' : Handler κ φ α) :
    (if p then h else h').calls fails = if p then h.calls fails else h'.calls fails := by
  split <;> rfl

end Handler

end PublicPool.Lib
