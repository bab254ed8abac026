import Mathlib.Data.List.Basic

/-!
# `PublicPool.Lib.Latest`: what a history has announced last

Some events of a history announce a value, and each announcement replaces the one before.
`latest` is the value in force at the end of a history, and `latestBefore` are the values that
were in force when the events of some kind happened.

A step that announces nothing leaves `latest` alone; one that does replaces it, whatever the
history was. These are the two ways in which an invariant about `latest` is kept.
-/

set_option autoImplicit false

namespace PublicPool.Lib

variable {ε α : Type*} (announces : ε → Option α)

/-- The value that a history announces last. -/
def latest (history : List ε) : Option α := (history.filterMap announces).getLast?

/-- The values in force at the marked events of a history. -/
def latestBefore (marked : ε → Bool) (history : List ε) : List α :=
  (history.inits.zip history).filterMap fun entry =>
    if marked entry.2 then latest announces entry.1 else none

@[simp] theorem latest_nil : latest announces ([] : List ε) = none := rfl

@[simp] theorem latest_singleton (event : ε) : latest announces [event] = announces event := by
  cases h : announces event with
  | none => simp [latest, h]
  | some a => simp [latest, h]

variable {announces} {history more : List ε}

theorem latest_append :
    latest announces (history ++ more) = (latest announces more).or (latest announces history) := by
  rw [latest, List.filterMap_append, List.getLast?_append]
  rfl

/-- Events that announce nothing leave the value in force. -/
theorem latest_append_of_none (h : latest announces more = none) :
    latest announces (history ++ more) = latest announces history := by
  rw [latest_append, h, Option.none_or]

/-- A new announcement replaces the value in force. -/
theorem latest_append_of_some {a : α} (h : latest announces more = some a) :
    latest announces (history ++ more) = some a := by
  rw [latest_append, h, Option.some_or]

/-- Nothing is announced by events none of which announces anything. -/
theorem latest_eq_none (h : ∀ event ∈ history, announces event = none) :
    latest announces history = none := by
  rw [latest, List.filterMap_eq_nil_iff.mpr h]
  rfl

/-- An announcement at the end is in force. -/
theorem latest_concat {event : ε} {a : α} (h : announces event = some a) :
    latest announces (history ++ [event]) = some a :=
  latest_append_of_some ((latest_singleton announces event).trans h)

/-- What is announced by the images of events is what they announce as images. -/
theorem latest_map {ε' : Type*} (f : ε' → ε) (history : List ε') :
    latest announces (history.map f) = latest (announces ∘ f) history := by
  rw [latest, List.filterMap_map, latest]

end PublicPool.Lib
