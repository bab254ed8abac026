import Mathlib.Data.List.Basic

/-!
# `PublicPool.Lib.OrderedChannel`: messages in transit between two stateful ends

One end seals messages, the other opens them, and both keep a state that moves with every message.
`Opens` is the law of such a pair: while the states belong together, what is sealed is opened, and
the states belong together again.

The messages in between are on their way in a queue. `InTransit` says what the queue holds: opened
in order, it gives the messages that were sealed and not yet opened, and ends in a state that
belongs to the sealing end. Sending and receiving keep it, so nothing is lost, made up or swapped.
-/

set_option autoImplicit false

namespace PublicPool.Lib

variable {σ τ M C : Type*}

/-- A sealing end and an opening end. Both may fail. -/
structure OrderedChannel (σ τ M C : Type*) where
  sealMessage : σ → M → Option (C × σ)
  openMessage : τ → C → Option (M × τ)

namespace OrderedChannel

variable (channel : OrderedChannel σ τ M C)

/-- What is sealed is opened as long as the states of the ends are `Synced`. -/
def Opens (Synced : σ → τ → Prop) : Prop :=
  ∀ {s t m c s'}, Synced s t → channel.sealMessage s m = some (c, s') →
    ∃ t', channel.openMessage t c = some (m, t') ∧ Synced s' t'

/-- Open a queue in order. -/
def openAll (t : τ) : List C → Option (List M × τ)
  | [] => some ([], t)
  | c :: queue => do
    let (m, t) ← channel.openMessage t c
    let (messages, t) ← openAll t queue
    return (m :: messages, t)

variable {channel} {Synced : σ → τ → Prop} {s s' : σ} {t : τ} {m : M} {c : C}
  {queue : List C} {messages : List M}

theorem openAll_cons_eq_some {t' : τ} :
    channel.openAll t (c :: queue) = some (messages, t') ↔
      ∃ m t₁ rest, channel.openMessage t c = some (m, t₁) ∧
        channel.openAll t₁ queue = some (rest, t') ∧ messages = m :: rest := by
  simp only [openAll, Option.bind_eq_bind, Option.bind_eq_some_iff, Option.pure_def,
    Option.some.injEq, Prod.mk.injEq, Prod.exists]
  constructor
  · rintro ⟨m, t₁, hopen, rest, t₂, hrest, rfl, rfl⟩
    exact ⟨m, t₁, rest, hopen, hrest, rfl⟩
  · rintro ⟨m, t₁, rest, hopen, hrest, rfl⟩
    exact ⟨m, t₁, hopen, rest, t', hrest, rfl, rfl⟩

theorem openAll_append {t₁ t₂ : τ} {more : List C} {rest : List M}
    (h : channel.openAll t queue = some (messages, t₁))
    (hmore : channel.openAll t₁ more = some (rest, t₂)) :
    channel.openAll t (queue ++ more) = some (messages ++ rest, t₂) := by
  induction queue generalizing t messages with
  | nil =>
    cases h
    exact hmore
  | cons c queue ih =>
    obtain ⟨m, t', tail, hopen, htail, rfl⟩ := openAll_cons_eq_some.mp h
    exact openAll_cons_eq_some.mpr ⟨m, t', tail ++ rest, hopen, ih htail, rfl⟩

/-- The queue between two ends, with the messages it holds. -/
def InTransit (channel : OrderedChannel σ τ M C) (Synced : σ → τ → Prop) (s : σ)
    (queue : List C) (t : τ) (messages : List M) : Prop :=
  ∃ t', channel.openAll t queue = some (messages, t') ∧ Synced s t'

theorem inTransit_nil (h : Synced s t) : channel.InTransit Synced s [] t [] :=
  ⟨t, rfl, h⟩

theorem InTransit.length_eq (h : channel.InTransit Synced s queue t messages) :
    messages.length = queue.length := by
  obtain ⟨t', hopen, -⟩ := h
  induction queue generalizing t messages with
  | nil =>
    cases hopen
    rfl
  | cons c queue ih =>
    obtain ⟨m, t₁, rest, -, hrest, rfl⟩ := openAll_cons_eq_some.mp hopen
    rw [List.length_cons, List.length_cons, ih hrest]

/-- A message is sent. -/
theorem InTransit.send (h : channel.InTransit Synced s queue t messages)
    (hopens : channel.Opens Synced) (hseal : channel.sealMessage s m = some (c, s')) :
    channel.InTransit Synced s' (queue ++ [c]) t (messages ++ [m]) := by
  obtain ⟨t', hqueue, hsynced⟩ := h
  obtain ⟨t'', hopen, hsynced'⟩ := hopens hsynced hseal
  refine ⟨t'', openAll_append hqueue ?_, hsynced'⟩
  exact openAll_cons_eq_some.mpr ⟨m, t'', [], hopen, rfl, rfl⟩

/-- The next message is received: it is the oldest one. -/
theorem InTransit.receive (h : channel.InTransit Synced s (c :: queue) t messages) :
    ∃ m rest t', messages = m :: rest ∧ channel.openMessage t c = some (m, t') ∧
      channel.InTransit Synced s queue t' rest := by
  obtain ⟨t', hqueue, hsynced⟩ := h
  obtain ⟨m, t₁, rest, hopen, hrest, rfl⟩ := openAll_cons_eq_some.mp hqueue
  exact ⟨m, rest, t₁, rfl, hopen, t', hrest, hsynced⟩

end OrderedChannel

end PublicPool.Lib
