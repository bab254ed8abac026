import PublicPool.Sv1.Backpressure

/-!
# `PublicPool.Proofs.Sv1.Backpressure`: listeners resume after a run of healthy checks

`listeners_hysteresis`: in every run, a check that resumes the listeners ends a run of healthy
readings as long as configured, an overload pauses all listeners that accept, and as long as the
process runs a listener is paused if and only if it has no server, and either all listeners are
paused or none.

The invariant ties the counter to the readings: it is at most the number of healthy readings that
came last (`EndsIn`), and zero while the listeners accept. All listeners change together, so the
loops are read off what they do to one (`forListeners_forall`).
-/

set_option autoImplicit false

namespace PublicPool.Sv1

open Lib

/-! ### Runs of readings -/

/-- The list ends in a run of at least `n` members with the property. -/
def EndsIn {α : Type*} (P : α → Prop) (n : ℤ) (xs : List α) : Prop :=
  ∃ before run, xs = before ++ run ∧ n ≤ run.length ∧ ∀ x ∈ run, P x

namespace EndsIn

variable {α : Type*} {P : α → Prop} {n : ℤ} {xs : List α}

theorem zero (xs : List α) : EndsIn P 0 xs :=
  ⟨xs, [], (List.append_nil xs).symm, le_refl 0, by simp⟩

theorem succ (h : EndsIn P n xs) {x : α} (hx : P x) : EndsIn P (n + 1) (xs ++ [x]) := by
  obtain ⟨before, run, rfl, hlength, hrun⟩ := h
  refine ⟨before, run ++ [x], List.append_assoc _ _ _, ?_, ?_⟩
  · rw [List.length_append, List.length_singleton]
    push_cast
    omega
  · intro y hy
    rcases List.mem_append.mp hy with hy | hy
    · exact hrun y hy
    · rwa [List.mem_singleton.mp hy]

theorem mono {m : ℤ} (h : EndsIn P n xs) (hle : m ≤ n) : EndsIn P m xs := by
  obtain ⟨before, run, heq, hlength, hrun⟩ := h
  exact ⟨before, run, heq, hle.trans hlength, hrun⟩

end EndsIn

/-- The readings of the checks of a run. -/
def readings (inputs : List ListenerInput) : List LoadReading :=
  inputs.filterMap fun input =>
    match input with
    | .start _ _ => none
    | .check reading _ => some reading

/-- A reading that is healthy, and no overload. -/
def LoadReading.Recovered (env : BackpressureEnv) (reading : LoadReading) : Prop :=
  reading.overloaded env = false ∧ reading.healthy env = true

/-! ### Listeners -/

/-- A listener is paused if and only if it has no server. -/
def StratumListenerState.Consistent (listener : StratumListenerState) : Prop :=
  listener.paused = true ↔ listener.server = none

section
variable {listener : StratumListenerState} {created : ℕ} {keys : Bool}
  {result : StratumListenerState × ℕ × List ListenerEvent}

theorem StratumListenerState.pause_eq (h : listener.Consistent) :
    listener.pause.1.paused = true ∧ listener.pause.1.Consistent := by
  unfold StratumListenerState.pause
  split
  · rename_i hpaused
    exact ⟨hpaused, h⟩
  · rename_i hpaused
    split
    · rename_i hserver
      exact absurd (h.mpr hserver) hpaused
    · exact ⟨rfl, iff_of_true rfl rfl⟩

/-- What holds of every listener that the body returns holds of every one that the loop returns. -/
theorem forListeners_forall
    {body : ℕ → StratumListenerState → Option (StratumListenerState × ℕ × List ListenerEvent)}
    {P Q : StratumListenerState → Prop}
    (hbody : ∀ created listener result, P listener → body created listener = some result →
      Q result.1) {listeners : List StratumListenerState}
    {result : List StratumListenerState × ℕ × List ListenerEvent}
    (hP : ∀ listener ∈ listeners, P listener)
    (h : forListeners body created listeners = some result) :
    ∀ listener ∈ result.1, Q listener := by
  induction listeners generalizing created result with
  | nil =>
    cases h
    simp
  | cons listener listeners ih =>
    obtain ⟨hfirst, hrest⟩ := List.forall_mem_cons.mp hP
    simp only [forListeners, Option.bind_eq_bind, Option.bind_eq_some_iff, Option.pure_def,
      Option.some.injEq] at h
    obtain ⟨first, hbodyRun, rest, hloop, rfl⟩ := h
    exact List.forall_mem_cons.mpr ⟨hbody _ _ _ hfirst hbodyRun, ih hrest hloop⟩

/-- A listener that listens accepts. -/
theorem StratumListenerState.listen_eq (h : listener.server = none)
    (hrun : listener.listen keys created = some result) :
    result.1.paused = false ∧ result.1.Consistent := by
  have hserver : ¬ listener.server.isSome = true := by simp [h]
  rw [StratumListenerState.listen, if_neg hserver] at hrun
  split at hrun
  · cases hrun
  · cases hrun
    exact ⟨rfl, iff_of_false Bool.false_ne_true (Option.some_ne_none _)⟩

/-- A paused listener is resumed, and one that accepts stays. -/
theorem StratumListenerState.resume_eq (h : listener.Consistent)
    (hrun : listener.resume keys created = some result) :
    result.1.paused = false ∧ result.1.Consistent := by
  rw [StratumListenerState.resume] at hrun
  split at hrun
  · rename_i hstays
    cases hrun
    rcases hstays with haccepts | hserver
    · exact ⟨Bool.eq_false_of_not_eq_true haccepts, h⟩
    · have hsome : listener.server ≠ none := Option.isSome_iff_ne_none.mp hserver
      exact ⟨Bool.eq_false_of_not_eq_true fun hpaused => hsome (h.mp hpaused), h⟩
  · rename_i hpaused
    have hnone : listener.server = none := by
      by_contra hsome
      exact hpaused (Or.inr (Option.isSome_iff_ne_none.mpr hsome))
    exact StratumListenerState.listen_eq hnone hrun

end

/-! ### Checks -/

namespace StratumListeners

/-- Some listener is paused. -/
def Paused (s : StratumListeners) : Prop := ∃ listener ∈ s.listeners, listener.paused = true

/-- No listener is paused. -/
def Accepting (s : StratumListeners) : Prop := ∀ listener ∈ s.listeners, listener.paused = false

theorem paused_or_accepting (s : StratumListeners) : s.Paused ∨ s.Accepting := by
  by_cases h : s.Paused
  · exact Or.inl h
  · exact Or.inr fun listener hmem => Bool.eq_false_of_not_eq_true fun hpaused =>
      h ⟨listener, hmem, hpaused⟩

theorem Paused.not_accepting {s : StratumListeners} (h : s.Paused) : ¬ s.Accepting := by
  obtain ⟨listener, hmem, hpaused⟩ := h
  intro haccepting
  rw [haccepting listener hmem] at hpaused
  cases hpaused

/-- All that a check can do. -/
inductive CheckCase (env : BackpressureEnv) (s : StratumListeners) (reading : LoadReading) :
    StratumListeners → Prop
  | pause (hover : reading.overloaded env = true) (haccepting : s.Accepting) :
      CheckCase env s reading { s with
        healthyBackpressureChecks := 0
        listeners := s.listeners.map fun listener => listener.pause.1 }
  | stay (hpaused : s.Paused) (hnot : ¬ reading.Recovered env) :
      CheckCase env s reading { s with healthyBackpressureChecks := 0 }
  | accept (hover : reading.overloaded env = false) (haccepting : s.Accepting) :
      CheckCase env s reading s
  | count (hpaused : s.Paused) (hrecovered : reading.Recovered env) :
      CheckCase env s reading
        { s with healthyBackpressureChecks := s.healthyBackpressureChecks + 1 }
  | resume (hpaused : s.Paused) (hrecovered : reading.Recovered env)
      (henough : env.getBackpressureHealthyChecks ≤ s.healthyBackpressureChecks + 1)
      (keys : Bool) (result : List StratumListenerState × ℕ × List ListenerEvent)
      (hrun : forListeners (StratumListenerState.resume keys) s.created s.listeners = some result) :
      CheckCase env s reading { s with
        healthyBackpressureChecks := 0
        listeners := result.1
        created := result.2.1 }
  | exception (s' : StratumListeners) (hended : s'.ended = true) : CheckCase env s reading s'

theorem checkBackpressure_cases (env : BackpressureEnv) (s : StratumListeners)
    (reading : LoadReading) (keys : Bool) :
    CheckCase env s reading (s.checkBackpressure env reading keys).1 := by
  have hany : s.listeners.any (·.paused) = true ↔ s.Paused := by
    simp [Paused, List.any_eq_true]
  have haccepting : ¬ s.listeners.any (·.paused) = true → s.Accepting := fun h =>
    s.paused_or_accepting.resolve_left fun hpaused => h (hany.mpr hpaused)
  simp only [checkBackpressure]
  split
  · rename_i hover
    have hnot : ¬ reading.Recovered env := fun h => by
      rw [h.1] at hover
      cases hover
    split
    · rename_i hidle
      exact .pause hover (haccepting hidle)
    · rename_i hbusy
      exact .stay (hany.mp (not_not.mp hbusy)) hnot
  · rename_i hover
    have hover := Bool.eq_false_of_not_eq_true hover
    split
    · rename_i hidle
      exact .accept hover (haccepting hidle)
    · rename_i hbusy
      have hpaused := hany.mp (not_not.mp hbusy)
      split
      · rename_i hneutral
        exact .stay hpaused fun h => hneutral h.2
      · rename_i hhealthy
        have hrecovered : reading.Recovered env := ⟨hover, not_not.mp hhealthy⟩
        split
        · rename_i henough
          split
          · rename_i result hrun
            exact .resume hpaused hrecovered henough keys _ hrun
          · exact .exception _ rfl
        · exact .count hpaused hrecovered

/-- What holds of the listeners and the counter while the process runs. -/
structure BackpressureInv (env : BackpressureEnv) (inputs : List ListenerInput)
    (s : StratumListeners) : Prop where
  consistent : ∀ listener ∈ s.listeners, listener.Consistent
  together : (∀ listener ∈ s.listeners, listener.paused = true) ∨ s.Accepting
  /-- While the listeners accept, nothing is counted. -/
  idle : s.Accepting → s.healthyBackpressureChecks = 0
  counted : EndsIn (LoadReading.Recovered env) s.healthyBackpressureChecks (readings inputs)
  notStarted : s.started = false → s.listeners = []

variable {env : BackpressureEnv} {inputs : List ListenerInput} {s : StratumListeners}

theorem readings_check (inputs : List ListenerInput) (reading : LoadReading) (keys : Bool) :
    readings (inputs ++ [.check reading keys]) = readings inputs ++ [reading] := by
  simp [readings]

section
variable {keys : Bool} {reading : LoadReading} {s' : StratumListeners}

/-- Listeners that were resumed accept, and they are consistent. -/
theorem resumed_accepting {created : ℕ} {listeners : List StratumListenerState}
    (h : ∀ listener ∈ listeners, listener.Consistent)
    {result : List StratumListenerState × ℕ × List ListenerEvent}
    (hrun : forListeners (StratumListenerState.resume keys) created listeners = some result) :
    ∀ listener ∈ result.1, listener.paused = false ∧ listener.Consistent :=
  forListeners_forall (fun _ _ _ hconsistent hbody =>
    StratumListenerState.resume_eq hconsistent hbody) h hrun

/-- A check that resumes paused listeners ends a long run of healthy readings. -/
theorem CheckCase.resumes {reading : LoadReading} {s' : StratumListeners}
    (hcase : CheckCase env s reading s') (h : BackpressureInv env inputs s) (keys : Bool)
    (hrunning : s'.ended = false) (hpaused : s.Paused) (haccepts : ¬ s'.Paused) :
    EndsIn (LoadReading.Recovered env) env.getBackpressureHealthyChecks
      (readings (inputs ++ [.check reading keys])) := by
  cases hcase with
  | pause _ haccepting => exact absurd haccepting hpaused.not_accepting
  | stay => exact absurd hpaused haccepts
  | accept => exact absurd hpaused haccepts
  | count => exact absurd hpaused haccepts
  | resume _ hrecovered henough =>
    rw [readings_check]
    exact (h.counted.succ hrecovered).mono henough
  | exception s' hended =>
    rw [hended] at hrunning
    cases hrunning

/-- After a check of an overload everything is paused. -/
theorem CheckCase.pauses (hcase : CheckCase env s reading s') (h : BackpressureInv env inputs s)
    (hrunning : s'.ended = false) (hover : reading.overloaded env = true) :
    ∀ listener ∈ s'.listeners, listener.paused = true := by
  have hnot : ¬ reading.Recovered env := fun hrecovered => by
    rw [hrecovered.1] at hover
    cases hover
  cases hcase with
  | pause =>
    intro listener hmem
    obtain ⟨before, hbefore, rfl⟩ := List.mem_map.mp hmem
    exact (StratumListenerState.pause_eq (h.consistent before hbefore)).1
  | stay hpaused => exact h.together.resolve_right hpaused.not_accepting
  | accept hcalm =>
    rw [hcalm] at hover
    cases hover
  | count _ hrecovered => exact absurd hrecovered hnot
  | resume _ hrecovered => exact absurd hrecovered hnot
  | exception s' hended =>
    rw [hended] at hrunning
    cases hrunning

theorem CheckCase.inv (keys : Bool) (hcase : CheckCase env s reading s')
    (h : BackpressureInv env inputs s) (hrunning : s'.ended = false) :
    BackpressureInv env (inputs ++ [.check reading keys]) s' := by
  cases hcase with
  | pause hover haccepting =>
    have hpaused : ∀ listener ∈ s.listeners.map fun listener => listener.pause.1,
        listener.paused = true ∧ listener.Consistent := by
      intro listener hmem
      obtain ⟨before, hbefore, rfl⟩ := List.mem_map.mp hmem
      exact StratumListenerState.pause_eq (h.consistent before hbefore)
    refine ⟨fun listener hmem => (hpaused listener hmem).2,
      Or.inl fun listener hmem => (hpaused listener hmem).1, fun _ => rfl, .zero _,
      fun hstarted => ?_⟩
    show s.listeners.map _ = []
    rw [h.notStarted hstarted, List.map_nil]
  | stay hpaused hnot =>
    exact ⟨h.consistent, h.together, fun _ => rfl, .zero _, h.notStarted⟩
  | accept hover haccepting =>
    refine ⟨h.consistent, h.together, h.idle, ?_, h.notStarted⟩
    rw [h.idle haccepting]
    exact .zero _
  | count hpaused hrecovered =>
    refine ⟨h.consistent, h.together, fun haccepting => ?_, ?_, h.notStarted⟩
    · exact absurd haccepting hpaused.not_accepting
    · rw [readings_check]
      exact h.counted.succ hrecovered
  | resume hpaused hrecovered henough keys' result hrun =>
    have hresumed := resumed_accepting h.consistent hrun
    refine ⟨fun listener hmem => (hresumed listener hmem).2,
      Or.inr fun listener hmem => (hresumed listener hmem).1, fun _ => rfl, .zero _,
      fun hstarted => ?_⟩
    rw [h.notStarted hstarted] at hrun
    cases hrun
    rfl
  | exception s' hended =>
    rw [hended] at hrunning
    cases hrunning

/-- Listeners that are started accept. -/
theorem start_inv {ports : List (ℕ × Bool × PayoutMode)} (h : BackpressureInv env inputs s)
    (hstarted : s.started = false) (hrunning : (s.start ports keys).1.ended = false) :
    BackpressureInv env (inputs ++ [.start ports keys]) (s.start ports keys).1 := by
  have hnone := h.notStarted hstarted
  have hcounter : s.healthyBackpressureChecks = 0 := h.idle fun listener hmem => by
    rw [hnone] at hmem
    cases hmem
  revert hrunning
  simp only [start]
  split
  · rename_i listeners created events hrun
    intro hrunning
    have hlistening : ∀ listener ∈ listeners, listener.paused = false ∧ listener.Consistent := by
      refine forListeners_forall (P := fun listener => listener.server = none)
        (fun _ _ _ hserver hbody => StratumListenerState.listen_eq hserver hbody) ?_ hrun
      intro listener hmem
      obtain ⟨port, -, rfl⟩ := List.mem_map.mp hmem
      rfl
    have hall : s.listeners ++ listeners = listeners := by rw [hnone, List.nil_append]
    refine ⟨?_, ?_, fun _ => hcounter, ?_, fun hfalse => by cases hfalse⟩
    · show ∀ listener ∈ s.listeners ++ listeners, _
      rw [hall]
      exact fun listener hmem => (hlistening listener hmem).2
    · right
      show ∀ listener ∈ s.listeners ++ listeners, _
      rw [hall]
      exact fun listener hmem => (hlistening listener hmem).1
    · show EndsIn _ s.healthyBackpressureChecks _
      rw [hcounter]
      exact .zero _
  · intro hrunning
    cases hrunning

end

/-! ### Runs -/

theorem step_ended (hended : s.ended = true) (input : ListenerInput) :
    (listenersMachine env).step s input = (s, []) := if_pos hended

theorem step_running (hrunning : s.ended = false) (reading : LoadReading) (keys : Bool) :
    (listenersMachine env).step s (.check reading keys) = s.checkBackpressure env reading keys :=
  if_neg (by rw [hrunning]; exact Bool.false_ne_true)

/-- A step keeps the invariant, as long as the process runs. -/
theorem BackpressureInv.step (h : BackpressureInv env inputs s) (hrunning : s.ended = false)
    (input : ListenerInput)
    (hstill : ((listenersMachine env).step s input).1.ended = false) :
    BackpressureInv env (inputs ++ [input]) ((listenersMachine env).step s input).1 := by
  cases input with
  | start ports keys =>
    have hstep : (listenersMachine env).step s (.start ports keys) =
        if s.started then (s, []) else s.start ports keys :=
      if_neg (by rw [hrunning]; exact Bool.false_ne_true)
    rw [hstep] at hstill ⊢
    revert hstill
    split
    · intro hstill
      -- The timer does not run again.
      have hreadings : readings (inputs ++ [.start ports keys]) = readings inputs := by
        simp [readings]
      exact ⟨h.consistent, h.together, h.idle, by rw [hreadings]; exact h.counted, h.notStarted⟩
    · rename_i hstarted
      exact start_inv h (Bool.eq_false_of_not_eq_true hstarted)
  | check reading keys =>
    rw [step_running hrunning] at hstill ⊢
    exact (checkBackpressure_cases env s reading keys).inv keys h hstill

theorem BackpressureInv.run (env : BackpressureEnv) (inputs : List ListenerInput)
    (hrunning : ((listenersMachine env).final {} inputs).ended = false) :
    BackpressureInv env inputs ((listenersMachine env).final {} inputs) := by
  induction inputs using List.reverseRecOn with
  | nil =>
    exact ⟨by simp, Or.inl (by simp), fun _ => rfl, .zero _, fun _ => rfl⟩
  | append_singleton inputs input ih =>
    rw [Machine.final_append, Machine.final_cons, Machine.final_nil] at hrunning ⊢
    have hbefore : ((listenersMachine env).final {} inputs).ended = false := by
      by_contra hended
      have hended := Bool.eq_true_of_not_eq_false hended
      rw [step_ended hended, hended] at hrunning
      cases hrunning
    exact (ih hbefore).step hbefore input hrunning

/-- As long as the process runs, after every step a listener is paused if and only if it has no
server, and all listeners are paused or none is. Paused listeners are resumed by a check only, one
that ends a run of healthy readings as long as configured, and after a check of an overload all
listeners are paused. -/
theorem listeners_hysteresis (env : BackpressureEnv) (inputs : List ListenerInput)
    (input : ListenerInput) (s s' : StratumListeners)
    (hs : s = (listenersMachine env).final {} inputs)
    (hs' : s' = ((listenersMachine env).step s input).1) (hrunning : s'.ended = false) :
    (∀ listener ∈ s'.listeners, listener.paused = true ↔ listener.server = none) ∧
    ((∀ listener ∈ s'.listeners, listener.paused = true) ∨
      ∀ listener ∈ s'.listeners, listener.paused = false) ∧
    (s.Paused → ¬ s'.Paused → ∃ reading keys, input = .check reading keys ∧
      EndsIn (LoadReading.Recovered env) env.getBackpressureHealthyChecks
        (readings (inputs ++ [input]))) ∧
    ∀ reading keys, input = .check reading keys → reading.overloaded env = true →
      ∀ listener ∈ s'.listeners, listener.paused = true := by
  have hbefore : s.ended = false := by
    by_contra hended
    have hended := Bool.eq_true_of_not_eq_false hended
    rw [hs', step_ended hended, hended] at hrunning
    cases hrunning
  have hinv : BackpressureInv env inputs s := by
    rw [hs] at hbefore ⊢
    exact .run env inputs hbefore
  have hnext : BackpressureInv env (inputs ++ [input]) s' := by
    rw [hs'] at hrunning ⊢
    exact hinv.step hbefore input hrunning
  refine ⟨hnext.consistent, hnext.together, fun hpaused haccepts => ?_, ?_⟩
  · cases input with
    | start ports keys =>
      obtain ⟨listener, hmem, -⟩ := id hpaused
      have hstarted : s.started = true := by
        by_contra hnot
        rw [hinv.notStarted (Bool.eq_false_of_not_eq_true hnot)] at hmem
        cases hmem
      have hsame : s' = s := by
        rw [hs']
        show (if s.ended then (s, []) else if s.started then (s, []) else _).1 = s
        rw [hbefore, hstarted]
        rfl
      rw [hsame] at haccepts
      exact absurd hpaused haccepts
    | check reading keys =>
      refine ⟨reading, keys, rfl, ?_⟩
      rw [step_running hbefore] at hs'
      have hcase := checkBackpressure_cases env s reading keys
      rw [← hs'] at hcase
      exact hcase.resumes hinv keys hrunning hpaused haccepts
  · rintro reading keys rfl hover
    rw [step_running hbefore] at hs'
    have hcase := checkBackpressure_cases env s reading keys
    rw [← hs'] at hcase
    exact hcase.pauses hinv hrunning hover

/-- Three healthy checks after an overload, the last of which resumes a listener. -/
theorem listeners_hysteresis_sample :
    ∃ reading keys, ListenerInput.check ⟨50, 100⟩ true = .check reading keys ∧
      EndsIn (LoadReading.Recovered {}) 3 (readings ([.start [(3333, false, .solo)] true,
        .check ⟨5000, 100⟩ true, .check ⟨50, 100⟩ true, .check ⟨40, 100⟩ true] ++
          [.check ⟨50, 100⟩ true])) := by
  have hresult := listeners_hysteresis {} [.start [(3333, false, .solo)] true,
    .check ⟨5000, 100⟩ true, .check ⟨50, 100⟩ true, .check ⟨40, 100⟩ true]
    (.check ⟨50, 100⟩ true) _ _ rfl rfl (by decide)
  refine hresult.2.2.1 ⟨⟨3333, false, .solo, none, true⟩, by decide, rfl⟩ fun hpaused => ?_
  have haccepting : ∀ listener ∈ [StratumListenerState.mk 3333 false .solo (some 1) false],
      listener.paused = false := by decide
  exact hpaused.not_accepting haccepting

end StratumListeners

end PublicPool.Sv1
