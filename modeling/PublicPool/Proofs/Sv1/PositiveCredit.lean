import PublicPool.Proofs.Sv1.CreditedDifficulty
import PublicPool.Proofs.Targets

/-!
# `PublicPool.Proofs.Sv1.PositiveCredit`: a share is credited for what it was checked for

The target that a submission is compared with is in no later state of the connection, so
`watchedMachine` notes it beside the call that waits. It does what `awaitMachine` does
(`final_watched`), and says at every event which target the call of the step was compared with.

A difficulty is set by an authorization, by a suggestion or by the timer. The invariant is that
the difficulty of a connection is positive and not above the difficulty of any target that it is
still to be credited for: its own, and those noted beside the calls. A step keeps it if the
difficulty that it sets is such a one.
-/

set_option autoImplicit false

namespace PublicPool.Proofs

open Sv1 Sv1.StratumV1Client
open DifficultyUtils
open Lib (Machine)

/-! ### Watching what submissions are compared with -/

/-- The connections, and the suspended calls with the targets they were compared with. -/
structure WatchedWorld where
  pool : Sv1World
  calls : ℕ → List (Suspended × Option Bytes)

namespace WatchedWorld

def initial : WatchedWorld where
  pool := .initial
  calls _ := []

variable (watched : WatchedWorld)

/-- The world without the targets. -/
def world : AwaitWorld where
  pool := watched.pool
  suspended id := (watched.calls id).map Prod.fst

/-- The target that the call of a step is compared with, or was. -/
def comparedTarget : AwaitInput → Option Bytes
  | .resume id k _ _ =>
    match watched.pool.clients id, (watched.calls id)[k]? with
    | some client, some (.submitValidation _, _) => some client.sessionDifficultyTarget
    | some _, some (_, target) => target
    | _, _ => none
  | .begin _ => none

/-- The calls that wait on during a step. -/
def waiting (input : AwaitInput) (id : ℕ) : List (Suspended × Option Bytes) :=
  match input with
  | .resume id' k _ _ =>
    if id = id' ∧ (watched.pool.clients id).isSome = true then (watched.calls id).eraseIdx k
    else watched.calls id
  | .begin _ => watched.calls id

end WatchedWorld

/-- A step, with the target of each call that is suspended in it. -/
def watchedStep (host : Externals) (config : Sv1Config) (watched : WatchedWorld)
    (input : AwaitInput) : WatchedWorld × List ((ℕ × Sv1Event) × Option Bytes) :=
  let (world, events) := awaitStep host config watched.world input
  ({ pool := world.pool
     calls := fun id =>
      watched.waiting input id
        ++ ((world.suspended id).drop (watched.waiting input id).length).map fun call =>
          (call, watched.comparedTarget input) },
    events.map fun event => (event, watched.comparedTarget input))

/-- The connections, watched. -/
def watchedMachine (host : Externals) (config : Sv1Config) :
    Machine WatchedWorld AwaitInput ((ℕ × Sv1Event) × Option Bytes) :=
  ⟨watchedStep host config⟩

section
variable (host : Externals) (config : Sv1Config)

/-- A call that a step suspends: one that has no accepted work, or what follows on another. -/
def CallStays (watched : WatchedWorld) (input : AwaitInput) (id : ℕ) (call : Suspended) : Prop :=
  call.accepted = none ∨ ∃ k succeeded answer client old,
    input = .resume id k succeeded answer ∧ watched.pool.clients id = some client ∧
      (watched.calls id)[k]? = some old ∧
      call ∈ (client.resume host config watched.pool.service succeeded answer old.1).2.1

variable (watched : WatchedWorld) (input : AwaitInput)

/-- What a step leaves suspended: the calls that wait on, and perhaps one more. -/
theorem suspended_awaitStep (id : ℕ) :
    ∃ more, (awaitStep host config watched.world input).1.suspended id
        = (watched.waiting input id).map Prod.fst ++ more ∧
      ∀ call ∈ more, CallStays host config watched input id call := by
  have hsame : ∃ more, watched.world.suspended id = (watched.calls id).map Prod.fst ++ more ∧
      ∀ call ∈ more, CallStays host config watched input id call :=
    ⟨[], by simp [WatchedWorld.world], fun call hcall => absurd hcall List.not_mem_nil⟩
  have hsuspend (id' : ℕ) (call : Suspended) (hcall : call.accepted = none) :
      ∃ more, (watched.world.suspend id' call).suspended id
          = (watched.calls id).map Prod.fst ++ more ∧
        ∀ call ∈ more, CallStays host config watched input id call := by
    simp only [AwaitWorld.suspend, AwaitWorld.setSuspended]
    by_cases hid : id = id'
    · subst hid
      rw [if_pos rfl]
      refine ⟨[call], rfl, fun call' hcall' => ?_⟩
      rw [List.mem_singleton.mp hcall']
      exact Or.inl hcall
    · rw [if_neg hid]
      exact hsame
  cases input with
  | begin input =>
    cases input with
    | submit id' params result fault =>
      simp only [awaitStep, AwaitWorld.beginSubmit, WatchedWorld.waiting]
      split
      · split
        · exact hsame
        · split
          · exact hsame
          · exact hsuspend id' _ rfl
      · exact hsame
    | suggestDifficulty id' suggestedDifficulty =>
      simp only [awaitStep, AwaitWorld.beginSuggestDifficulty, WatchedWorld.waiting]
      split
      · split
        · exact hsame
        · exact hsuspend id' _ rfl
      · exact hsame
    | _ => exact hsame
  | resume id' k succeeded answer =>
    simp only [awaitStep, AwaitWorld.resume, WatchedWorld.waiting]
    by_cases hid : id = id'
    · subst hid
      split
      · rename_i client call hclient hcall
        have hconnected : watched.pool.clients id = some client := hclient
        simp only [AwaitWorld.setSuspended, if_true, hconnected, Option.isSome_some, and_self,
          ← List.eraseIdx_map]
        refine ⟨_, rfl, fun call' hcall' => Or.inr ?_⟩
        obtain ⟨old, hold, rfl⟩ := Option.map_eq_some_iff.mp
          ((List.getElem?_map (f := Prod.fst)).symm.trans hcall)
        exact ⟨k, succeeded, answer, client, old, rfl, hconnected, hold,
          Option.mem_toList.mp hcall'⟩
      · rename_i hnothing
        split
        · rename_i hconnected
          obtain ⟨client, hclient⟩ := Option.isSome_iff_exists.mp hconnected.2
          -- there is no such call
          have hnone : (watched.world.suspended id)[k]? = none := by
            rw [Option.eq_none_iff_forall_ne_some]
            intro call hcall
            exact hnothing client call hclient hcall
          rw [List.getElem?_eq_none_iff] at hnone
          rw [List.eraseIdx_of_length_le (by simpa [WatchedWorld.world] using hnone)]
          exact hsame
        · exact hsame
    · split
      · simp only [AwaitWorld.setSuspended, hid, false_and, if_false]
        exact hsame
      · simp only [hid, false_and, if_false]
        exact hsame

/-- Watching changes nothing. -/
theorem world_watchedStep :
    (watchedStep host config watched input).1.world
      = (awaitStep host config watched.world input).1 := by
  have hsuspended (id : ℕ) :
      ((watchedStep host config watched input).1.calls id).map Prod.fst
        = (awaitStep host config watched.world input).1.suspended id := by
    obtain ⟨more, hmore, -⟩ := suspended_awaitStep host config watched input id
    simp only [watchedStep, hmore, List.map_append, List.map_map, Function.comp_def, List.map_id']
    rw [← List.length_map (f := Prod.fst), List.drop_left]
  show AwaitWorld.mk _ _ = _
  rw [funext hsuspended]
  rfl

theorem final_watched (inputs : List AwaitInput) :
    ((watchedMachine host config).final watched inputs).world
        = (awaitMachine host config).final watched.world inputs ∧
      ((watchedMachine host config).history watched inputs).map Prod.fst
        = (awaitMachine host config).history watched.world inputs := by
  induction inputs generalizing watched with
  | nil => exact ⟨rfl, rfl⟩
  | cons input inputs ih =>
    obtain ⟨hfinal, hhistory⟩ := ih (watchedStep host config watched input).1
    rw [world_watchedStep] at hfinal hhistory
    refine ⟨hfinal, ?_⟩
    rw [Machine.history_cons, Machine.history_cons, List.map_append]
    refine congrArg₂ _ ?_ hhistory
    show ((awaitStep host config watched.world input).2.map fun event => _).map Prod.fst = _
    rw [List.map_map]
    exact List.map_id _

end

/-! ### Credit -/

/-- A difficulty is not above the one that a target implies. -/
def NotAbove (difficulty : ℚ) (target : Bytes) : Prop := difficulty * leValue target ≤ trueDiffOne

instance (difficulty : ℚ) (target : Bytes) : Decidable (NotAbove difficulty target) :=
  inferInstanceAs (Decidable (_ ≤ _))

/-- A share is recorded at a positive difficulty, not above the one that the target implies which
it was compared with. -/
def CreditBounded : (ℕ × Sv1Event) × Option Bytes → Prop
  | ((_, .shareRecorded share _ _ _), compared) =>
    ∃ credited ∈ share.creditedDifficulty, ∃ target ∈ compared,
      0 < credited ∧ ∀ implied ∈ targetToDifficulty target, credited ≤ implied
  | _ => True

instance : DecidablePred CreditBounded := fun event => by
  rcases event with ⟨⟨_, _ | _⟩, _⟩ <;> unfold CreditBounded <;> infer_instance

section
variable (host : Externals) (config : Sv1Config)

/-- The condition: a difficulty that a step sets is positive, the target made of it is not easier
than it (as that of a difficulty which is rounded down to millionths), and no submission of the
connection waits to be recorded that was compared with an easier target. -/
def SetsCreditable (watched : WatchedWorld) (_ : List ((ℕ × Sv1Event) × Option Bytes))
    (input : AwaitInput) : Prop :=
  ∀ set ∈ setsDifficulty host config watched.world input,
    ∃ difficulty ∈ set.2, 0 < difficulty ∧
      NotAbove difficulty (difficultyToTarget (some difficulty)) ∧
      ∀ call ∈ watched.calls set.1, ∀ target ∈ call.2, NotAbove difficulty target

instance (watched : WatchedWorld) (history : List ((ℕ × Sv1Event) × Option Bytes))
    (input : AwaitInput) : Decidable (SetsCreditable host config watched history input) :=
  inferInstanceAs (Decidable (∀ _ ∈ _, ∃ _ ∈ _, _))

end

/-- The difficulty that a target implies bounds the others. -/
theorem NotAbove.le_implied {difficulty implied : ℚ} {target : Bytes}
    (h : NotAbove difficulty target) (himplied : implied ∈ targetToDifficulty target) :
    difficulty ≤ implied := by
  unfold targetToDifficulty at himplied
  split at himplied
  · cases himplied
  · rename_i hzero
    have hpos : (0 : ℚ) < leValue target := by exact_mod_cast Nat.pos_of_ne_zero hzero
    obtain rfl := Option.some.inj himplied
    rw [le_div_iff₀ hpos]
    exact h

/-- A whole number of millionths makes a target that is not easier than it, and so does every
difficulty that is rounded up. -/
theorem notAbove_of_le_round {difficulty : ℚ} (hpos : 0 < difficulty)
    (hround : difficulty * 1000000 ≤ DifficultyUtils.round (difficulty * 1000000)) :
    NotAbove difficulty (difficultyToTarget (some difficulty)) := by
  have hscaled : (0 : ℚ) < DifficultyUtils.round (difficulty * 1000000) :=
    lt_of_lt_of_le (by positivity) hround
  have hpositive : 0 < DifficultyUtils.round (difficulty * 1000000) := by exact_mod_cast hscaled
  unfold NotAbove
  rw [leValue_difficultyToTarget hpositive hpos]
  obtain ⟨n, hn⟩ := Int.eq_ofNat_of_zero_le hpositive.le
  rw [hn] at hround hpositive ⊢
  rw [Int.toNat_natCast]
  have hdiv : trueDiffOne * 1000000 / n * n ≤ trueDiffOne * 1000000 := Nat.div_mul_le_self _ _
  have hdiv' : ((trueDiffOne * 1000000 / n : ℕ) : ℚ) * n ≤ trueDiffOne * 1000000 := by
    exact_mod_cast hdiv
  have hround' : difficulty * 1000000 ≤ n := by exact_mod_cast hround
  have hnonneg : (0 : ℚ) ≤ ((trueDiffOne * 1000000 / n : ℕ) : ℚ) := by positivity
  nlinarith

/-! ### The invariant -/

/-- The difficulty of a connection is positive and below every target it may be credited for. -/
structure WatchInv (watched : WatchedWorld) : Prop where
  target : ∀ id client, watched.pool.clients id = some client →
    client.sessionDifficultyTarget = difficultyToTarget client.sessionDifficulty
  session : ∀ id client, watched.pool.clients id = some client →
    ∃ difficulty, client.sessionDifficulty = some difficulty ∧ 0 < difficulty ∧
      NotAbove difficulty client.sessionDifficultyTarget
  waiting : ∀ id, ∀ call ∈ watched.calls id, call.1.accepted.isSome = true →
    ∃ client, watched.pool.clients id = some client ∧ ∃ target, call.2 = some target ∧
      ∀ difficulty ∈ client.sessionDifficulty, NotAbove difficulty target

section
variable {host : Externals} {config : Sv1Config} {watched : WatchedWorld}
  {history : List ((ℕ × Sv1Event) × Option Bytes)}

/-- What any step makes of the difficulty of a connection. -/
theorem awaitStep_difficulty (world : AwaitWorld) (input : AwaitInput) (c : ℕ) :
    ClientRel (MovesDifficulty host config world input c) (world.pool.clients c)
      ((awaitStep host config world input).1.pool.clients c) := by
  have hrfl (client : StratumV1Client) : MovesDifficulty host config world input c client client :=
    Or.inl .rfl
  cases input with
  | begin input =>
    cases input with
    | submit id params result fault =>
      simp only [awaitStep, AwaitWorld.beginSubmit]
      split
      · rename_i client hclient
        split
        · exact .refl hrfl _
        · split
          · exact clients_setClient world.pool hclient (Or.inl ⟨rfl, rfl⟩) hrfl c
          · exact .refl hrfl _
      · exact .refl hrfl _
    | suggestDifficulty id suggestedDifficulty =>
      simp only [awaitStep, AwaitWorld.beginSuggestDifficulty]
      split
      · split
        · exact .refl hrfl _
        · exact .refl hrfl _
      · exact .refl hrfl _
    | _ =>
      refine sv1Step_difficulty host config ?_ ?_ c
      · intros
        simp
      · intros
        simp
  | resume id k succeeded answer =>
    simp only [awaitStep, AwaitWorld.resume]
    split
    · rename_i client call hclient hcall
      have hresumes := @resumes host config client world.pool.service call succeeded answer
      by_cases hc : c = id
      · subst hc
        refine clients_setClient world.pool hclient ?_ hrfl c
        rcases hresumes.difficulty with hkeeps | ⟨suggestedDifficulty, rfl, hsets⟩
        · exact Or.inl hkeeps
        · refine Or.inr ⟨_, ?_, hsets⟩
          simp only [setsDifficulty, hcall]
      · simp only [AwaitWorld.setSuspended, Sv1World.setClient, if_neg hc]
        exact .refl hrfl _
    · exact .refl hrfl _

/-- Only the end of a suspended call records a share. -/
theorem awaitStep_begin_events (world : AwaitWorld) (input : Sv1Input) :
    ∀ event ∈ (awaitStep host config world (.begin input)).2, ∀ share submission job header,
      event.2 ≠ .shareRecorded share submission job header := by
  have hpool (hsubmit : ∀ id params result fault, input ≠ .submit id params result fault) :
      ∀ event ∈ (sv1Step host config world.pool input).2, ∀ share submission job header,
        event.2 ≠ .shareRecorded share submission job header := by
    rintro ⟨id, event⟩ hevent share submission job header rfl
    rcases sv1Step_records host config world.pool hevent with
      hreply | ⟨_, _, _, _, _, _, _, _, -, -, heq⟩ | ⟨_, _, _, _, _, _, _, _, hinput, -⟩
    · cases hreply
    · cases heq
    · exact hsubmit _ _ _ _ hinput
  cases input with
  | submit id params result fault => exact fun event hevent => absurd hevent List.not_mem_nil
  | suggestDifficulty id suggestedDifficulty =>
    exact fun event hevent => absurd hevent List.not_mem_nil
  | _ =>
    refine hpool ?_
    intros
    simp

variable {client : StratumV1Client} {succeeded : Bool} {answer : Option String} {id : ℕ}
  {call : Suspended × Option Bytes} {input : AwaitInput}

/-- What follows on a call with accepted work has it from the call or from its comparison. -/
theorem accepted_of_next {service : StratumV1JobsService} {call call' : Suspended}
    (hnext : call' ∈ (client.resume host config service succeeded answer call).2.1)
    (haccepted : call'.accepted.isSome = true) :
    call.accepted.isSome = true ∨ ∃ params, call = .submitValidation params := by
  cases call with
  | submitValidation params => exact Or.inr ⟨params, rfl⟩
  | submitReply work => exact Or.inl rfl
  | submitting work await => exact Or.inl rfl
  | suggestValidation suggestedDifficulty =>
    obtain rfl := Option.some.inj hnext
    cases haccepted
  | suggestReply =>
    simp only [StratumV1Client.resume, resumeSuggestReply] at hnext
    split at hnext
    · cases hnext
    · cases hnext

/-- The target of a call with accepted work is the one noted beside it. -/
theorem comparedTarget_of_accepted {k : ℕ} (hclient : watched.pool.clients id = some client)
    (hcall : (watched.calls id)[k]? = some call) (haccepted : call.1.accepted.isSome = true) :
    watched.comparedTarget (.resume id k succeeded answer) = call.2 := by
  obtain ⟨call, target⟩ := call
  simp only [WatchedWorld.comparedTarget, hclient, hcall]
  cases call with
  | submitValidation params => cases haccepted
  | _ => rfl

theorem notAbove_initial :
    NotAbove 100000 (difficultyToTarget (some 100000)) := by
  refine notAbove_of_le_round (by norm_num) ?_
  simp only [DifficultyUtils.round]
  norm_num

/-- The difficulty of a connection after a step that meets the condition. -/
theorem WatchInv.session_step (h : WatchInv watched)
    (hcond : SetsCreditable host config watched history input) {client' : StratumV1Client}
    (hclient' : (awaitStep host config watched.world input).1.pool.clients id = some client') :
    client'.sessionDifficultyTarget = difficultyToTarget client'.sessionDifficulty ∧
      ∃ difficulty, client'.sessionDifficulty = some difficulty ∧ 0 < difficulty ∧
        NotAbove difficulty client'.sessionDifficultyTarget := by
  have hrel := @awaitStep_difficulty host config watched.world input id
  rw [hclient'] at hrel
  generalize hbefore : watched.world.pool.clients id = before at hrel
  cases hrel with
  | connected payoutMode accountingProtocol =>
    exact ⟨rfl, 100000, rfl, by norm_num, notAbove_initial⟩
  | @step client _ hmoves =>
    have hclient : watched.pool.clients id = some client := hbefore
    rcases hmoves with hkeeps | ⟨difficulty, hset, hsets⟩
    · rw [hkeeps.session, hkeeps.target]
      exact ⟨h.target id client hclient, h.session id client hclient⟩
    · obtain ⟨value, hvalue, hpos, hbelow, -⟩ := hcond _ hset
      obtain rfl : difficulty = some value := hvalue
      rw [hsets.session, hsets.target]
      exact ⟨rfl, value, rfl, hpos, hbelow⟩

/-- A call that waited is still within reach of its connection. -/
theorem WatchInv.waiting_step (h : WatchInv watched)
    (hcond : SetsCreditable host config watched history input) (hcall : call ∈ watched.calls id)
    (haccepted : call.1.accepted.isSome = true) :
    ∃ client', (awaitStep host config watched.world input).1.pool.clients id = some client' ∧
      ∃ target, call.2 = some target ∧
        ∀ difficulty ∈ client'.sessionDifficulty, NotAbove difficulty target := by
  obtain ⟨client, hclient, target, htarget, hbelow⟩ := h.waiting id call hcall haccepted
  have hrel := @awaitStep_difficulty host config watched.world input id
  rw [show watched.world.pool.clients id = some client from hclient] at hrel
  generalize hafter : (awaitStep host config watched.world input).1.pool.clients id = after at hrel
  cases hrel with
  | @step _ client' hmoves =>
    refine ⟨client', rfl, target, htarget, ?_⟩
    rcases hmoves with hkeeps | ⟨difficulty, hset, hsets⟩
    · rw [hkeeps.session]
      exact hbelow
    · obtain ⟨value, hvalue, -, -, hwaiting⟩ := hcond _ hset
      obtain rfl : difficulty = some value := hvalue
      rw [hsets.session]
      intro difficulty hdifficulty
      obtain rfl := Option.some.inj hdifficulty
      exact hwaiting call hcall target htarget

/-- A step that meets the condition keeps the invariant. -/
theorem WatchInv.step (h : WatchInv watched) {input : AwaitInput}
    (hcond : SetsCreditable host config watched history input) :
    WatchInv (watchedStep host config watched input).1 := by
  refine ⟨fun id client' hclient' => (h.session_step hcond hclient').1,
    fun id client' hclient' => (h.session_step hcond hclient').2, ?_⟩
  intro id call hcall haccepted
  obtain ⟨more, hmore, hfollows⟩ := suspended_awaitStep host config watched input id
  simp only [watchedStep, hmore] at hcall
  rw [← List.length_map (f := Prod.fst), List.drop_left] at hcall
  rcases List.mem_append.mp hcall with hold | hnew
  · refine h.waiting_step hcond ?_ haccepted
    -- whoever waits on was there
    unfold WatchedWorld.waiting at hold
    split at hold
    · split at hold
      · exact List.mem_of_mem_eraseIdx hold
      · exact hold
    · exact hold
  · obtain ⟨next, hnext, rfl⟩ := List.mem_map.mp hnew
    rcases hfollows next hnext with hnone | ⟨k, succeeded, answer, client, old, rfl, hclient, hold, hgoes⟩
    · rw [hnone] at haccepted
      cases haccepted
    · rcases accepted_of_next hgoes haccepted with holdAccepted | ⟨params, hparams⟩
      · rw [comparedTarget_of_accepted hclient hold holdAccepted]
        obtain ⟨client', hclient', target, htarget, hbelow⟩ :=
          h.waiting_step hcond (List.mem_of_getElem? hold) holdAccepted
        exact ⟨client', hclient', target, htarget, hbelow⟩
      · -- the submission was compared with the target of the connection right now
        obtain ⟨call, target⟩ := old
        obtain rfl : call = .submitValidation params := hparams
        have hcompared : watched.comparedTarget (.resume id k succeeded answer)
            = some client.sessionDifficultyTarget := by
          simp only [WatchedWorld.comparedTarget, hclient, hold]
        have hcalls : (watched.world.suspended id)[k]? = some (.submitValidation params) := by
          simp only [WatchedWorld.world, List.getElem?_map, hold, Option.map_some]
        have hclient' : (awaitStep host config watched.world
            (.resume id k succeeded answer)).1.pool.clients id
              = some (client.resume host config watched.pool.service succeeded answer
                  (.submitValidation params)).1 := by
          have hconnected : watched.world.pool.clients id = some client := hclient
          simp only [awaitStep, AwaitWorld.resume, hconnected, hcalls, AwaitWorld.setSuspended,
            Sv1World.setClient, if_true]
          rfl
        refine ⟨_, hclient', _, hcompared, ?_⟩
        have hresumes := @resumes host config client watched.pool.service
          (.submitValidation params) succeeded answer
        rcases hresumes.difficulty with hkeeps | ⟨suggestedDifficulty, hsuggest, -⟩
        · rw [hkeeps.session]
          obtain ⟨difficulty, hdifficulty, -, hbelow⟩ := h.session id client hclient
          rw [hdifficulty]
          intro difficulty' hdifficulty'
          obtain rfl := Option.some.inj hdifficulty'
          exact hbelow
        · cases hsuggest

/-- What a step records is bounded. -/
theorem WatchInv.records (h : WatchInv watched) (input : AwaitInput) :
    ∀ event ∈ (watchedStep host config watched input).2, CreditBounded event := by
  rintro ⟨⟨id, event⟩, compared⟩ hevent
  obtain ⟨event', hevent', heq⟩ := List.mem_map.mp hevent
  obtain ⟨rfl, rfl⟩ := Prod.mk.inj heq
  cases event with
  | shareRecorded share submission job header =>
    cases input with
    | begin input =>
      exact absurd rfl (awaitStep_begin_events watched.world input _ hevent' share submission job header)
    | resume id' k succeeded answer =>
      simp only [AwaitWorld.resume] at hevent'
      split at hevent'
      · rename_i client call hclient hcall
        obtain ⟨recorded, hrecorded, heq⟩ := List.mem_map.mp hevent'
        obtain ⟨rfl, rfl⟩ := Prod.mk.inj heq
        have hresumes := @resumes host config client watched.world.pool.service call succeeded answer
        obtain ⟨hcredited, work, hwork, -⟩ :=
          hresumes.records share submission job header hrecorded
        obtain ⟨old, hold, rfl⟩ := Option.map_eq_some_iff.mp
          ((List.getElem?_map (f := Prod.fst)).symm.trans hcall)
        have haccepted : old.1.accepted.isSome = true := Option.isSome_iff_exists.mpr ⟨work, hwork⟩
        obtain ⟨client', hclient', target, htarget, hbelow⟩ :=
          h.waiting id' old (List.mem_of_getElem? hold) haccepted
        obtain rfl : client = client' := Option.some.inj (hclient.symm.trans hclient')
        obtain ⟨difficulty, hdifficulty, hpos, -⟩ := h.session id' client hclient'
        refine ⟨difficulty, hcredited.trans hdifficulty, target, ?_, hpos, ?_⟩
        · rw [comparedTarget_of_accepted hclient' hold haccepted]
          exact htarget
        · intro implied himplied
          exact (hbelow difficulty hdifficulty).le_implied himplied
      · cases hevent'
  | _ => trivial

theorem watchInv_initial : WatchInv .initial where
  target _ _ hclient := absurd hclient.symm (Option.some_ne_none _)
  session _ _ hclient := absurd hclient.symm (Option.some_ne_none _)
  waiting _ _ hcall := absurd hcall List.not_mem_nil

end

namespace Sv1Sample

/-- `A` suggests a difficulty before it subscribes, and mines a share; the node's answers and the
database are in time. -/
def suggestedRun (suggestedDifficulty : ℚ) : List AwaitInput :=
  [.begin (.connect 0 .solo .sv1), .begin (.suggestDifficulty 0 suggestedDifficulty),
      .resume 0 0 true none, .resume 0 0 true none, .begin (.subscribe 0 "0a0b0c0d"),
      .begin (.authorize 0 "A.rig" none), .begin (.subscribeTemplates 0),
      .begin (.template (template "B") 1700000000000),
      .begin (.sendJob 0 0 true true 1700000000001),
      .begin (.submit 0 (submission "1" "0000000000000001" "00000005") none none)]
    ++ List.replicate 4 (.resume 0 0 true none)

end Sv1Sample

end PublicPool.Proofs
