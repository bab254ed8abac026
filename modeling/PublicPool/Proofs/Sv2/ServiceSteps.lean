import PublicPool.Proofs.Sv2.Steps

/-!
# `PublicPool.Proofs.Sv2.ServiceSteps`: what one step of the service can do

`sv2Step_cases` lifts `turn_cases` to the whole service: a step leaves everything as it is,
connects or closes a connection, publishes a template, receives a chunk, or ends one turn of one
connection. `Takes` names the connection and what it takes up; a turn is taken up either from
the connection's tasks or from the difficulty timer.

What suspended handlers carry is collected with `carried`, and `carried_endTurn` says how a turn
changes the collection.
-/

set_option autoImplicit false

namespace PublicPool.Proofs

open Lib (OrdMap)
open Sv2
open Sv2.Context

/-! ### Taking up a handler -/

/-- What an input takes up: the connection before and after its task is taken, what is handled
and where it came from. The timer starts a handler that carries nothing. -/
inductive Takes (world : Sv2World) :
    Sv2Input → ℕ → StratumV2Client → StratumV2Client → Handled → Origin → Prop
  | task {id k : ℕ} {env : TurnEnv} {client : StratumV2Client} {task : Task}
      (hclient : world.clients id = some client) (htask : client.tasks[k]? = some task) :
      Takes world (.resume id k env) id client (client.dropTask k) task.handled.1 task.handled.2
  | timer {id : ℕ} {suggested : Option ℚ} {client : StratumV2Client}
      (hclient : world.clients id = some client) (htimer : client.difficultyTimer = true) :
      Takes world (.checkDifficulty id suggested) id client client (.wait .recordShare) .timer

/-- Whether a handler goes on: a call that was awaited and failed throws. -/
def goesOn (env : TurnEnv) : Handled → Bool
  | .frame _ => true
  | .wait _ => !env.failed

/-- The handler that an input lets go on, with its connection. -/
def handledBy? (world : Sv2World) (id : ℕ) : Sv2Input → Option (StratumV2Client × Handled)
  | .resume id' k env =>
    if id' = id then
      (world.clients id).bind fun client =>
        (client.tasks[k]?.filter fun task => goesOn env task.handled.1).map fun task =>
          (client, task.handled.1)
    else none
  | _ => none

/-- A handler that is taken up is the one that the input names, unless the timer starts it or the
call that it awaited has failed. -/
def GoesOn (world : Sv2World) (input : Sv2Input) (id : ℕ) (client : StratumV2Client)
    (handled : Handled) (turn : Turn) : Prop :=
  handledBy? world id input = some (client, handled) ∨
    ∃ wait, handled = .wait wait ∧ (wait = .recordShare ∨ turn.next = .throws)

/-- One step of the service. -/
inductive StepCase (host : Externals) (config : Sv2Config) (world : Sv2World) (input : Sv2Input) :
    Sv2World → List Sv2Output → Prop
  | idle : StepCase host config world input world []
  | connects {id : ℕ} {sessionId : String} {payoutMode : PayoutMode}
      (hnone : world.clients id = none) :
      StepCase host config world input
        (world.update id (world.context (.initial config sessionId payoutMode))) []
  | closes {id : ℕ} {client : StratumV2Client} (hclient : world.clients id = some client) :
      StepCase host config world input
        (world.update id (world.context client).closeSocket) []
  | publishes {template : JobTemplate} {now : ℕ} (hinput : input = .template template now) :
      StepCase host config world input
        { world with
          jobs := world.jobs.publish template now
          clients := fun id => (world.clients id).map fun client =>
            client.receiveTemplate (world.jobs.numberTemplate template now) now }
        [.published (world.jobs.numberTemplate template now)]
  | receives {id : ℕ} {client : StratumV2Client} {frames : List Sv2Message}
      (hclient : world.clients id = some client) (hinput : input = .data id frames) :
      StepCase host config world input
        (world.update id (world.context (client.receive frames))) []
  | turns {id : ℕ} {client taken : StratumV2Client} {handled : Handled} {origin : Origin}
      {env : TurnEnv} {turn : Turn}
      (htakes : Takes world input id client taken handled origin)
      (hturn : TurnCase host config env (world.context taken) handled turn)
      (hgoes : GoesOn world input id client handled turn) :
      StepCase host config world input
        (world.update id (endTurn origin turn).1)
        (turn.events.map (.client id))

section
variable {host : Externals} {config : Sv2Config} {world : Sv2World} {input : Sv2Input}

theorem turnCase_checkDifficulty {env : TurnEnv} {context : Context} (suggested : Option ℚ) :
    TurnCase host config env context (.wait .recordShare)
      (context.checkDifficulty config suggested) := by
  have hplain : ∀ before, Handled.wait .recordShare = .wait before → before.opening? = none := by
    intro before h
    cases h
    rfl
  have hidle : TurnCase host config env context (.wait .recordShare)
      { context, next := .returns } :=
    turnCase_idle (by simp) (quietNext_plain (by simp) hplain)
  unfold checkDifficulty
  split
  · exact hidle
  · rename_i targetDiff _
    split
    · exact hidle
    · have hquiet : Quiet context
          { context with
            client := { context.client with sessionDifficulty := some targetDiff } } :=
        ⟨rfl, le_rfl, rfl, rfl, id, ChannelsVia.refl, id, fun _ => rfl, fun _ => id⟩
      refine .quiet hquiet (Or.inl rfl) (by simp) (quietNext_plain ?_ hplain)
      intro wait h
      cases h
      exact ⟨rfl, rfl, rfl, rfl⟩

variable {id : ℕ} {client taken : StratumV2Client} {handled : Handled} {origin : Origin}

theorem goesOn_resume {k : ℕ} {task : Task} (hclient : world.clients id = some client)
    (htask : client.tasks[k]? = some task) (env : TurnEnv) :
    GoesOn world (.resume id k env) id client task.handled.1
      ((world.context (client.dropTask k)).turn host config env task.handled.1) := by
  cases hgoes : goesOn env task.handled.1 with
  | true =>
    refine Or.inl ?_
    simp only [handledBy?, if_true, hclient, htask, Option.bind_some, Option.filter_some, hgoes,
      Option.map_some]
  | false =>
    cases hhandled : task.handled.1 with
    | frame message =>
      rw [hhandled] at hgoes
      cases hgoes
    | wait wait =>
      rw [hhandled, goesOn, Bool.not_eq_false'] at hgoes
      refine Or.inr ⟨wait, rfl, Or.inr ?_⟩
      rw [turn, if_pos hgoes]

/-- The inversion lemma of the service. -/
theorem sv2Step_cases (host : Externals) (config : Sv2Config) (world : Sv2World)
    (input : Sv2Input) :
    StepCase host config world input (sv2Step host config world input).1
      (sv2Step host config world input).2 := by
  cases input with
  | connect id sessionId payoutMode =>
    simp only [sv2Step]
    split
    · rename_i hnone
      exact .connects hnone
    · exact .idle
  | disconnect id =>
    simp only [sv2Step]
    split
    · exact .idle
    · rename_i client hclient
      exact .closes hclient
  | template template now => exact .publishes rfl
  | data id frames =>
    simp only [sv2Step]
    split
    · exact .idle
    · rename_i client hclient
      exact .receives hclient rfl
  | resume id k env =>
    simp only [sv2Step]
    split
    · exact .idle
    · rename_i client hclient
      split
      · exact .idle
      · rename_i task htask
        exact .turns (.task hclient htask) (turn_cases task.handled.1)
          (goesOn_resume hclient htask env)
  | checkDifficulty id suggested =>
    simp only [sv2Step]
    split
    · exact .idle
    · rename_i client hclient
      split
      · rename_i htimer
        have hturn : TurnCase host config ⟨false, none, 0, (0, 0), none⟩ (world.context client)
            (.wait .recordShare) ((world.context client).checkDifficulty config suggested) :=
          turnCase_checkDifficulty suggested
        exact .turns (.timer hclient htimer) hturn (Or.inr ⟨_, rfl, Or.inl rfl⟩)
      · exact .idle

/-! ### What the suspended handlers carry -/

/-- The values that a function finds on the suspended handlers of a connection. -/
def carried {α : Type*} (f : Wait → Option α) (client : StratumV2Client) : List α :=
  client.tasks.filterMap fun task => f task.wait

/-- The value on the handler that is taken up. -/
def Handled.carried? {α : Type*} (f : Wait → Option α) : Handled → Option α
  | .frame _ => none
  | .wait wait => f wait

/-- The value on the point a turn ends at. -/
def Next.carried? {α : Type*} (f : Wait → Option α) : Next → Option α
  | .waits wait => f wait
  | _ => none

theorem Takes.client_eq (h : Takes world input id client taken handled origin) :
    world.clients id = some client := by
  cases h with
  | task hclient _ => exact hclient
  | timer hclient _ => exact hclient

/-- Taking up a handler changes the tasks only. -/
theorem Takes.taken_eq (h : Takes world input id client taken handled origin) :
    taken = { client with tasks := taken.tasks } := by
  cases h with
  | task => rfl
  | timer => rfl

theorem Task.handled_carried? {α : Type*} {f : Wait → Option α} (hf : f .nextFrame = none)
    (task : Task) : Handled.carried? f task.handled.1 = f task.wait := by
  unfold Task.handled
  split
  · exact hf.symm
  · rfl

/-- What was carried is carried by the handler that is taken up and by the others. -/
theorem Takes.carried_perm {α : Type*} {f : Wait → Option α} (hf : f .nextFrame = none)
    (hf' : f .recordShare = none) (h : Takes world input id client taken handled origin) :
    (carried f client).Perm ((Handled.carried? f handled).toList ++ carried f taken) := by
  cases h with
  | @task _ k _ _ task hclient htask =>
    obtain ⟨hk, rfl⟩ := List.getElem?_eq_some_iff.mp htask
    have hperm : client.tasks.Perm (client.tasks[k] :: client.tasks.eraseIdx k) :=
      (List.getElem_cons_eraseIdx_perm hk).symm
    have hcarried := hperm.filterMap fun task => f task.wait
    rw [Task.handled_carried? hf]
    rw [List.filterMap_cons] at hcarried
    show (client.tasks.filterMap _).Perm (_ ++ (client.tasks.eraseIdx k).filterMap _)
    cases hwait : f client.tasks[k].wait with
    | none => simpa [hwait] using hcarried
    | some a => simpa [hwait] using hcarried
  | timer => simp [Handled.carried?, hf']

theorem carried_tasksAfter {α : Type*} {f : Wait → Option α} (hf : f .nextFrame = none)
    (origin : Origin) (next : Next) :
    (tasksAfter origin next).filterMap (fun task => f task.wait)
      = (Next.carried? f next).toList := by
  cases next with
  | waits wait =>
    cases hwait : f wait with
    | none => simp [tasksAfter, Next.carried?, hwait]
    | some a => simp [tasksAfter, Next.carried?, hwait]
  | returns =>
    simp only [tasksAfter]
    split <;> simp [Next.carried?, hf]
  | throws => rfl

theorem tasks_closeSocket (context : Context) :
    context.closeSocket.client.tasks = context.client.tasks := by
  unfold closeSocket
  split <;> rfl

/-- What is carried after a turn: what its context carries, and the handler itself. -/
theorem carried_endTurn {α : Type*} {f : Wait → Option α} (hf : f .nextFrame = none)
    (origin : Origin) (turn : Turn) :
    carried f (endTurn origin turn).1.client
      = carried f turn.context.client ++ (Next.carried? f turn.next).toList := by
  have htasks : (endTurn origin turn).1.client.tasks
      = turn.context.client.tasks ++ tasksAfter origin turn.next := by
    simp only [endTurn]
    split
    · rw [tasks_closeSocket]
    · rfl
  rw [carried, htasks, List.filterMap_append, carried_tasksAfter hf]
  rfl

/-! ### What a step leaves alone -/

theorem clients_update_self (id : ℕ) (context : Context) :
    (world.update id context).clients id = some context.client := if_pos rfl

theorem clients_update_other {id' : ℕ} (hid : id ≠ id') (context : Context) :
    (world.update id' context).clients id = world.clients id := if_neg hid

/-- The end of a turn is quiet: an error may close the connection. -/
theorem quiet_endTurn (origin : Origin) (turn : Turn) :
    (endTurn origin turn).1.jobs = turn.context.jobs ∧
      turn.context.stratumV2Service.channelIdCounter
        ≤ (endTurn origin turn).1.stratumV2Service.channelIdCounter ∧
      ChannelsVia Keeps turn.context.client.channels (endTurn origin turn).1.client.channels := by
  simp only [endTurn]
  split
  · have hquiet := (quiet_closeSocket turn.context).1
    exact ⟨hquiet.jobs, hquiet.counter, hquiet.channels⟩
  · exact ⟨rfl, le_rfl, .refl⟩

end

end PublicPool.Proofs
