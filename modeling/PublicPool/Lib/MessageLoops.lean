import PublicPool.Lib.OnlyLast
import PublicPool.Lib.Runs
import Mathlib.Data.List.Infix

/-!
# `PublicPool.Lib.MessageLoops`: a loop over messages for every piece of a stream

A connection reads pieces of a stream. For every piece, the messages that it completes are
handled one after the other by a loop of its own, which waits for the handler of a message
before it starts the next one. While it waits, other pieces may come in, and nothing makes the
loop of a later piece wait for that of an earlier one.

`inOrder_iff`: the handlers are started in the order of the messages if and only if no message
is completed while an earlier loop still has messages to start. `sections_sorted`: if moreover
no message is completed while any loop runs, then all that a handler does comes before all that
the handler of a later message does.

Messages are numbered as they are read, so that two equal ones are told apart.
-/

set_option autoImplicit false

namespace PublicPool.Lib

variable {ρ δ μ : Type*}

/-- How a connection reads, and what its loops do when it is closed. -/
structure LoopReader (ρ δ μ : Type*) where
  /-- What is read from a piece, or `none` when reading it throws. -/
  read : ρ → δ → Option (ρ × List μ)
  /-- Whether a loop ends when the connection is closed. -/
  stopsWhenClosed : Bool

/-- A loop whose handler runs. -/
structure MessageLoop (μ : Type*) where
  /-- The message that is handled. -/
  current : μ × ℕ
  /-- The messages that come after it. -/
  rest : List (μ × ℕ)
  deriving DecidableEq

structure Loops (ρ μ : Type*) where
  reader : ρ
  closed : Bool := false
  /-- The number of messages read so far. -/
  count : ℕ := 0
  loops : List (MessageLoop μ) := []

inductive LoopInput (δ : Type*)
  | data (piece : δ)
  /-- A handler goes on to its next await. -/
  | turn (i : ℕ)
  /-- A handler ends, and its loop goes on. -/
  | ends (i : ℕ)
  /-- A handler fails, which closes the connection. -/
  | fails (i : ℕ)
  | closes
  deriving DecidableEq

inductive LoopEvent (μ : Type*)
  | received (message : μ × ℕ)
  | started (message : μ × ℕ)
  | acted (message : μ × ℕ)
  deriving DecidableEq

namespace LoopReader

variable (r : LoopReader ρ δ μ)

/-- The loop of a piece, if it completes a message. -/
def startLoop (s : Loops ρ μ) : List (μ × ℕ) → Loops ρ μ × List (LoopEvent μ)
  | [] => (s, [])
  | message :: rest =>
    ({ s with loops := s.loops ++ [{ current := message, rest }] }, [.started message])

def receive (s : Loops ρ μ) (piece : δ) : Loops ρ μ × List (LoopEvent μ) :=
  if s.closed then (s, [])
  else
    match r.read s.reader piece with
    | none => ({ s with closed := true }, [])
    | some (reader, messages) =>
      let numbered := messages.zipIdx s.count
      let (s, events) :=
        startLoop { s with reader, count := s.count + messages.length } numbered
      (s, numbered.map .received ++ events)

/-- A loop goes on to its next message, if there is one and the loop is not to stop. -/
def advance (s : Loops ρ μ) (i : ℕ) : Loops ρ μ × List (LoopEvent μ) :=
  match s.loops[i]? with
  | none => (s, [])
  | some loop =>
    match loop.rest with
    | [] => ({ s with loops := s.loops.eraseIdx i }, [])
    | next :: rest =>
      if s.closed && r.stopsWhenClosed then ({ s with loops := s.loops.eraseIdx i }, [])
      else ({ s with loops := s.loops.set i { current := next, rest } }, [.started next])

def machine : Machine (Loops ρ μ) (LoopInput δ) (LoopEvent μ) where
  step s
    | .data piece => r.receive s piece
    | .turn i => (s, (s.loops[i]?.map fun loop => LoopEvent.acted loop.current).toList)
    | .ends i => r.advance s i
    | .fails i => ({ s with loops := s.loops.eraseIdx i, closed := true }, [])
    | .closes => ({ s with closed := true }, [])

end LoopReader

/-! ### What a history says -/

def receivedMessages (h : List (LoopEvent μ)) : List (μ × ℕ) :=
  h.filterMap fun
    | .received message => some message
    | _ => none

def startedMessages (h : List (LoopEvent μ)) : List (μ × ℕ) :=
  h.filterMap fun
    | .started message => some message
    | _ => none

/-- The messages whose handlers did something, in the order in which they did it. -/
def sectionsOf (h : List (LoopEvent μ)) : List (μ × ℕ) :=
  h.filterMap fun
    | .received _ => none
    | .started message => some message
    | .acted message => some message

/-- The handlers are started in the order of the messages. -/
def InOrder (h : List (LoopEvent μ)) : Prop :=
  startedMessages h <+: receivedMessages h

@[simp] theorem receivedMessages_append (h more : List (LoopEvent μ)) :
    receivedMessages (h ++ more) = receivedMessages h ++ receivedMessages more :=
  List.filterMap_append

@[simp] theorem startedMessages_append (h more : List (LoopEvent μ)) :
    startedMessages (h ++ more) = startedMessages h ++ startedMessages more :=
  List.filterMap_append

@[simp] theorem sectionsOf_append (h more : List (LoopEvent μ)) :
    sectionsOf (h ++ more) = sectionsOf h ++ sectionsOf more :=
  List.filterMap_append

namespace LoopReader

variable (r : LoopReader ρ δ μ)

/-- The messages that a piece completes. -/
def completes (s : Loops ρ μ) (piece : δ) : List μ :=
  match r.read s.reader piece with
  | none => []
  | some read => read.2

/-- No message is completed while an earlier loop has messages to start. -/
def NoOvertaking (s : Loops ρ μ) (_ : List (LoopEvent μ)) : LoopInput δ → Prop
  | .data piece => s.closed = true ∨ r.completes s piece = [] ∨ ∀ loop ∈ s.loops, loop.rest = []
  | _ => True

instance (s : Loops ρ μ) (h : List (LoopEvent μ)) (input : LoopInput δ) :
    Decidable (r.NoOvertaking s h input) := by
  rcases input with _ | _ <;> unfold NoOvertaking <;> infer_instance

/-- No message is completed while a loop runs. -/
def OneLoop (s : Loops ρ μ) (_ : List (LoopEvent μ)) : LoopInput δ → Prop
  | .data piece => s.closed = true ∨ r.completes s piece = [] ∨ s.loops = []
  | _ => True

/-! ### What one step does -/

/-- The messages that are read and wait for their turn. -/
def waiting (loops : List (MessageLoop μ)) : List (μ × ℕ) := loops.flatMap (·.rest)

/-- Only the last loop has messages that wait. -/
def Alone (loops : List (MessageLoop μ)) : Prop := OnlyLast (·.rest) loops

/-- What an input does to the loops, and what it adds to the history. -/
inductive LoopStep (s : Loops ρ μ) : LoopInput δ → Loops ρ μ → List (LoopEvent μ) → Prop
  /-- Nothing is read or started. A loop may end, but one with messages that wait only on a
  closed connection. -/
  | keeps {input : LoopInput δ} {s' : Loops ρ μ} {events : List (LoopEvent μ)}
      (hcount : s'.count = s.count)
      (hloops : s'.loops = s.loops ∨ ∃ i loop, s.loops[i]? = some loop ∧
        s'.loops = s.loops.eraseIdx i ∧ (loop.rest = [] ∨ s'.closed = true))
      (hclosed : s'.closed = false → s.closed = false)
      (hreceived : receivedMessages events = []) (hstarted : startedMessages events = [])
      (hsections : ∀ x ∈ sectionsOf events, ∃ loop ∈ s.loops, loop.current = x)
      (hdata : ∀ piece, input = .data piece → s.closed = true ∨ r.completes s piece = []) :
      LoopStep s input s' events
  /-- A loop starts its next message. -/
  | next {i : ℕ} {loop : MessageLoop μ} {message : μ × ℕ} {rest : List (μ × ℕ)}
      (hloop : s.loops[i]? = some loop) (hrest : loop.rest = message :: rest) :
      LoopStep s (.ends i)
        { s with loops := s.loops.set i { current := message, rest } } [.started message]
  /-- A piece completes some messages, and its loop starts the first one. -/
  | starts {piece : δ} {reader : ρ} {message : μ} {messages : List μ}
      (hopen : s.closed = false) (hread : r.completes s piece = message :: messages) :
      LoopStep s (.data piece)
        { s with
          reader
          count := s.count + (messages.length + 1)
          loops := s.loops ++
            [{ current := (message, s.count), rest := messages.zipIdx (s.count + 1) }] }
        (((message :: messages).zipIdx s.count).map .received ++ [.started (message, s.count)])

theorem loopStep (s : Loops ρ μ) (input : LoopInput δ) :
    r.LoopStep s input (r.machine.step s input).1 (r.machine.step s input).2 := by
  have hsame {input : LoopInput δ}
      (hdata : ∀ piece, input = .data piece → s.closed = true ∨ r.completes s piece = []) :
      r.LoopStep s input s [] :=
    .keeps rfl (Or.inl rfl) id rfl rfl (fun _ hx => nomatch hx) hdata
  have herase {input : LoopInput δ} {i : ℕ} {loop : MessageLoop μ} {closed : Bool}
      (hloop : s.loops[i]? = some loop) (hend : loop.rest = [] ∨ closed = true)
      (hclosed : closed = false → s.closed = false)
      (hdata : ∀ piece, input = .data piece → s.closed = true ∨ r.completes s piece = []) :
      r.LoopStep s input { s with loops := s.loops.eraseIdx i, closed } [] :=
    .keeps rfl (Or.inr ⟨i, loop, hloop, rfl, hend⟩) hclosed rfl rfl (fun _ hx => nomatch hx) hdata
  cases input with
  | closes =>
    exact .keeps rfl (Or.inl rfl) (fun h => nomatch h) rfl rfl (fun _ hx => nomatch hx)
      (fun _ h => nomatch h)
  | fails i =>
    show r.LoopStep s _ { s with loops := s.loops.eraseIdx i, closed := true } []
    cases hloop : s.loops[i]? with
    | none =>
      have hlen := List.getElem?_eq_none_iff.mp hloop
      exact .keeps rfl (Or.inl (List.eraseIdx_of_length_le hlen)) (fun h => nomatch h) rfl rfl
        (fun _ hx => nomatch hx) (fun _ h => nomatch h)
    | some loop => exact herase hloop (Or.inr rfl) (fun h => nomatch h) (fun _ h => nomatch h)
  | turn i =>
    show r.LoopStep s _ s (s.loops[i]?.map fun loop => LoopEvent.acted loop.current).toList
    cases hloop : s.loops[i]? with
    | none => exact hsame fun _ h => nomatch h
    | some loop =>
      refine .keeps rfl (Or.inl rfl) id rfl rfl (fun x hx => ?_) fun _ h => nomatch h
      exact ⟨loop, List.mem_of_getElem? hloop, (List.mem_singleton.mp hx).symm⟩
  | ends i =>
    show r.LoopStep s _ (r.advance s i).1 (r.advance s i).2
    rw [advance]
    cases hloop : s.loops[i]? with
    | none => exact hsame fun _ h => nomatch h
    | some loop =>
      dsimp only
      cases hrest : loop.rest with
      | nil => exact herase hloop (Or.inl hrest) id fun _ h => nomatch h
      | cons message rest =>
        dsimp only
        by_cases hstop : (s.closed && r.stopsWhenClosed) = true
        · rw [if_pos hstop]
          have hclosed : s.closed = true := (Bool.and_eq_true_iff.mp hstop).1
          exact herase hloop (Or.inr hclosed) id fun _ h => nomatch h
        · rw [if_neg hstop]
          exact .next hloop hrest
  | data piece =>
    show r.LoopStep s _ (r.receive s piece).1 (r.receive s piece).2
    rw [receive]
    by_cases hclosed : s.closed = true
    · rw [if_pos hclosed]
      exact hsame fun _ _ => Or.inl hclosed
    · rw [if_neg hclosed]
      have hcompletes : r.completes s piece = ((r.read s.reader piece).elim [] (·.2)) := by
        rw [completes]
        cases r.read s.reader piece <;> rfl
      cases hread : r.read s.reader piece with
      | none =>
        rw [hread] at hcompletes
        refine .keeps rfl (Or.inl rfl) (fun h => nomatch h) rfl rfl (fun _ hx => nomatch hx) ?_
        rintro _ ⟨rfl⟩
        exact Or.inr hcompletes
      | some read =>
        obtain ⟨reader, messages⟩ := read
        rw [hread] at hcompletes
        cases messages with
        | nil =>
          refine .keeps rfl (Or.inl rfl) id rfl rfl (fun _ hx => nomatch hx) ?_
          rintro _ ⟨rfl⟩
          exact Or.inr hcompletes
        | cons message messages => exact .starts (Bool.eq_false_iff.mpr hclosed) hcompletes

/-! ### Runs without overtaking -/

/-- The numbers of the messages are their positions. -/
def Numbered (s : Loops ρ μ) (h : List (LoopEvent μ)) : Prop :=
  (receivedMessages h).map (·.2) = List.range s.count

/-- What is started and what waits is what was read, in order. -/
structure LoopInv (s : Loops ρ μ) (h : List (LoopEvent μ)) : Prop where
  alone : Alone s.loops
  ordered : startedMessages h ++ waiting s.loops <+: receivedMessages h
  complete : s.closed = false → startedMessages h ++ waiting s.loops = receivedMessages h

/-- A message was started before its turn. -/
def Overtaken (h : List (LoopEvent μ)) : Prop :=
  ∃ (k : ℕ) (x : μ × ℕ), (startedMessages h)[k]? = some x ∧ x.2 ≠ k

theorem receivedMessages_map (messages : List (μ × ℕ)) :
    receivedMessages (messages.map .received) = messages := by
  induction messages with
  | nil => rfl
  | cons message messages ih => exact congrArg (message :: ·) ih

theorem startedMessages_map_received (messages : List (μ × ℕ)) :
    startedMessages (messages.map .received) = [] := by
  induction messages with
  | nil => rfl
  | cons message messages ih => exact ih

theorem sectionsOf_map_received (messages : List (μ × ℕ)) :
    sectionsOf (messages.map .received) = [] := by
  induction messages with
  | nil => rfl
  | cons message messages ih => exact ih

theorem Numbered.step {s s' : Loops ρ μ} {input : LoopInput δ} {h events : List (LoopEvent μ)}
    (numbered : Numbered s h) (step : r.LoopStep s input s' events) :
    Numbered s' (h ++ events) := by
  rw [Numbered, receivedMessages_append, List.map_append, numbered]
  cases step with
  | keeps hcount _ _ hreceived =>
    rw [hreceived, hcount]
    exact List.append_nil _
  | next => exact List.append_nil _
  | @starts _ _ message messages =>
    rw [receivedMessages_append, receivedMessages_map]
    show _ ++ List.map Prod.snd (_ ++ []) = List.range (s.count + (messages.length + 1))
    rw [List.append_nil, List.zipIdx_map_snd, List.length_cons, List.range'_eq_map_range,
      ← List.range_add]

theorem LoopInv.step {s s' : Loops ρ μ} {input : LoopInput δ} {h events : List (LoopEvent μ)}
    (inv : LoopInv s h) (step : r.LoopStep s input s' events) (hcond : r.NoOvertaking s h input) :
    LoopInv s' (h ++ events) := by
  obtain ⟨alone, ordered, complete⟩ := inv
  cases step with
  | keeps _ hloops hclosed hreceived hstarted =>
    have hkept : Alone s'.loops ∧ (waiting s'.loops = waiting s.loops ∨
        s'.closed = true ∧ waiting s'.loops = []) := by
      obtain hsame | ⟨i, loop, hloop, herase, hend⟩ := hloops
      · rw [hsame]
        exact ⟨alone, Or.inl rfl⟩
      · rw [herase]
        refine ⟨(OnlyLast.erase alone hloop).1, (OnlyLast.erase alone hloop).2.imp_right ?_⟩
        rintro ⟨hrest, hnil⟩
        exact ⟨hend.resolve_left hrest, hnil⟩
    have hreceived' : receivedMessages (h ++ events) = receivedMessages h := by
      rw [receivedMessages_append, hreceived, List.append_nil]
    have hstarted' : startedMessages (h ++ events) = startedMessages h := by
      rw [startedMessages_append, hstarted, List.append_nil]
    refine ⟨hkept.1, ?_, fun hopen => ?_⟩
    · rw [hreceived', hstarted']
      obtain hwaiting | ⟨-, hwaiting⟩ := hkept.2
      · rwa [hwaiting]
      · rw [hwaiting, List.append_nil]
        exact (List.prefix_append _ _).trans ordered
    · rw [hreceived', hstarted']
      obtain hwaiting | ⟨hgone, -⟩ := hkept.2
      · rw [hwaiting, complete (hclosed hopen)]
      · rw [hopen] at hgone
        cases hgone
  | @next i loop message rest hloop hrest =>
    obtain ⟨alone', hwaiting⟩ := OnlyLast.set alone hloop (y := { current := message, rest }) hrest
    -- The message moves from the head of those that wait to the end of those that started.
    have hmoves : startedMessages (h ++ [.started message]) ++
        waiting (s.loops.set i { current := message, rest }) =
          startedMessages h ++ waiting s.loops := by
      rw [startedMessages_append, List.append_assoc]
      exact congrArg (startedMessages h ++ ·) hwaiting.symm
    have hreceived : receivedMessages (h ++ [.started message]) = receivedMessages h := by
      rw [receivedMessages_append]
      exact List.append_nil _
    refine ⟨alone', ?_, fun hopen => ?_⟩
    · rwa [hreceived, hmoves]
    · rw [hreceived, hmoves, complete hopen]
  | @starts piece reader message messages hopen hread =>
    have hnone : ∀ loop ∈ s.loops, loop.rest = [] := by
      obtain hclosed | hnil | hnone := hcond
      · rw [hopen] at hclosed
        cases hclosed
      · rw [hread] at hnil
        cases hnil
      · exact hnone
    have hnothing : waiting s.loops = [] := List.flatMap_eq_nil_iff.mpr hnone
    obtain ⟨alone', hwaiting⟩ := OnlyLast.append alone hnothing
      { current := (message, s.count), rest := messages.zipIdx (s.count + 1) }
    have hbefore := complete hopen
    rw [hnothing, List.append_nil] at hbefore
    let events : List (LoopEvent μ) :=
      ((message :: messages).zipIdx s.count).map .received ++ [.started (message, s.count)]
    have hreceived : receivedMessages (h ++ events) =
        receivedMessages h ++ (message :: messages).zipIdx s.count := by
      rw [receivedMessages_append, receivedMessages_append, receivedMessages_map]
      exact congrArg (receivedMessages h ++ ·) (List.append_nil _)
    have hstarted : startedMessages (h ++ events) =
        startedMessages h ++ [(message, s.count)] := by
      rw [startedMessages_append, startedMessages_append, startedMessages_map_received]
      rfl
    have hafter : startedMessages (h ++ events) ++ waiting (s.loops ++
        [{ current := (message, s.count), rest := messages.zipIdx (s.count + 1) }]) =
          receivedMessages (h ++ events) := by
      rw [hreceived, hstarted, hbefore, List.append_assoc]
      exact congrArg (receivedMessages h ++ (message, s.count) :: ·) hwaiting
    exact ⟨alone', hafter ▸ List.prefix_rfl, fun _ => hafter⟩

section
variable {h : List (LoopEvent μ)} {s : Loops ρ μ} {reader : ρ} {inputs : List (LoopInput δ)}

/-- Once a message was started before its turn, this stays so. -/
theorem Overtaken.append (overtaken : Overtaken h) (more : List (LoopEvent μ)) :
    Overtaken (h ++ more) := by
  obtain ⟨k, x, hx, hne⟩ := overtaken
  refine ⟨k, x, ?_, hne⟩
  rw [startedMessages_append,
    List.getElem?_append_left (List.getElem?_eq_some_iff.mp hx).1, hx]

theorem Overtaken.not_inOrder (overtaken : Overtaken h) (numbered : Numbered s h) :
    ¬ InOrder h := by
  rintro ⟨rest, hrest⟩
  obtain ⟨k, x, hx, hne⟩ := overtaken
  have hreceived : (receivedMessages h)[k]? = some x := by
    rw [← hrest, List.getElem?_append_left (List.getElem?_eq_some_iff.mp hx).1, hx]
  have hnumber : (List.range s.count)[k]? = some x.2 := by
    rw [← numbered, List.getElem?_map, hreceived]
    rfl
  obtain ⟨hk, heq⟩ := List.getElem?_eq_some_iff.mp hnumber
  rw [List.getElem_range] at heq
  exact hne heq.symm

/-- A piece that completes a message while an earlier loop has messages to start. -/
theorem LoopInv.overtaken {s' : Loops ρ μ} {input : LoopInput δ} {events : List (LoopEvent μ)}
    (inv : LoopInv s h) (numbered : Numbered s h) (step : r.LoopStep s input s' events)
    (hcond : ¬ r.NoOvertaking s h input) : Overtaken (h ++ events) := by
  cases step with
  | next => exact absurd trivial hcond
  | keeps _ _ _ _ _ _ hdata =>
    cases input with
    | data piece =>
      simp only [NoOvertaking, not_or] at hcond
      exact ((hdata piece rfl).elim hcond.1 hcond.2.1).elim
    | turn i | ends i | fails i | closes => exact absurd trivial hcond
  | @starts piece reader message messages hopen hread =>
    simp only [NoOvertaking, not_or, not_forall] at hcond
    obtain ⟨-, -, loop, hmem, hrest⟩ := hcond
    have hcount : (receivedMessages h).length = s.count := by
      rw [← List.length_map (·.2), numbered, List.length_range]
    have hwaits : (waiting s.loops).length ≠ 0 := by
      intro hzero
      exact hrest (List.flatMap_eq_nil_iff.mp (List.eq_nil_of_length_eq_zero hzero) loop hmem)
    have hlen := congrArg List.length (inv.complete hopen)
    rw [List.length_append, hcount] at hlen
    refine ⟨(startedMessages h).length, (message, s.count), ?_, fun heq => ?_⟩
    · rw [startedMessages_append, startedMessages_append, startedMessages_map_received,
        List.getElem?_append_right (Nat.le_refl _), Nat.sub_self]
      rfl
    · dsimp only at heq
      omega

theorem numbered_run (reader : ρ) (inputs : List (LoopInput δ)) :
    Numbered (r.machine.final { reader } inputs)
      (r.machine.history { reader } inputs : List (LoopEvent μ)) := by
  have hall : r.machine.Along (fun _ _ _ => True) { reader } [] inputs :=
    r.machine.along_of_forall (fun _ _ _ => trivial) _ _ _
  exact r.machine.history_invariant
    (fun s h input numbered _ => numbered.step r (r.loopStep s input)) rfl hall

theorem inv_of_noOvertaking (hcond : r.machine.Along r.NoOvertaking { reader } [] inputs) :
    LoopInv (r.machine.final { reader } inputs)
      (r.machine.history { reader } inputs : List (LoopEvent μ)) :=
  r.machine.history_invariant
    (fun s _ input inv hcond => inv.step r (r.loopStep s input) hcond)
    ⟨List.Pairwise.nil, List.prefix_rfl, fun _ => rfl⟩ hcond

theorem overtaken_of_not (hcond : ¬ r.machine.Along r.NoOvertaking { reader } [] inputs) :
    Overtaken (r.machine.history { reader } inputs : List (LoopEvent μ)) := by
  induction inputs using List.reverseRecOn with
  | nil => exact absurd trivial hcond
  | append_singleton inputs input ih =>
    rw [Machine.history_append]
    by_cases hbefore : r.machine.Along r.NoOvertaking { reader } [] inputs
    · have hlast : ¬ r.NoOvertaking (r.machine.final { reader } inputs)
          (r.machine.history { reader } inputs) input := fun hlast =>
        hcond ((Machine.along_append _).mpr ⟨hbefore, hlast, trivial⟩)
      have step := r.loopStep (r.machine.final { reader } inputs) input
      have overtaken :=
        (r.inv_of_noOvertaking hbefore).overtaken r (r.numbered_run reader inputs) step hlast
      rwa [Machine.history_cons, Machine.history_nil, List.append_nil]
    · exact (ih hbefore).append _

/-- The handlers are started in the order of the messages if and only if no message is completed
while an earlier loop still has messages to start. -/
theorem inOrder_iff (reader : ρ) (inputs : List (LoopInput δ)) :
    InOrder (r.machine.history { reader } inputs) ↔
      r.machine.Along r.NoOvertaking { reader } [] inputs := by
  constructor
  · intro inOrder
    by_contra hcond
    exact (r.overtaken_of_not hcond).not_inOrder (r.numbered_run reader inputs) inOrder
  · intro hcond
    exact (List.prefix_append _ _).trans (r.inv_of_noOvertaking hcond).ordered

/-! ### Runs with one loop at a time -/

/-- The only loop has the messages from the current one on, and every section so far is of a
message before them. -/
structure SerialInv (s : Loops ρ μ) (h : List (LoopEvent μ)) : Prop where
  sorted : (sectionsOf h).Pairwise fun earlier later => earlier.2 ≤ later.2
  bounded : ∀ x ∈ sectionsOf h, x.2 < s.count
  one : s.loops = [] ∨ ∃ loop, s.loops = [loop] ∧ loop.current.2 < s.count ∧
    (∀ x ∈ sectionsOf h, x.2 ≤ loop.current.2) ∧
    (loop.current :: loop.rest).Pairwise (fun earlier later => earlier.2 < later.2) ∧
    ∀ x ∈ loop.rest, x.2 < s.count

theorem pairwise_lt_zipIdx (messages : List μ) (n : ℕ) :
    (messages.zipIdx n).Pairwise fun earlier later => earlier.2 < later.2 := by
  have hsorted : ((messages.zipIdx n).map Prod.snd).Pairwise (· < ·) := by
    rw [List.zipIdx_map_snd]
    exact List.pairwise_lt_range'
  exact List.pairwise_map.mp hsorted

theorem SerialInv.step {s s' : Loops ρ μ} {input : LoopInput δ} {h events : List (LoopEvent μ)}
    (inv : SerialInv s h) (step : r.LoopStep s input s' events) (hcond : r.OneLoop s h input) :
    SerialInv s' (h ++ events) := by
  obtain ⟨sorted, bounded, one⟩ := inv
  cases step with
  | keeps hcount hloops _ _ _ hsections =>
    -- What is done is done by the only loop.
    have hnew (x : μ × ℕ) (hx : x ∈ sectionsOf events) : ∃ loop, s.loops = [loop] ∧
        loop.current = x := by
      obtain ⟨loop, hmem, heq⟩ := hsections x hx
      obtain hnil | ⟨only, honly, -⟩ := one
      · rw [hnil] at hmem
        cases hmem
      · rw [honly, List.mem_singleton] at hmem
        exact ⟨loop, hmem ▸ honly, heq⟩
    have hbound (x : μ × ℕ) (hx : x ∈ sectionsOf events) :
        x.2 < s.count ∧ ∀ y ∈ sectionsOf h, y.2 ≤ x.2 := by
      obtain ⟨loop, hloop, rfl⟩ := hnew x hx
      obtain hnil | ⟨only, honly, hlt, hle, -⟩ := one
      · rw [hnil] at hloop
        cases hloop
      · obtain rfl : loop = only := by simpa [hloop] using honly
        exact ⟨hlt, hle⟩
    have hsame (x y : μ × ℕ) (hx : x ∈ sectionsOf events) (hy : y ∈ sectionsOf events) :
        x = y := by
      obtain ⟨loop, hloop, rfl⟩ := hnew x hx
      obtain ⟨loop', hloop', rfl⟩ := hnew y hy
      rw [hloop] at hloop'
      obtain rfl : loop = loop' := by simpa using hloop'
      rfl
    refine ⟨?_, fun x hx => ?_, ?_⟩
    · rw [sectionsOf_append, List.pairwise_append]
      refine ⟨sorted, ?_, fun y hy x hx => (hbound x hx).2 y hy⟩
      exact List.pairwise_of_forall_mem_list fun x hx y hy => (hsame x y hx hy) ▸ Nat.le_refl _
    · rw [sectionsOf_append, List.mem_append] at hx
      rw [hcount]
      exact hx.elim (bounded x) fun hx => (hbound x hx).1
    · obtain hnil | ⟨only, honly, hlt, hle, hpair, hrest⟩ := one
      · left
        obtain hsame' | ⟨i, loop, hloop, -⟩ := hloops
        · rw [hsame', hnil]
        · rw [hnil] at hloop
          cases hloop
      · obtain hsame' | ⟨i, loop, hloop, herase, -⟩ := hloops
        · right
          refine ⟨only, hsame'.trans honly, hcount ▸ hlt, fun x hx => ?_, hpair, hcount ▸ hrest⟩
          rw [sectionsOf_append, List.mem_append] at hx
          obtain hx | hx := hx
          · exact hle x hx
          · obtain ⟨loop, hloop, rfl⟩ := hnew x hx
            obtain rfl : loop = only := by simpa [hloop] using honly
            exact Nat.le_refl _
        · left
          obtain ⟨hi, -⟩ := List.getElem?_eq_some_iff.mp hloop
          rw [honly, List.length_singleton] at hi
          rw [herase, honly, show i = 0 by omega]
          rfl
  | @next i loop message rest hloop hrest =>
    obtain hnil | ⟨only, honly, hlt, hle, hpair, hbelow⟩ := one
    · rw [hnil] at hloop
      cases hloop
    · have hi : i = 0 := by
        obtain ⟨hi, -⟩ := List.getElem?_eq_some_iff.mp hloop
        rw [honly, List.length_singleton] at hi
        omega
      subst hi
      obtain rfl : only = loop := by simpa [honly] using hloop
      rw [hrest] at hpair hbelow
      have hcurrent : only.current.2 < message.2 :=
        (List.pairwise_cons.mp hpair).1 message List.mem_cons_self
      have hmessage : message.2 < s.count := hbelow message List.mem_cons_self
      have hsections (x : μ × ℕ) (hx : x ∈ sectionsOf (h ++ [.started message])) :
          x.2 ≤ message.2 := by
        rw [sectionsOf_append, List.mem_append] at hx
        obtain hx | hx := hx
        · exact (hle x hx).trans hcurrent.le
        · rw [List.mem_singleton.mp hx]
      refine ⟨?_, fun x hx => (hsections x hx).trans_lt hmessage,
        Or.inr ⟨{ current := message, rest }, ?_, hmessage, hsections,
          (List.pairwise_cons.mp hpair).2, fun x hx => hbelow x (List.mem_cons_of_mem _ hx)⟩⟩
      · rw [sectionsOf_append, List.pairwise_append]
        refine ⟨sorted, List.pairwise_singleton .., fun y hy x hx => ?_⟩
        rw [List.mem_singleton.mp hx]
        exact (hle y hy).trans hcurrent.le
      · show s.loops.set 0 _ = _
        rw [honly]
        rfl
  | @starts piece reader message messages hopen hread =>
    have hnone : s.loops = [] := by
      obtain hclosed | hnil | hnone := hcond
      · rw [hopen] at hclosed
        cases hclosed
      · rw [hread] at hnil
        cases hnil
      · exact hnone
    have hsections : sectionsOf (h ++ (((message :: messages).zipIdx s.count).map .received ++
        [.started (message, s.count)])) = sectionsOf h ++ [(message, s.count)] := by
      rw [sectionsOf_append, sectionsOf_append, sectionsOf_map_received]
      rfl
    have hnumbers := pairwise_lt_zipIdx (message :: messages) s.count
    have hle (x : μ × ℕ) (hx : x ∈ sectionsOf h ++ [(message, s.count)]) : x.2 ≤ s.count := by
      obtain hx | hx := List.mem_append.mp hx
      · exact (bounded x hx).le
      · rw [List.mem_singleton.mp hx]
    refine ⟨?_, fun x hx => ?_,
      Or.inr ⟨{ current := (message, s.count), rest := messages.zipIdx (s.count + 1) }, ?_, ?_, ?_,
        hnumbers, fun x hx => ?_⟩⟩
    · rw [hsections, List.pairwise_append]
      refine ⟨sorted, List.pairwise_singleton .., fun y hy x hx => ?_⟩
      rw [List.mem_singleton.mp hx]
      exact (bounded y hy).le
    · rw [hsections] at hx
      have hx' := hle x hx
      show x.2 < s.count + (messages.length + 1)
      omega
    · show s.loops ++ _ = _
      rw [hnone]
      rfl
    · show s.count < s.count + (messages.length + 1)
      omega
    · rw [hsections]
      exact hle
    · have hx' := (List.mem_zipIdx hx).2.1
      show x.2 < s.count + (messages.length + 1)
      omega

/-- If no message is completed while a loop runs, all that a handler does comes before all that
the handler of a later message does. -/
theorem sections_sorted (hcond : r.machine.Along r.OneLoop { reader } [] inputs) :
    (sectionsOf (r.machine.history { reader } inputs : List (LoopEvent μ))).Pairwise
      fun earlier later => earlier.2 ≤ later.2 :=
  (r.machine.history_invariant
    (fun s _ input inv hcond => SerialInv.step r inv (r.loopStep s input) hcond)
    ⟨List.Pairwise.nil, (fun _ hx => absurd hx List.not_mem_nil), Or.inl rfl⟩ hcond).sorted

/-! ### What is read -/

/-- Some pieces, read one after the other. -/
def readAll (reader : ρ) : List δ → Option (ρ × List μ)
  | [] => some (reader, [])
  | piece :: pieces => do
    let (reader, messages) ← r.read reader piece
    let (reader, more) ← readAll reader pieces
    return (reader, messages ++ more)

theorem readAll_append {reader₁ reader₂ : ρ} {pieces more : List δ} {messages rest : List μ}
    (h : r.readAll reader pieces = some (reader₁, messages))
    (hmore : r.readAll reader₁ more = some (reader₂, rest)) :
    r.readAll reader (pieces ++ more) = some (reader₂, messages ++ rest) := by
  induction pieces generalizing reader messages with
  | nil =>
    cases h
    exact hmore
  | cons piece pieces ih =>
    simp only [readAll, Option.bind_eq_bind, Option.bind_eq_some_iff, Option.pure_def,
      Option.some.injEq, Prod.mk.injEq] at h
    obtain ⟨⟨_, first⟩, hfirst, ⟨_, later⟩, hlater, rfl, rfl⟩ := h
    simp only [List.cons_append, readAll, hfirst, ih hlater, Option.bind_eq_bind,
      Option.bind_some, Option.pure_def, List.append_assoc]

end

/-- The pieces of a run. -/
def piecesOf (inputs : List (LoopInput δ)) : List δ :=
  inputs.filterMap fun
    | .data piece => some piece
    | _ => none

/-- What a step reads. -/
theorem step_reads (s : Loops ρ μ) (input : LoopInput δ)
    (hopen : (r.machine.step s input).1.closed = false) :
    s.closed = false ∧ r.readAll s.reader (piecesOf [input]) =
      some ((r.machine.step s input).1.reader,
        (receivedMessages (r.machine.step s input).2).map (·.1)) := by
  cases input with
  | closes | fails i => cases hopen
  | turn i =>
    refine ⟨hopen, ?_⟩
    show some (s.reader, []) = some (s.reader, (receivedMessages
      (s.loops[i]?.map fun loop => LoopEvent.acted loop.current).toList).map (·.1))
    cases s.loops[i]? <;> rfl
  | ends i =>
    change (r.advance s i).1.closed = false at hopen
    show _ ∧ some (s.reader, []) = some ((r.advance s i).1.reader,
      (receivedMessages (r.advance s i).2).map (·.1))
    revert hopen
    rw [advance]
    split
    · exact fun hopen => ⟨hopen, rfl⟩
    · split
      · exact fun hopen => ⟨hopen, rfl⟩
      · split <;> exact fun hopen => ⟨hopen, rfl⟩
  | data piece =>
    change (r.receive s piece).1.closed = false at hopen
    show _ ∧ r.readAll s.reader [piece] = some ((r.receive s piece).1.reader,
      (receivedMessages (r.receive s piece).2).map (·.1))
    revert hopen
    rw [receive]
    by_cases hclosed : s.closed = true
    · rw [if_pos hclosed]
      intro hopen
      rw [hclosed] at hopen
      cases hopen
    · rw [if_neg hclosed]
      cases hread : r.read s.reader piece with
      | none => exact fun hopen => nomatch hopen
      | some read =>
        obtain ⟨reader, messages⟩ := read
        intro hopen
        refine ⟨Bool.eq_false_iff.mpr hclosed, ?_⟩
        simp only [readAll, hread, Option.bind_eq_bind, Option.bind_some, Option.pure_def,
          receivedMessages_append, receivedMessages_map, List.map_append, List.zipIdx_map_fst]
        cases messages <;> rfl

/-- A connection that is open has read all of its pieces. -/
theorem readAll_of_open (reader : ρ) (inputs : List (LoopInput δ))
    (hopen : (r.machine.final { reader } inputs).closed = false) :
    r.readAll reader (piecesOf inputs) = some ((r.machine.final { reader } inputs).reader,
      (receivedMessages (r.machine.history { reader } inputs)).map (·.1)) := by
  induction inputs using List.reverseRecOn with
  | nil => rfl
  | append_singleton inputs input ih =>
    rw [Machine.final_append] at hopen ⊢
    rw [Machine.history_append]
    simp only [Machine.final_cons, Machine.final_nil, Machine.history_cons, Machine.history_nil,
      List.append_nil] at hopen ⊢
    obtain ⟨hbefore, hread⟩ := r.step_reads _ input hopen
    rw [piecesOf, List.filterMap_append, receivedMessages_append, List.map_append]
    exact r.readAll_append (ih hbefore) hread

end LoopReader

end PublicPool.Lib
