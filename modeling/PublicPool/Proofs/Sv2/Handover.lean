import PublicPool.Sv2.Handshake

/-!
# `PublicPool.Proofs.Sv2.Handover`: which bytes the frame reader gets

`handedOver_of_quiet`: as long as nothing is received while a first act is being answered, the
act is processed once, on the first 64 bytes, and the frame reader gets exactly what follows
them, in order. This holds for the three kinds of connections and at every moment of a run.

`handover_iff` adds that nothing less will do. Bytes that are received in the meantime are put
into the handshake buffer. Nobody reads them there any more once the handshake is complete, and
on the two kinds of connections without a guard enough of them are taken for a first act again.

The walk of a quiet connection is `Stage`: waiting for the act, answering it, given up, done.
The other direction counts bytes. Every byte is in an act, with a suspended call, in the buffer
or at the frame reader (`Counted.bytes`), so what stays in the buffer is missing at the reader.
-/

set_option autoImplicit false

namespace PublicPool.Sv2

open Lib

/-! ### What a history says -/

/-- The bytes a connection has taken in. -/
def arrivedBytes (h : List HandshakeEvent) : Bytes :=
  h.flatMap fun
    | .arrived data => data
    | _ => []

/-- The bytes the frame reader got. -/
def fedBytes (h : List HandshakeEvent) : Bytes :=
  h.flatMap fun
    | .fed data => data
    | _ => []

/-- The first acts that were processed. -/
def processedActs (h : List HandshakeEvent) : List Bytes :=
  h.filterMap fun
    | .act1Processed act1 => some act1
    | _ => none

@[simp] theorem arrivedBytes_append (h more : List HandshakeEvent) :
    arrivedBytes (h ++ more) = arrivedBytes h ++ arrivedBytes more :=
  List.flatMap_append

@[simp] theorem fedBytes_append (h more : List HandshakeEvent) :
    fedBytes (h ++ more) = fedBytes h ++ fedBytes more :=
  List.flatMap_append

@[simp] theorem processedActs_append (h more : List HandshakeEvent) :
    processedActs (h ++ more) = processedActs h ++ processedActs more :=
  List.filterMap_append

@[simp] theorem arrivedBytes_nil : arrivedBytes [] = [] := rfl

@[simp] theorem fedBytes_nil : fedBytes [] = [] := rfl

@[simp] theorem processedActs_nil : processedActs [] = [] := rfl

/-- The first act is processed once, as soon as its 64 bytes are there, and what follows them is
what the frame reader has once the handshake is complete. -/
structure HandedOver (c : HandshakeConnection) (h : List HandshakeEvent) : Prop where
  once : processedActs h =
    if (arrivedBytes h).length < sv2NoiseAct1Size then [] else
      [(arrivedBytes h).take sv2NoiseAct1Size]
  fed : fedBytes h = if c.handshakeComplete then (arrivedBytes h).drop sv2NoiseAct1Size else []

/-- No bytes are received while a call waits for the answer to a first act. -/
def QuietHandshake (c : HandshakeConnection) (_ : List HandshakeEvent) :
    HandshakeInput → Prop
  | .data data => c.destroyed ∨ c.suspended = [] ∨ data = []
  | _ => True

/-! ### Quiet connections -/

/-- Where a connection is that was quiet so far. -/
inductive Stage (c : HandshakeConnection) (h : List HandshakeEvent) : Prop
  | waiting (hsuspended : c.suspended = []) (hcomplete : c.handshakeComplete = false)
      (hprocessing : c.processingHandshake = false) (hbuffer : c.handshakeBuffer = arrivedBytes h)
      (hshort : (arrivedBytes h).length < sv2NoiseAct1Size) (hacts : processedActs h = [])
      (hfed : fedBytes h = [])
  | answering (await : HandshakeAwait)
      (hsuspended : c.suspended =
        [{ await, remainder := (arrivedBytes h).drop sv2NoiseAct1Size }])
      (hcomplete : c.handshakeComplete = false) (hbuffer : c.handshakeBuffer = [])
      (hlong : sv2NoiseAct1Size ≤ (arrivedBytes h).length)
      (hacts : processedActs h = [(arrivedBytes h).take sv2NoiseAct1Size])
      (hfed : fedBytes h = [])
  | givenUp (hdestroyed : c.destroyed = true) (hsuspended : c.suspended = [])
      (hcomplete : c.handshakeComplete = false)
      (hlong : sv2NoiseAct1Size ≤ (arrivedBytes h).length)
      (hacts : processedActs h = [(arrivedBytes h).take sv2NoiseAct1Size])
      (hfed : fedBytes h = [])
  | done (hsuspended : c.suspended = []) (hcomplete : c.handshakeComplete = true)
      (hlong : sv2NoiseAct1Size ≤ (arrivedBytes h).length)
      (hacts : processedActs h = [(arrivedBytes h).take sv2NoiseAct1Size])
      (hfed : fedBytes h = (arrivedBytes h).drop sv2NoiseAct1Size)

section
variable {c : HandshakeConnection} {h : List HandshakeEvent}

theorem Stage.handedOver (stage : Stage c h) : HandedOver c h := by
  cases stage with
  | waiting _ hcomplete _ _ hshort hacts hfed =>
    exact ⟨by rw [if_pos hshort, hacts], by rw [hcomplete, hfed]; rfl⟩
  | answering _ _ hcomplete _ hlong hacts hfed =>
    exact ⟨by rw [if_neg (by omega), hacts], by rw [hcomplete, hfed]; rfl⟩
  | givenUp _ _ hcomplete hlong hacts hfed =>
    exact ⟨by rw [if_neg (by omega), hacts], by rw [hcomplete, hfed]; rfl⟩
  | done _ hcomplete hlong hacts hfed =>
    exact ⟨by rw [if_neg (by omega), hacts], by rw [hcomplete, hfed]; rfl⟩

/-- What the kinds have in common: data is kept in the buffer, or it ends an act, and the call
is then the last one that waits. -/
theorem handleHandshakeData_cases (kind : Sv2ConnectionKind) (c : HandshakeConnection)
    (data : Bytes) :
    kind.handleHandshakeData c data =
        ({ c with handshakeBuffer := c.handshakeBuffer ++ data }, []) ∧
      (c.processingHandshake = false →
        (c.handshakeBuffer ++ data).length < sv2NoiseAct1Size) ∨
    sv2NoiseAct1Size ≤ (c.handshakeBuffer ++ data).length ∧
      ∃ processing, kind.handleHandshakeData c data =
        ({ c with
            handshakeBuffer := []
            processingHandshake := processing
            suspended := c.suspended ++ [{
              await := .processAct1
              remainder := (c.handshakeBuffer ++ data).drop sv2NoiseAct1Size }] },
          [.act1Processed ((c.handshakeBuffer ++ data).take sv2NoiseAct1Size)]) := by
  have hunguarded : (c.handleHandshakeDataUnguarded data =
        ({ c with handshakeBuffer := c.handshakeBuffer ++ data }, []) ∧
      (c.handshakeBuffer ++ data).length < sv2NoiseAct1Size) ∨
      sv2NoiseAct1Size ≤ (c.handshakeBuffer ++ data).length ∧
        c.handleHandshakeDataUnguarded data =
          { c with handshakeBuffer := c.handshakeBuffer ++ data }.beginHandshake := by
    by_cases hshort : (c.handshakeBuffer ++ data).length < sv2NoiseAct1Size
    · exact Or.inl ⟨if_pos hshort, hshort⟩
    · exact Or.inr ⟨Nat.not_lt.mp hshort, if_neg hshort⟩
  cases kind with
  | mining =>
    show StratumV2Client.handleHandshakeData c data = _ ∧ _ ∨
      _ ∧ ∃ _, StratumV2Client.handleHandshakeData c data = _
    simp only [StratumV2Client.handleHandshakeData]
    cases hprocessing : c.processingHandshake with
    | true => exact Or.inl ⟨rfl, fun h => nomatch h⟩
    | false =>
      by_cases hshort : (c.handshakeBuffer ++ data).length < sv2NoiseAct1Size
      · exact Or.inl ⟨if_pos (by simpa using hshort), fun _ => hshort⟩
      · exact Or.inr ⟨Nat.not_lt.mp hshort, true, if_neg (by simpa using hshort)⟩
  | jobDeclaration | templateDistribution =>
    obtain ⟨hkept, hshort⟩ | ⟨hlong, hbegun⟩ := hunguarded
    · exact Or.inl ⟨hkept, fun _ => hshort⟩
    · exact Or.inr ⟨hlong, c.processingHandshake, hbegun⟩

theorem Stage.data {kind : Sv2ConnectionKind} (stage : Stage c h) {data : Bytes}
    (hquiet : QuietHandshake c h (.data data)) :
    Stage (c.handleSocketData kind data).1 (h ++ (c.handleSocketData kind data).2) := by
  by_cases hdestroyed : c.destroyed = true
  · rw [HandshakeConnection.handleSocketData, if_pos hdestroyed, List.append_nil]
    exact stage
  · rw [HandshakeConnection.handleSocketData, if_neg hdestroyed]
    cases stage with
    | waiting hsuspended hcomplete hprocessing hbuffer hshort hacts hfed =>
      obtain ⟨hkept, hlen⟩ | ⟨hlen, processing, hbegin⟩ := handleHandshakeData_cases kind c data
      · have hlen := hlen hprocessing
        rw [hcomplete, Bool.not_false, if_pos rfl, hkept]
        refine .waiting hsuspended hcomplete hprocessing ?_ ?_ ?_ ?_
        · simp [hbuffer, arrivedBytes]
        · simpa [hbuffer, arrivedBytes] using hlen
        · simpa [processedActs] using hacts
        · simpa [fedBytes] using hfed
      · rw [hcomplete, Bool.not_false, if_pos rfl, hbegin]
        rw [hbuffer] at hlen ⊢
        refine .answering .processAct1 ?_ hcomplete rfl ?_ ?_ ?_
        · simp [hsuspended, arrivedBytes]
        · simpa [arrivedBytes] using hlen
        · simp [processedActs, arrivedBytes] at hacts ⊢
          exact hacts
        · simpa [fedBytes] using hfed
    | answering await hsuspended hcomplete hbuffer hlong hacts hfed =>
      -- Some call waits, so a quiet connection takes in no bytes.
      have hnil : data = [] := by
        obtain hgone | hnone | hnil := hquiet
        · exact absurd hgone hdestroyed
        · rw [hsuspended] at hnone
          cases hnone
        · exact hnil
      subst hnil
      obtain ⟨hkept, -⟩ | ⟨hlen, -⟩ := handleHandshakeData_cases kind c []
      case inr =>
        rw [hbuffer] at hlen
        exact absurd hlen (by decide)
      rw [hcomplete, Bool.not_false, if_pos rfl, hkept]
      refine .answering await ?_ hcomplete ?_ ?_ ?_ ?_
      · simp [hsuspended, arrivedBytes]
      · simp [hbuffer]
      · simpa [arrivedBytes] using hlong
      · simpa [processedActs, arrivedBytes] using hacts
      · simpa [fedBytes] using hfed
    | givenUp hgone => exact absurd hgone hdestroyed
    | done hsuspended hcomplete hlong hacts hfed =>
      rw [hcomplete, Bool.not_true, if_neg Bool.false_ne_true]
      have harrived : arrivedBytes (h ++ [.arrived data, .fed data]) = arrivedBytes h ++ data := by
        simp [arrivedBytes]
      have hfed' : fedBytes (h ++ [.arrived data, .fed data]) = fedBytes h ++ data := by
        simp [fedBytes]
      have hacts' : processedActs (h ++ [.arrived data, .fed data]) = processedActs h := by
        simp [processedActs]
      refine .done hsuspended hcomplete ?_ ?_ ?_
      · rw [harrived, List.length_append]
        omega
      · rw [hacts', harrived, List.take_append_of_le_length hlong, hacts]
      · rw [hfed', harrived, List.drop_append_of_le_length hlong, hfed]

/-- The reader gets the rest of the act's data, whether it is called for it or not. -/
theorem completeHandshake_events (c : HandshakeConnection) (remainder : Bytes) :
    arrivedBytes (c.completeHandshake remainder).2 = [] ∧
      processedActs (c.completeHandshake remainder).2 = [] ∧
      fedBytes (c.completeHandshake remainder).2 = remainder := by
  cases remainder with
  | nil => exact ⟨rfl, rfl, rfl⟩
  | cons byte rest => exact ⟨rfl, rfl, List.append_nil _⟩

theorem Stage.resume (stage : Stage c h) (i : ℕ) : Stage (c.resume i).1 (h ++ (c.resume i).2) := by
  rw [HandshakeConnection.resume]
  cases hcall : c.suspended[i]? with
  | none => simpa using stage
  | some call =>
    obtain ⟨hi, hget⟩ := List.getElem?_eq_some_iff.mp hcall
    cases stage with
    | answering await hsuspended hcomplete hbuffer hlong hacts hfed =>
      -- The only call that waits is the one that resumes.
      rw [hsuspended] at hcall
      have hzero : i = 0 := by
        simp only [hsuspended, List.length_singleton] at hi
        omega
      subst hzero
      obtain rfl := Option.some.inj hcall
      cases await with
      | processAct1 =>
        simp only [List.append_nil]
        refine .answering .writeAct2 ?_ hcomplete hbuffer hlong hacts hfed
        simp [hsuspended]
      | writeAct2 =>
        obtain ⟨harrived, hacts', hfed'⟩ := completeHandshake_events
          { c with suspended := c.suspended.eraseIdx 0 } ((arrivedBytes h).drop sv2NoiseAct1Size)
        refine .done ?_ rfl ?_ ?_ ?_
        · show c.suspended.eraseIdx 0 = []
          rw [hsuspended]
          rfl
        · rwa [arrivedBytes_append, harrived, List.append_nil]
        · rwa [processedActs_append, hacts', List.append_nil, arrivedBytes_append, harrived,
            List.append_nil]
        · rw [fedBytes_append, hfed', hfed, arrivedBytes_append, harrived, List.append_nil,
            List.nil_append]
    | waiting hsuspended | givenUp _ hsuspended | done hsuspended =>
      simp [hsuspended] at hi

theorem Stage.reject (stage : Stage c h) (i : ℕ) : Stage (c.reject i) h := by
  rw [HandshakeConnection.reject]
  split
  case isFalse => exact stage
  case isTrue hi =>
    cases stage with
    | answering await hsuspended hcomplete hbuffer hlong hacts hfed =>
      refine .givenUp rfl ?_ hcomplete hlong hacts hfed
      simp only [hsuspended, List.length_singleton] at hi ⊢
      rw [show i = 0 by omega]
      rfl
    | waiting hsuspended | givenUp _ hsuspended | done hsuspended =>
      simp [hsuspended] at hi

theorem Stage.close (stage : Stage c h) : Stage { c with destroyed := true } h := by
  cases stage with
  | waiting h₁ h₂ h₃ h₄ h₅ h₆ h₇ => exact .waiting h₁ h₂ h₃ h₄ h₅ h₆ h₇
  | answering await h₁ h₂ h₃ h₄ h₅ h₆ => exact .answering await h₁ h₂ h₃ h₄ h₅ h₆
  | givenUp _ h₁ h₂ h₃ h₄ h₅ => exact .givenUp rfl h₁ h₂ h₃ h₄ h₅
  | done h₁ h₂ h₃ h₄ h₅ => exact .done h₁ h₂ h₃ h₄ h₅

theorem Stage.step {kind : Sv2ConnectionKind} {c : HandshakeConnection}
    {h : List HandshakeEvent} (stage : Stage c h) {input : HandshakeInput}
    (hquiet : QuietHandshake c h input) :
    Stage ((handshakeMachine kind).step c input).1
      (h ++ ((handshakeMachine kind).step c input).2) := by
  cases input with
  | data data => exact stage.data hquiet
  | resumes i => exact stage.resume i
  | rejects i =>
    show Stage (c.reject i) (h ++ [])
    rw [List.append_nil]
    exact stage.reject i
  | closes =>
    show Stage { c with destroyed := true } (h ++ [])
    rw [List.append_nil]
    exact stage.close

/-- In a run without bytes at the wrong moment. -/
theorem stage_of_quiet (kind : Sv2ConnectionKind) {inputs : List HandshakeInput}
    (hquiet : (handshakeMachine kind).Along QuietHandshake {} [] inputs) :
    Stage ((handshakeMachine kind).final {} inputs) ((handshakeMachine kind).history {} inputs) :=
  (handshakeMachine kind).history_invariant (fun _ _ _ stage hquiet => stage.step hquiet)
    (.waiting rfl rfl rfl rfl (by decide) rfl rfl) hquiet

/-! ### Any connection -/

/-- Every byte that a connection holds or has passed on was received. -/
def Counted (c : HandshakeConnection) (h : List HandshakeEvent) : Prop :=
  sv2NoiseAct1Size * (processedActs h).length + (fedBytes h).length
      + (c.suspended.map (·.remainder.length)).sum + c.handshakeBuffer.length
    ≤ (arrivedBytes h).length

theorem Counted.step {kind : Sv2ConnectionKind} {c : HandshakeConnection}
    {h : List HandshakeEvent} (counted : Counted c h) (input : HandshakeInput) :
    Counted ((handshakeMachine kind).step c input).1
      (h ++ ((handshakeMachine kind).step c input).2) := by
  have hsame : Counted c (h ++ []) := by rwa [List.append_nil]
  cases input with
  | closes => exact hsame
  | rejects i =>
    show Counted (c.reject i) (h ++ [])
    rw [HandshakeConnection.reject]
    split
    case isFalse => exact hsame
    case isTrue hi =>
      have hdrop : ((c.suspended.eraseIdx i).map (·.remainder.length)).sum ≤
          (c.suspended.map (·.remainder.length)).sum :=
        ((List.eraseIdx_sublist ..).map _).sum_le_sum fun _ _ => Nat.zero_le _
      simp only [Counted, List.append_nil] at counted ⊢
      omega
  | resumes i =>
    show Counted (c.resume i).1 (h ++ (c.resume i).2)
    rw [HandshakeConnection.resume]
    cases hcall : c.suspended[i]? with
    | none => exact hsame
    | some call =>
      obtain ⟨hi, hget⟩ := List.getElem?_eq_some_iff.mp hcall
      obtain ⟨await, remainder⟩ := call
      cases await with
      | processAct1 =>
        have hset : (c.suspended.set i { await := .writeAct2, remainder }).map
            (·.remainder.length) = c.suspended.map (·.remainder.length) := by
          have hold : (c.suspended.map (·.remainder.length))[i]? = some remainder.length := by
            rw [List.getElem?_map, hcall, Option.map_some]
          obtain ⟨_, hold⟩ := List.getElem?_eq_some_iff.mp hold
          rw [List.map_set, ← hold, List.set_getElem_self]
        show Counted _ (h ++ [])
        simp only [Counted, List.append_nil] at counted ⊢
        rw [hset]
        exact counted
      | writeAct2 =>
        obtain ⟨harrived, hacts, hfed⟩ :=
          completeHandshake_events { c with suspended := c.suspended.eraseIdx i } remainder
        have hsum := ((List.getElem_cons_eraseIdx_perm hi).map (·.remainder.length)).sum_eq
        rw [List.map_cons, List.sum_cons, hget] at hsum
        dsimp only at hsum
        simp only [Counted] at counted ⊢
        rw [arrivedBytes_append, processedActs_append, fedBytes_append, harrived, hacts, hfed,
          List.append_nil, List.append_nil, List.length_append]
        show _ + _ + ((c.suspended.eraseIdx i).map (·.remainder.length)).sum
          + c.handshakeBuffer.length ≤ _
        omega
  | data data =>
    show Counted (c.handleSocketData kind data).1 (h ++ (c.handleSocketData kind data).2)
    rw [HandshakeConnection.handleSocketData]
    split
    case isTrue => exact hsame
    case isFalse =>
      cases hcomplete : c.handshakeComplete with
      | true =>
        rw [Bool.not_true, if_neg Bool.false_ne_true]
        show Counted c (h ++ [.arrived data, .fed data])
        have harrived : arrivedBytes [.arrived data, .fed data] = data := by simp [arrivedBytes]
        have hfed : fedBytes [.arrived data, .fed data] = data := by simp [fedBytes]
        have hacts : processedActs [.arrived data, .fed data] = [] := rfl
        simp only [Counted, arrivedBytes_append, fedBytes_append, processedActs_append,
          List.length_append, harrived, hfed, hacts, List.append_nil] at counted ⊢
        omega
      | false =>
        obtain ⟨hkept, -⟩ | ⟨hlong, processing, hbegin⟩ := handleHandshakeData_cases kind c data
        · rw [Bool.not_false, if_pos rfl, hkept]
          have harrived : arrivedBytes [.arrived data] = data := by simp [arrivedBytes]
          have hfed : fedBytes [.arrived data] = [] := rfl
          have hacts : processedActs [.arrived data] = [] := rfl
          simp only [Counted, arrivedBytes_append, fedBytes_append, processedActs_append,
            List.length_append, harrived, hfed, hacts, List.append_nil] at counted ⊢
          omega
        · rw [Bool.not_false, if_pos rfl, hbegin]
          generalize (c.handshakeBuffer ++ data).take sv2NoiseAct1Size = act1
          have harrived : arrivedBytes [.arrived data, .act1Processed act1] = data := by
            simp [arrivedBytes]
          have hfed : fedBytes [.arrived data, .act1Processed act1] = [] := rfl
          have hacts : processedActs [.arrived data, .act1Processed act1] = [act1] := rfl
          simp only [Counted, arrivedBytes_append, fedBytes_append, processedActs_append,
            List.length_append, List.map_append, List.sum_append, List.map_cons, List.map_nil,
            List.sum_singleton, List.length_drop, List.length_singleton, List.length_nil,
            harrived, hfed, hacts, List.append_nil, mul_add, mul_one] at counted hlong ⊢
          omega

/-- Bytes are in the buffer that came after a first act, or a second one was processed. -/
def Stained (c : HandshakeConnection) (h : List HandshakeEvent) : Prop :=
  2 ≤ (processedActs h).length ∨ 1 ≤ (processedActs h).length ∧ c.handshakeBuffer ≠ []

/-- Received data, for a connection that is still open and in its handshake. -/
theorem Stained.of_data {kind : Sv2ConnectionKind} {data : Bytes} (hopen : ¬ c.destroyed = true)
    (hcomplete : c.handshakeComplete = false) (hacts : 1 ≤ (processedActs h).length)
    (hbytes : 2 ≤ (processedActs h).length ∨ c.handshakeBuffer ++ data ≠ []) :
    Stained (c.handleSocketData kind data).1 (h ++ (c.handleSocketData kind data).2) := by
  rw [HandshakeConnection.handleSocketData, if_neg hopen, hcomplete, Bool.not_false, if_pos rfl]
  obtain ⟨hkept, -⟩ | ⟨-, processing, hbegin⟩ := handleHandshakeData_cases kind c data
  · rw [hkept]
    have hsame : processedActs (h ++ [.arrived data]) = processedActs h := by
      simp [processedActs]
    rw [Stained, hsame]
    exact hbytes.imp_right fun hne => ⟨hacts, hne⟩
  · rw [hbegin]
    left
    simp only [processedActs, List.filterMap_append, List.length_append] at hacts ⊢
    show 2 ≤ _ + 1
    omega

end

theorem Stained.step {kind : Sv2ConnectionKind} {c : HandshakeConnection}
    {h : List HandshakeEvent} (stained : Stained c h) (input : HandshakeInput) :
    Stained ((handshakeMachine kind).step c input).1
      (h ++ ((handshakeMachine kind).step c input).2) := by
  have hsame : Stained c (h ++ []) := by rwa [List.append_nil]
  cases input with
  | closes => exact hsame
  | rejects i =>
    show Stained (c.reject i) (h ++ [])
    rw [HandshakeConnection.reject]
    split <;> exact hsame
  | resumes i =>
    show Stained (c.resume i).1 (h ++ (c.resume i).2)
    rw [HandshakeConnection.resume]
    split
    · exact hsame
    · exact hsame
    case h_3 remainder _ =>
      obtain ⟨-, hacts, -⟩ :=
        completeHandshake_events { c with suspended := c.suspended.eraseIdx i } remainder
      rw [Stained, processedActs_append, hacts, List.append_nil]
      exact stained
  | data data =>
    show Stained (c.handleSocketData kind data).1 (h ++ (c.handleSocketData kind data).2)
    by_cases hopen : c.destroyed = true
    · rw [HandshakeConnection.handleSocketData, if_pos hopen]
      exact hsame
    · cases hcomplete : c.handshakeComplete with
      | true =>
        rw [HandshakeConnection.handleSocketData, if_neg hopen, hcomplete, Bool.not_true,
          if_neg Bool.false_ne_true]
        have hacts : processedActs (h ++ [.arrived data, .fed data]) = processedActs h := by
          simp [processedActs]
        rw [Stained, hacts]
        exact stained
      | false =>
        obtain htwo | ⟨hone, hne⟩ := stained
        · exact .of_data hopen hcomplete (by omega) (Or.inl htwo)
        · exact .of_data hopen hcomplete hone (Or.inr (by simp [hne]))

/-- A run with bytes at the wrong moment. -/
theorem stained_of_not_quiet (kind : Sv2ConnectionKind) {inputs : List HandshakeInput}
    (hloud : ¬ (handshakeMachine kind).Along QuietHandshake {} [] inputs) :
    Stained ((handshakeMachine kind).final {} inputs)
      ((handshakeMachine kind).history {} inputs) := by
  induction inputs using List.reverseRecOn with
  | nil => exact absurd trivial hloud
  | append_singleton inputs input ih =>
    rw [Machine.final_append, Machine.history_append]
    show Stained ((handshakeMachine kind).step _ input).1
      (_ ++ (((handshakeMachine kind).step _ input).2 ++ []))
    rw [List.append_nil]
    by_cases hquiet : (handshakeMachine kind).Along QuietHandshake {} [] inputs
    · -- The last input is the first one at the wrong moment.
      have hlast : ¬ QuietHandshake ((handshakeMachine kind).final {} inputs) [] input :=
        fun hlast => hloud ((Machine.along_append _).mpr ⟨hquiet, hlast, trivial⟩)
      cases input with
      | data data =>
        simp only [QuietHandshake, not_or] at hlast
        obtain ⟨hopen, hwaits, hne⟩ := hlast
        cases stage_of_quiet kind hquiet with
        | waiting hsuspended => exact absurd hsuspended hwaits
        | givenUp hgone => exact absurd hgone hopen
        | done hsuspended => exact absurd hsuspended hwaits
        | answering await hsuspended hcomplete hbuffer hlong hacts hfed =>
          refine .of_data hopen hcomplete (by rw [hacts]; rfl) (Or.inr ?_)
          rwa [hbuffer, List.nil_append]
      | resumes i | rejects i | closes => exact absurd trivial hlast
    · exact (ih hquiet).step input

/-- In every run without bytes at the wrong moment, the handshake is handed over at every
moment. In a run with such bytes, it is not once the handshake is complete. -/
theorem handover_iff (kind : Sv2ConnectionKind) (inputs : List HandshakeInput) :
    let m := handshakeMachine kind
    (m.Along QuietHandshake {} [] inputs → HandedOver (m.final {} inputs) (m.history {} inputs)) ∧
    ((m.final {} inputs).handshakeComplete = true →
      (HandedOver (m.final {} inputs) (m.history {} inputs) ↔
        m.Along QuietHandshake {} [] inputs)) := by
  intro m
  have hsafe (hquiet : m.Along QuietHandshake {} [] inputs) :
      HandedOver (m.final {} inputs) (m.history {} inputs) :=
    (stage_of_quiet kind hquiet).handedOver
  refine ⟨hsafe, fun hcomplete => ⟨fun handed => ?_, hsafe⟩⟩
  by_contra hloud
  have stained : Stained (m.final {} inputs) (m.history {} inputs) :=
    stained_of_not_quiet kind hloud
  have counted : Counted (m.final {} inputs) (m.history {} inputs) := by
    have hall : m.Along (fun _ _ _ => True) {} [] inputs :=
      m.along_of_forall (fun _ _ _ => trivial) _ _ _
    exact m.history_invariant (fun _ _ input counted _ => counted.step input)
      (show Counted {} [] from Nat.le_refl 0) hall
  obtain ⟨honce, hfed⟩ := handed
  rw [if_pos hcomplete] at hfed
  have hfedLength := congrArg List.length hfed
  rw [List.length_drop] at hfedLength
  by_cases hshort : (arrivedBytes (m.history {} inputs)).length < sv2NoiseAct1Size
  · rw [if_pos hshort] at honce
    simp [Stained, honce] at stained
  · rw [if_neg hshort] at honce
    have hlost : (m.final {} inputs).handshakeBuffer.length ≠ 0 := by
      simpa [Stained, honce] using stained
    rw [Counted, honce, List.length_singleton] at counted
    omega

/-- A byte more than the first act, and it comes with the act. -/
theorem handover_iff_sample :
    let m := handshakeMachine .mining
    let inputs := [.data (List.replicate 60 1), .data [1, 1, 1, 1, 7], .resumes 0, .resumes 0]
    HandedOver (m.final {} inputs) (m.history {} inputs) :=
  (handover_iff .mining [.data (List.replicate 60 1), .data [1, 1, 1, 1, 7], .resumes 0,
    .resumes 0]).1 ⟨Or.inr (Or.inl rfl), Or.inr (Or.inl rfl), trivial, trivial, trivial⟩

/-- A client whose first frame begins while the second act is being written. -/
def pipelined : List HandshakeInput :=
  [.data (List.replicate 64 1), .resumes 0, .data [7], .resumes 0]

/-- A client that sends as much as a second first act. -/
def pipelinedTwice : List HandshakeInput :=
  [.data (List.replicate 64 1), .resumes 0, .data (List.replicate 64 7), .resumes 0]

/-- On a mining connection the first byte after the act is lost, and on the others the bytes
after it are taken for another first act. -/
theorem not_handover :
    ¬ (∀ inputs, HandedOver ((handshakeMachine .mining).final {} inputs)
        ((handshakeMachine .mining).history {} inputs)) ∧
      ¬ (∀ inputs, HandedOver ((handshakeMachine .jobDeclaration).final {} inputs)
        ((handshakeMachine .jobDeclaration).history {} inputs)) ∧
      ¬ (∀ inputs, HandedOver ((handshakeMachine .templateDistribution).final {} inputs)
        ((handshakeMachine .templateDistribution).history {} inputs)) := by
  refine ⟨fun h => ?_, fun h => ?_, fun h => ?_⟩
  · exact absurd (h pipelined).fed (by decide +kernel)
  · exact absurd (h pipelinedTwice).once (by decide +kernel)
  · exact absurd (h pipelinedTwice).once (by decide +kernel)

end PublicPool.Sv2
