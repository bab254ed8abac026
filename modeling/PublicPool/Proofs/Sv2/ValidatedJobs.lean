import PublicPool.Proofs.DeclaredTransactions
import PublicPool.Sv2.JobDeclaration

/-!
# `PublicPool.Proofs.Sv2.ValidatedJobs`: every declared job was validated

A job is declared when all of its transactions are among those of the template, or when the missing
ones were provided and passed the checks. The second way takes two frames, with the node's answer
after them: between them the connection keeps what it asked for, and the test that waits for the node
has the result of the checks. `DeclarationsInv` says so of a state of the server, together with the
registry, which keeps nothing but declared jobs, each under its own token. `DeclarationsInv.step` is
the step, over the list of all jobs that were declared so far.
-/

set_option autoImplicit false

namespace PublicPool.Sv2

/-- The job that an event declares. -/
def JdpEvent.declared? : JdpEvent → Option Sv2DeclaredMiningJob
  | .declareMiningJobSuccess _ declared => some declared
  | _ => none

end PublicPool.Sv2

namespace PublicPool.Proofs

open Sv2

/-- A declared job that was validated against a template. -/
structure Validated (host : Externals) (declared : Sv2DeclaredMiningJob) : Prop where
  validationMode : declared.validationMode = .fullTemplate
  accepted : ∃ latestTemplate template, declared.template = some template ∧
    DeclarationAccepted host latestTemplate declared.job template declared.providedTransactions

/-- A declaration whose missing transactions are asked for. -/
def AskedFor (host : Externals) (pending : PendingDeclaration) : Prop :=
  ∃ latestTemplate, validateDeclaredWtxids host latestTemplate pending.job.version.toNat
    pending.job.wtxidList pending.job.coinbaseTxPrefix
      = .missing pending.template pending.unknownTxPositionList

/-- A test of transactions that were asked for, with the result of the checks before it. -/
structure Checked (host : Externals) (test : MempoolTest) : Prop where
  asked : AskedFor host test.pending
  checked : test.checked = checkProvidedTransactions host test.pending.job.wtxidList
    test.pending.unknownTxPositionList test.transactionList

/-- What a connection remembers of declarations that are not complete. -/
structure ConnectionSound (host : Externals) (connection : JdpConnection) : Prop where
  pending : ∀ requestId, ∀ pending ∈ connection.pendingDeclarations requestId, AskedFor host pending
  tests : ∀ chunk ∈ connection.chunks, ∀ test ∈ chunk.test, Checked host test

/-- The server and the jobs that were declared so far. -/
structure DeclarationsInv (host : Externals) (world : JdpWorld)
    (declared : List Sv2DeclaredMiningJob) : Prop where
  connections : ∀ id, ∀ connection ∈ world.connections id, ConnectionSound host connection
  registry : ∀ token, ∀ job ∈ world.registry.declaredJobs token, job.token = token ∧ job ∈ declared
  validated : ∀ job ∈ declared, Validated host job

section
variable {host : Externals} {config : JdpConfig} {world : JdpWorld} {id : ℕ}
  {connection : JdpConnection} {env : JdpEnv} {declared : List Sv2DeclaredMiningJob}

theorem declarationsInv_initial (tokenTtlMs retentionMs : ℕ) :
    DeclarationsInv host (.initial tokenTtlMs retentionMs) [] where
  connections id connection hconnection := by cases hconnection
  registry token job hjob := by cases hjob
  validated := List.forall_mem_nil _

/-! ### Connections -/

theorem connectionSound_initial (payoutMode : PayoutMode) :
    ConnectionSound host (.initial payoutMode) where
  pending requestId pending hpending := by cases hpending
  tests := List.forall_mem_nil _

theorem ConnectionSound.setPending (h : ConnectionSound host connection) (requestId : UInt32)
    {pending : Option PendingDeclaration} (hpending : ∀ asked ∈ pending, AskedFor host asked) :
    ConnectionSound host (connection.setPending requestId pending) where
  pending requestId' pending' hmem := by
    simp only [JdpConnection.setPending] at hmem
    split at hmem
    · exact hpending pending' hmem
    · exact h.pending requestId' pending' hmem
  tests := h.tests

/-- A chunk is taken from a connection. -/
theorem ConnectionSound.eraseIdx (h : ConnectionSound host connection) (k : ℕ) :
    ConnectionSound host { connection with chunks := connection.chunks.eraseIdx k } where
  pending := h.pending
  tests chunk hchunk := h.tests chunk (List.mem_of_mem_eraseIdx hchunk)

theorem DeclarationsInv.setConnection (h : DeclarationsInv host world declared)
    (hconnection : ConnectionSound host connection) :
    DeclarationsInv host (world.setConnection id connection) declared where
  connections id' connection' hmem := by
    simp only [JdpWorld.setConnection] at hmem
    split at hmem
    · cases hmem
      exact hconnection
    · exact h.connections id' connection' hmem
  registry := h.registry
  validated := h.validated

/-! ### Declarations -/

variable {job : Sv2DeclareMiningJob} {providedTransactions : List Bytes} {token : Bytes} {now : ℕ}
  {test : MempoolTest}

/-- A job that is registered: what it was made of, and where the registry keeps it. -/
theorem registry_declareJob {registry registry' : Sv2JobDeclarationRegistry} {templateId : Option ℕ}
    {template : Option TemplateProviderTemplate} {validationMode : ValidationMode}
    {accepted : Sv2DeclaredMiningJob}
    (h : registry.declareJob job templateId template validationMode providedTransactions token now
      = .ok (registry', accepted)) :
    accepted.job = job ∧ accepted.template = template ∧ accepted.validationMode = validationMode ∧
      accepted.providedTransactions = providedTransactions ∧ accepted.token = token ∧
      ∀ id, registry'.declaredJobs id
        = if id = token then some accepted else (registry.cleanup now).declaredJobs id := by
  unfold Sv2JobDeclarationRegistry.declareJob at h
  dsimp only at h
  split at h
  · cases h
  · simp only [bind, Except.bind, pure, Except.pure] at h
    split at h
    · cases h
    · split at h
      · cases h
        exact ⟨rfl, rfl, rfl, rfl, rfl, fun id => rfl⟩
      · cases h

/-- The registry forgets what has run out. -/
theorem DeclarationsInv.mem_cleanup (h : DeclarationsInv host world declared)
    {job : Sv2DeclaredMiningJob} (hjob : (world.registry.cleanup now).declaredJobs token = some job)
    :
    job.token = token ∧ job ∈ declared := by
  have hkept : (world.registry.declaredJobs token).filter
      (fun entry => decide (now ≤ entry.createdAt + world.registry.tokenTtlMs)) = some job := hjob
  exact h.registry token job (Option.filter_eq_some_iff.mp hkept).1

/-- A job of which everything is known is declared. -/
theorem DeclarationsInv.declareJob (h : DeclarationsInv host world declared)
    (hconnection : ConnectionSound host connection)
    {latestTemplate : Option TemplateProviderTemplate} {template : TemplateProviderTemplate}
    (haccepted : DeclarationAccepted host latestTemplate job template providedTransactions) :
    DeclarationsInv host (world.declareJob id connection env job template providedTransactions).1
      (declared ++ (world.declareJob id connection env job template providedTransactions).2.filterMap
        JdpEvent.declared?) := by
  unfold JdpWorld.declareJob
  split
  · -- the registration throws after the registry has cleaned up
    rw [List.filterMap_cons_none rfl, List.filterMap_nil, List.append_nil]
    refine DeclarationsInv.setConnection ⟨h.connections, ?_, h.validated⟩ hconnection
    exact fun token job hjob => h.mem_cleanup hjob
  · rename_i registry accepted hdeclared
    obtain ⟨hjob, htemplate, hmode, hprovided, htoken, hregistry⟩ := registry_declareJob hdeclared
    show DeclarationsInv host _ (declared ++ [accepted])
    refine DeclarationsInv.setConnection ⟨h.connections, ?_, ?_⟩
      ⟨hconnection.pending, hconnection.tests⟩
    · intro token found hfound
      replace hfound : registry.declaredJobs token = some found := hfound
      rw [hregistry] at hfound
      split at hfound
      · rename_i heq
        cases hfound
        exact ⟨htoken.trans heq.symm, List.mem_append_right _ List.mem_cons_self⟩
      · obtain ⟨hkey, hmem⟩ := h.mem_cleanup hfound
        exact ⟨hkey, List.mem_append_left _ hmem⟩
    · intro found hfound
      rcases List.mem_append.mp hfound with hold | hnew
      · exact h.validated found hold
      · obtain rfl := List.mem_singleton.mp hnew
        refine ⟨hmode, latestTemplate, template, htemplate, ?_⟩
        rw [hjob, hprovided]
        exact haccepted

/-! ### One case for each frame -/

theorem DeclarationsInv.declareMiningJob (h : DeclarationsInv host world declared)
    (hconnection : ConnectionSound host connection) (job : Sv2DeclareMiningJob) :
    DeclarationsInv host (world.declareMiningJob host id connection env job).1
      (declared ++ (world.declareMiningJob host id connection env job).2.filterMap
        JdpEvent.declared?) := by
  unfold JdpWorld.declareMiningJob
  split
  · rw [List.filterMap_cons_none rfl, List.filterMap_nil, List.append_nil]
    exact h
  · split
    · rw [List.filterMap_cons_none rfl, List.filterMap_nil, List.append_nil]
      exact h
    · rename_i template unknownTxPositionList hmissing
      rw [List.filterMap_cons_none rfl, List.filterMap_nil, List.append_nil]
      refine h.setConnection (hconnection.setPending job.requestId fun asked hasked => ?_)
      cases hasked
      exact ⟨_, hmissing⟩
    · rename_i template hvalid
      exact h.declareJob hconnection (.complete hvalid)

/-- The transactions that were asked for come, and wait for the node. -/
theorem checked_provideMissingTransactions (hconnection : ConnectionSound host connection)
    {message : Sv2ProvideMissingTransactionsSuccess}
    (h : (JdpWorld.provideMissingTransactions host connection message).1 = .waits test) :
    Checked host test := by
  unfold JdpWorld.provideMissingTransactions at h
  split at h
  · cases h
  · rename_i pending hpending
    cases h
    exact ⟨hconnection.pending _ pending hpending, rfl⟩

theorem DeclarationsInv.resumeProvided (h : DeclarationsInv host world declared)
    (hconnection : ConnectionSound host connection) (htest : Checked host test) :
    DeclarationsInv host (world.resumeProvided id connection env test).1
      (declared ++ (world.resumeProvided id connection env test).2.filterMap
        JdpEvent.declared?) := by
  have hforgotten : ConnectionSound host (connection.setPending test.requestId none) :=
    hconnection.setPending test.requestId fun asked hasked => by cases hasked
  unfold JdpWorld.resumeProvided
  dsimp only
  split
  · rw [List.filterMap_cons_none rfl, List.filterMap_nil, List.append_nil]
    exact h.setConnection hforgotten
  · rename_i hpassed
    -- the checks found no error either
    have hchecked : test.checked = none := (Option.or_eq_none_iff.mp hpassed).1
    obtain ⟨latestTemplate, hmissing⟩ := htest.asked
    exact h.declareJob hforgotten (.provided hmissing (htest.checked.symm.trans hchecked))

/-- A push declares nothing. -/
theorem declared?_pushSolution (solution : Sv2PushSolution) :
    (world.pushSolution host id connection env solution).2.filterMap JdpEvent.declared? = [] := by
  refine List.filterMap_eq_nil_iff.mpr fun event hevent => ?_
  obtain ⟨call, -, hpushed⟩ := List.mem_flatMap.mp hevent
  obtain ⟨declared, -, rfl⟩ := Option.map_eq_some_iff.mp (Option.mem_toList.mp hpushed)
  rfl

theorem ConnectionSound.rememberSolution (h : ConnectionSound host connection)
    (templates : TemplateProviderService) (solution : Sv2PushSolution) (now : ℕ) :
    ConnectionSound host (connection.rememberSolution host templates solution now) := by
  unfold JdpConnection.rememberSolution
  split
  · exact ⟨h.pending, h.tests⟩
  · exact h

theorem DeclarationsInv.handleFrame (h : DeclarationsInv host world declared)
    (hconnection : ConnectionSound host connection) (message : JdpMessage) :
    DeclarationsInv host (world.handleFrame host config id connection env message).1
        (declared ++ (world.handleFrame host config id connection env message).2.2.filterMap
          JdpEvent.declared?) ∧
      ∀ test, (world.handleFrame host config id connection env message).2.1 = .waits test →
        Checked host test := by
  cases message with
  | setupConnection message =>
    refine ⟨?_, fun test hwaits => by cases hwaits⟩
    simp only [JdpWorld.handleFrame, JdpConnection.handleSetupConnection]
    split
    · rw [List.filterMap_cons_none rfl, List.filterMap_nil, List.append_nil]
      exact h.setConnection ⟨hconnection.pending, hconnection.tests⟩
    · rw [List.filterMap_cons_none rfl, List.filterMap_nil, List.append_nil]
      exact h.setConnection ⟨hconnection.pending, hconnection.tests⟩
  | allocateMiningJobToken message =>
    simp only [JdpWorld.handleFrame, JdpWorld.allocateMiningJobToken]
    split
    · refine ⟨?_, fun test hwaits => by cases hwaits⟩
      rw [List.filterMap_nil, List.append_nil]
      exact h
    · refine ⟨?_, fun test hwaits => by cases hwaits⟩
      rw [List.filterMap_cons_none rfl, List.filterMap_nil, List.append_nil]
      exact ⟨h.connections, fun token job hjob => h.mem_cleanup hjob, h.validated⟩
  | declareMiningJob job =>
    exact ⟨h.declareMiningJob hconnection job, fun test hwaits => by cases hwaits⟩
  | provideMissingTransactionsSuccess message =>
    refine ⟨?_, fun test hwaits => checked_provideMissingTransactions hconnection hwaits⟩
    simp only [JdpWorld.handleFrame, JdpWorld.provideMissingTransactions]
    split
    · rw [List.filterMap_cons_none rfl, List.filterMap_nil, List.append_nil]
      exact h
    · rw [List.filterMap_nil, List.append_nil]
      exact h
  | pushSolution solution =>
    refine ⟨?_, fun test hwaits => by cases hwaits⟩
    simp only [JdpWorld.handleFrame]
    rw [declared?_pushSolution, List.append_nil]
    exact h.setConnection (hconnection.rememberSolution _ solution env.now)
  | malformed =>
    refine ⟨?_, fun test hwaits => by cases hwaits⟩
    simp only [JdpWorld.handleFrame]
    rw [List.filterMap_nil, List.append_nil]
    exact h

/-! ### One step -/

theorem DeclarationsInv.endTurn (h : DeclarationsInv host world declared) (next : JdpNext)
    (frames : List JdpMessage) (hnext : ∀ test, next = .waits test → Checked host test) :
    DeclarationsInv host (world.endTurn id next frames) declared := by
  unfold JdpWorld.endTurn
  split
  · exact h
  · rename_i connection hconnection
    have hsound := h.connections id connection hconnection
    refine h.setConnection ⟨hsound.pending, fun chunk hchunk test htest => ?_⟩
    rcases List.mem_append.mp hchunk with hold | hnew
    · exact hsound.tests chunk hold test htest
    · cases next with
      | returns =>
        simp only [JdpNext.chunk] at hnew
        split at hnew
        · cases hnew
        · cases List.mem_singleton.mp hnew
          cases htest
      | waits test' =>
        cases List.mem_singleton.mp hnew
        cases htest
        exact hnext test rfl
      | throws => cases hnew

theorem DeclarationsInv.runChunk (h : DeclarationsInv host world declared)
    (hconnection : ConnectionSound host connection) {chunk : JdpChunk}
    (hchunk : ∀ test ∈ chunk.test, Checked host test) :
    DeclarationsInv host (world.runChunk host config id connection env chunk).1
      (declared ++ (world.runChunk host config id connection env chunk).2.filterMap
        JdpEvent.declared?) := by
  unfold JdpWorld.runChunk
  split
  · rename_i test htest
    exact (h.resumeProvided hconnection (hchunk test htest)).endTurn .returns chunk.frames
      fun test' hwaits => by cases hwaits
  · split
    · rw [List.filterMap_nil, List.append_nil]
      exact h
    · rename_i message frames _
      have hframe := @DeclarationsInv.handleFrame host config world id connection env declared h
        hconnection message
      exact hframe.1.endTurn _ frames hframe.2

/-- A step declares validated jobs only, and the registry keeps those that were declared. -/
theorem DeclarationsInv.step (h : DeclarationsInv host world declared) (input : JdpInput) :
    DeclarationsInv host (jdpStep host config world input).1
      (declared ++ (jdpStep host config world input).2.filterMap fun event =>
        event.2.declared?) := by
  have hidle : DeclarationsInv host world (declared ++ []) := by
    rw [List.append_nil]
    exact h
  cases input with
  | connect id payoutMode =>
    simp only [jdpStep]
    split
    · rw [List.filterMap_nil, List.append_nil]
      exact h.setConnection (connectionSound_initial payoutMode)
    · exact hidle
  | disconnect id =>
    simp only [jdpStep]
    split
    · exact hidle
    · rename_i connection hconnection
      have hsound := h.connections id connection hconnection
      rw [List.filterMap_nil, List.append_nil]
      exact h.setConnection ⟨hsound.pending, hsound.tests⟩
  | template jobTemplate now =>
    simp only [jdpStep]
    rw [List.filterMap_nil, List.append_nil]
    exact ⟨h.connections, h.registry, h.validated⟩
  | data id frames =>
    simp only [jdpStep]
    split
    · exact hidle
    · rename_i connection hconnection
      have hsound := h.connections id connection hconnection
      split
      · exact hidle
      · rw [List.filterMap_nil, List.append_nil]
        refine h.setConnection ⟨hsound.pending, fun chunk hchunk test htest => ?_⟩
        rcases List.mem_append.mp hchunk with hold | hnew
        · exact hsound.tests chunk hold test htest
        · cases List.mem_singleton.mp hnew
          cases htest
  | resume id k env =>
    simp only [jdpStep]
    split
    · exact hidle
    · rename_i connection hconnection
      split
      · exact hidle
      · rename_i chunk hchunk
        have hsound := h.connections id connection hconnection
        have htaken := hsound.eraseIdx k
        dsimp only
        rw [List.filterMap_map]
        exact (h.setConnection htaken).runChunk htaken
          (hsound.tests chunk (List.mem_of_getElem? hchunk))

end

end PublicPool.Proofs
