import PublicPool.Proofs.Sv2.FoundBlock
import PublicPool.Sv2.JobDeclaration

/-!
# `PublicPool.Proofs.Sv2.PushedSolutions`: the block of a pushed solution

A miner solves the header of one of its declared jobs and pushes the solution, which names no job.
The server takes it for one of the job that the connection declared last, and takes the previous
hash from that job's template. So the block that goes to the node has the solved header when the
solution is for the job declared last, or one with the same work, and for the tip of its template:
`submits_mined` says this of every push of a run.

Which solutions were found on which jobs is up to the miner, so it is a parameter here.
-/

set_option autoImplicit false

namespace PublicPool.Proofs

open Sv2
open Lib (Machine Handler)

/-! ### What the miner solved -/

section
variable (host : Externals)

/-- The merkle root of a declared job's coinbase, with the extranonce of a solution, and its
transactions. -/
def minedRoot (mined : Sv2DeclaredMiningJob) (solution : Sv2PushSolution) : Option Digest := do
  let map ← buildDeclaredTransactionMap host (← mined.template) mined.providedTransactions
  let coinbase ← host.fromBuffer
    (mined.job.coinbaseTxPrefix ++ solution.extranonce ++ mined.job.coinbaseTxSuffix)
  let transactions ← declaredTransactions host map mined.job.wtxidList
  return calculateMerkleRoot host (coinbase :: transactions)

/-- The header that a miner solved on a declared job. -/
def minedHeader (mined : Sv2DeclaredMiningJob) (solution : Sv2PushSolution) : Option Bytes := do
  let root ← minedRoot host mined solution
  blockHeaderBytes solution.version.toNat solution.prevHash root (some solution.ntime.toNat)
    (some solution.nBits.toNat) (some solution.nonce.toNat)

end

/-- Two declarations of the same work. -/
structure SameWork (declared mined : Sv2DeclaredMiningJob) : Prop where
  template : declared.template = mined.template
  providedTransactions : declared.providedTransactions = mined.providedTransactions
  coinbaseTxPrefix : declared.job.coinbaseTxPrefix = mined.job.coinbaseTxPrefix
  coinbaseTxSuffix : declared.job.coinbaseTxSuffix = mined.job.coinbaseTxSuffix
  wtxidList : declared.job.wtxidList = mined.job.wtxidList

theorem minedHeader_congr {host : Externals} {declared mined : Sv2DeclaredMiningJob}
    (h : SameWork declared mined) (solution : Sv2PushSolution) :
    minedHeader host declared solution = minedHeader host mined solution := by
  simp only [minedHeader, minedRoot, h.template, h.providedTransactions, h.coinbaseTxPrefix,
    h.coinbaseTxSuffix, h.wtxidList]

/-! ### The block that is submitted -/

section
variable {host : Externals} {templates : TemplateProviderService} {connection : JdpConnection}
  {solution : Sv2PushSolution} {now : ℕ}

variable {block : SolvedBlock} {blockHex : Bytes}

variable {declared : Sv2DeclaredMiningJob} {template : TemplateProviderTemplate}

/-- What an accepted solution says of the job that it was taken for. -/
theorem judgePushSolution_accepted (h : connection.judgePushSolution host templates solution now
      = .accepted declared template block blockHex) :
    connection.latestDeclaredJob = some declared ∧
      declared.templateOr templates now = some template ∧
      buildBlockFromDeclaredJobSolution host template declared.job declared.providedTransactions
        solution = some block ∧
      block.toHex host = some blockHex := by
  unfold JdpConnection.judgePushSolution at h
  split at h
  · cases h
  rename_i declared' hlatest
  split at h
  · cases h
  split at h
  · cases h
  rename_i template' htemplate
  unfold judgeSolvedBlock at h
  split at h
  · cases h
  rename_i block' hblock
  dsimp only at h
  split at h
  · cases h
  split at h
  · cases h
  rename_i blockHex' hhex
  simp only [PushVerdict.accepted.injEq] at h
  obtain ⟨rfl, rfl, rfl, rfl⟩ := h
  exact ⟨hlatest, htemplate, hblock, hhex⟩

/-- A push submits a block only when the solution is accepted. -/
theorem submitBlock_mem_handlePushSolution {result : Option String} {fails : SideEffect → Bool}
    (h : .submitBlock blockHex ∈
      (connection.handlePushSolution host templates solution now result).calls fails) :
    ∃ declared template block, connection.judgePushSolution host templates solution now
      = .accepted declared template block blockHex := by
  unfold JdpConnection.handlePushSolution at h
  split at h
  · rename_i declared template block blockHex' haccepted
    obtain rfl : blockHex = blockHex' := submitBlock_mem_reportBlock.mp h
    exact ⟨declared, template, block, haccepted⟩
  · simp at h

theorem length_blockHeaderBytes {version : ℤ} {prevHash : Bytes} {merkleRoot : Digest}
    {timestamp bits nonce : Option ℤ} {header : Bytes}
    (h : blockHeaderBytes version prevHash merkleRoot timestamp bits nonce = some header) :
    header.length = 80 := by
  rw [← blockHeaderBytes_eq_some h]
  exact length_headerBytes _

/-- The first bytes of a block are its header. -/
theorem take_toHex (h : block.toHex host = some blockHex) :
    block.header host = some (blockHex.take 80) := by
  simp only [SolvedBlock.toHex, Option.bind_eq_bind, Option.bind_eq_some_iff, Option.pure_def,
    Option.some.injEq] at h
  obtain ⟨header, hheader, rfl⟩ := h
  have hlength : header.length = 80 := length_blockHeaderBytes hheader
  rw [hheader, blockBytes, List.append_assoc, List.take_append_of_le_length (by omega),
    List.take_of_length_le (by omega)]

/-- The header of a job's block: the root of the job, and the tip of its template. -/
theorem header_of_solution (htemplate : declared.template = some template)
    (hblock : buildBlockFromDeclaredJobSolution host template declared.job
      declared.providedTransactions solution = some block) :
    ∃ root, minedRoot host declared solution = some root ∧
      block.header host = blockHeaderBytes solution.version.toNat template.prevHash root
        (some solution.ntime.toNat) (some solution.nBits.toNat) (some solution.nonce.toNat) := by
  simp only [buildBlockFromDeclaredJobSolution, Option.bind_eq_bind, Option.bind_eq_some_iff,
    Option.pure_def, Option.some.injEq] at hblock
  obtain ⟨map, hmap, coinbase, hcoinbase, transactions, htransactions, rfl⟩ := hblock
  refine ⟨calculateMerkleRoot host (coinbase :: transactions), ?_, rfl⟩
  simp [minedRoot, htemplate, hmap, hcoinbase, htransactions, -List.append_assoc]

end

/-! ### The steps of the server -/

section
variable {host : Externals} {config : JdpConfig} {world : JdpWorld} {input : JdpInput}

/-- The push that a step handles, with the connection it comes from. -/
def pushedBy (world : JdpWorld) : JdpInput → Option (ℕ × JdpConnection × Sv2PushSolution)
  | .resume id k _ =>
    match world.connections id with
    | none => none
    | some connection =>
      match connection.chunks[k]? with
      | some { test := none, frames := .pushSolution solution :: _ } =>
        some (id, connection, solution)
      | _ => none
  | _ => none

variable {id : ℕ} {declared : Sv2DeclaredMiningJob}

variable {connection : JdpConnection} {env : JdpEnv} {job : Sv2DeclareMiningJob}
  {template : TemplateProviderTemplate} {providedTransactions : List Bytes} {requestId : UInt32}
  {solution : Sv2PushSolution} {call : SubmitCall}

/-- A declared job has the template it was declared for. -/
theorem template_of_declareJob (h : .declareMiningJobSuccess requestId declared ∈
      (world.declareJob id connection env job template providedTransactions).2) :
    declared.template = some template := by
  unfold JdpWorld.declareJob at h
  split at h
  · simp at h
  · rename_i registry declared' hdeclared
    have heq : declared = declared' := by
      simp only [List.mem_singleton, JdpEvent.declareMiningJobSuccess.injEq] at h
      exact h.2
    rw [heq]
    unfold Sv2JobDeclarationRegistry.declareJob at hdeclared
    dsimp only at hdeclared
    split at hdeclared
    · cases hdeclared
    · simp only [bind, Except.bind, pure, Except.pure] at hdeclared
      split at hdeclared
      · cases hdeclared
      · split at hdeclared
        · cases hdeclared
          rfl
        · cases hdeclared

/-- What a step emits comes from the handler of one frame, or from one that was waiting. -/
theorem mem_step_resume {event : JdpEvent} (h : (id, event) ∈ (jdpStep host config world input).2) :
    ∃ k env connection chunk, input = .resume id k env ∧ world.connections id = some connection ∧
      connection.chunks[k]? = some chunk ∧
      event ∈ ((world.setConnection id { connection with
        chunks := connection.chunks.eraseIdx k }).runChunk host config id
          { connection with chunks := connection.chunks.eraseIdx k } env chunk).2 := by
  cases input with
  | resume id' k env =>
    cases hconnection : world.connections id' with
    | none => simp [jdpStep, hconnection] at h
    | some connection =>
      cases hchunk : connection.chunks[k]? with
      | none => simp [jdpStep, hconnection, hchunk] at h
      | some chunk =>
        simp only [jdpStep, hconnection, hchunk, List.mem_map, Prod.mk.injEq] at h
        obtain ⟨event', hevent, rfl, rfl⟩ := h
        exact ⟨k, env, connection, chunk, rfl, hconnection, hchunk, hevent⟩
  | connect id' payoutMode =>
    cases hconnection : world.connections id' <;> simp [jdpStep, hconnection] at h
  | disconnect id' =>
    cases hconnection : world.connections id' <;> simp [jdpStep, hconnection] at h
  | template jobTemplate now => simp [jdpStep] at h
  | data id' frames =>
    cases hconnection : world.connections id' with
    | none => simp [jdpStep, hconnection] at h
    | some connection =>
      cases hdestroyed : connection.destroyed <;> simp [jdpStep, hconnection, hdestroyed] at h

/-- Every job that is accepted has a template. -/
theorem template_of_accepted (h : (id, .declareMiningJobSuccess requestId declared)
      ∈ (jdpStep host config world input).2) : ∃ template, declared.template = some template := by
  obtain ⟨k, env, connection, chunk, -, -, -, hevent⟩ := mem_step_resume h
  unfold JdpWorld.runChunk at hevent
  split at hevent
  · -- The job waited for the node's answer.
    unfold JdpWorld.resumeProvided at hevent
    dsimp only at hevent
    split at hevent
    · simp at hevent
    · exact ⟨_, template_of_declareJob hevent⟩
  · split at hevent
    · simp at hevent
    · rename_i message frames _
      cases message with
      | setupConnection message =>
        simp only [JdpWorld.handleFrame, JdpConnection.handleSetupConnection] at hevent
        split at hevent <;> simp at hevent
      | allocateMiningJobToken message =>
        simp only [JdpWorld.handleFrame, JdpWorld.allocateMiningJobToken] at hevent
        split at hevent <;> simp at hevent
      | declareMiningJob job =>
        simp only [JdpWorld.handleFrame, JdpWorld.declareMiningJob] at hevent
        split at hevent
        · simp at hevent
        · split at hevent
          · simp at hevent
          · simp at hevent
          · exact ⟨_, template_of_declareJob hevent⟩
      | provideMissingTransactionsSuccess message =>
        simp only [JdpWorld.handleFrame, JdpWorld.provideMissingTransactions] at hevent
        split at hevent <;> simp at hevent
      | pushSolution solution =>
        simp only [JdpWorld.handleFrame, JdpWorld.pushSolution, List.mem_flatMap,
          Option.mem_toList, Option.map_eq_some_iff] at hevent
        obtain ⟨call, -, declared', -, heq⟩ := hevent
        cases heq
      | malformed => simp [JdpWorld.handleFrame] at hevent

/-- A declared job sends no call of a push. -/
theorem pushed_notMem_declareJob :
    .pushed solution declared call ∉
      (world.declareJob id connection env job template providedTransactions).2 := by
  unfold JdpWorld.declareJob
  split <;> simp

/-- A call of a push comes from the step that handles it, for the job declared last. -/
theorem mem_step_pushed
    (h : (id, .pushed solution declared call) ∈ (jdpStep host config world input).2) :
    ∃ (k : ℕ) (env : JdpEnv) (connection : JdpConnection), input = .resume id k env ∧
      world.connections id = some connection ∧ connection.latestDeclaredJob = some declared ∧
      pushedBy world input = some (id, connection, solution) ∧
      call ∈ (({ connection with chunks := connection.chunks.eraseIdx k } :
        JdpConnection).handlePushSolution host world.templates solution env.now env.result).calls
          env.fails := by
  obtain ⟨k, env, connection, chunk, rfl, hconnection, hchunk, hevent⟩ := mem_step_resume h
  unfold JdpWorld.runChunk at hevent
  split at hevent
  · unfold JdpWorld.resumeProvided at hevent
    dsimp only at hevent
    split at hevent
    · simp at hevent
    · exact absurd hevent pushed_notMem_declareJob
  · rename_i htest
    split at hevent
    · simp at hevent
    · rename_i message frames hframes
      have hhead : chunk = { test := none, frames := message :: frames } := by
        cases chunk
        simp_all
      cases message with
      | setupConnection message =>
        simp only [JdpWorld.handleFrame, JdpConnection.handleSetupConnection] at hevent
        split at hevent <;> simp at hevent
      | allocateMiningJobToken message =>
        simp only [JdpWorld.handleFrame, JdpWorld.allocateMiningJobToken] at hevent
        split at hevent <;> simp at hevent
      | declareMiningJob job =>
        simp only [JdpWorld.handleFrame, JdpWorld.declareMiningJob] at hevent
        split at hevent
        · simp at hevent
        · split at hevent
          · simp at hevent
          · simp at hevent
          · exact absurd hevent pushed_notMem_declareJob
      | provideMissingTransactionsSuccess message =>
        simp only [JdpWorld.handleFrame, JdpWorld.provideMissingTransactions] at hevent
        split at hevent <;> simp at hevent
      | pushSolution solution' =>
        simp only [JdpWorld.handleFrame, JdpWorld.pushSolution, List.mem_flatMap,
          Option.mem_toList, Option.map_eq_some_iff] at hevent
        obtain ⟨call', hcall, declared', hlatest, heq⟩ := hevent
        simp only [JdpEvent.pushed.injEq] at heq
        obtain ⟨rfl, rfl, rfl⟩ := heq
        refine ⟨k, env, connection, rfl, hconnection, hlatest, ?_, hcall⟩
        simp [pushedBy, hconnection, hchunk, hhead]
      | malformed => simp [JdpWorld.handleFrame] at hevent

end

/-! ### Runs of the server -/

section
variable (host : Externals) (config : JdpConfig)
  (found : Sv2DeclaredMiningJob → Sv2PushSolution → Prop)

/-- A block that a step submits for a solution has the header that was solved, whichever job of
the connection the solution was found on. -/
def SubmitsMined (world : JdpWorld) (history : List (ℕ × JdpEvent)) (input : JdpInput) : Prop :=
  ∀ id solution declared blockHex,
    (id, .pushed solution declared (.submitBlock blockHex))
      ∈ (jdpStep host config world input).2 →
    ∀ requestId mined, (id, .declareMiningJobSuccess requestId mined) ∈ history →
      found mined solution → minedHeader host mined solution = some (blockHex.take 80)

/-- A solution that is pushed was found on the job that the connection declared last, or on one
with the same work, and for the tip of its template. -/
def PushesLatest (world : JdpWorld) (history : List (ℕ × JdpEvent)) (input : JdpInput) : Prop :=
  ∀ id connection solution, pushedBy world input = some (id, connection, solution) →
    ∀ requestId mined, (id, .declareMiningJobSuccess requestId mined) ∈ history →
      found mined solution →
      (∀ declared ∈ connection.latestDeclaredJob, SameWork declared mined) ∧
        ∀ template ∈ mined.template, template.prevHash = solution.prevHash

/-- Every job accepted so far has a template. -/
def AcceptedHaveTemplates (_ : JdpWorld) (history : List (ℕ × JdpEvent)) : Prop :=
  ∀ id requestId declared, (id, JdpEvent.declareMiningJobSuccess requestId declared) ∈ history →
    ∃ template, declared.template = some template

variable {host config found}

theorem AcceptedHaveTemplates.step {world : JdpWorld} {history : List (ℕ × JdpEvent)}
    (h : AcceptedHaveTemplates world history) (input : JdpInput) :
    AcceptedHaveTemplates (jdpStep host config world input).1
      (history ++ (jdpStep host config world input).2) := by
  intro id requestId declared hmem
  rcases List.mem_append.mp hmem with hbefore | hnow
  · exact h id requestId declared hbefore
  · exact template_of_accepted hnow

/-- One step: the block has the root of the job declared last and the tip of its template, which
are those of the job the solution was found on. -/
theorem submitsMined_of_pushesLatest {world : JdpWorld} {history : List (ℕ × JdpEvent)}
    {input : JdpInput} (h : AcceptedHaveTemplates world history)
    (hpushes : PushesLatest found world history input) :
    SubmitsMined host config found world history input := by
  intro id solution declared blockHex hevent requestId mined hmined hfound
  obtain ⟨k, env, connection, -, -, -, hpushed, hcall⟩ := mem_step_pushed hevent
  obtain ⟨declared', template, block, haccepted⟩ := submitBlock_mem_handlePushSolution hcall
  obtain ⟨hlatest, htemplate, hblock, hhex⟩ := judgePushSolution_accepted haccepted
  obtain ⟨hsame, htip⟩ := hpushes id connection solution hpushed requestId mined hmined hfound
  have hwork : SameWork declared' mined := hsame declared' hlatest
  obtain ⟨minedTemplate, hminedTemplate⟩ := h id requestId mined hmined
  have hown : declared'.template = some minedTemplate := hwork.template.trans hminedTemplate
  have heq : template = minedTemplate := by
    rw [Sv2DeclaredMiningJob.templateOr, hown, Option.some_or] at htemplate
    exact (Option.some.inj htemplate).symm
  rw [heq] at hblock
  obtain ⟨root, hroot, hheader⟩ := header_of_solution hown hblock
  rw [htip minedTemplate hminedTemplate, take_toHex hhex] at hheader
  rw [← minedHeader_congr hwork, minedHeader, hroot]
  exact hheader.symm

end

/-- **The block of a pushed solution.** In a run of the job declaration server, with any number of
connections and any order of their frames and answers: while each solution is pushed for the work
that its connection declared last, and for the tip of that work's template, every block that goes
to the node has the header that the miner solved. -/
theorem submits_mined (host : Externals) (config : JdpConfig)
    (found : Sv2DeclaredMiningJob → Sv2PushSolution → Prop) (tokenTtlMs retentionMs : ℕ)
    (inputs : List JdpInput)
    (hpushes : (jdpMachine host config).Along (PushesLatest found)
      (.initial tokenTtlMs retentionMs) [] inputs) :
    (jdpMachine host config).Along (SubmitsMined host config found)
      (.initial tokenTtlMs retentionMs) [] inputs := by
  have hstart : AcceptedHaveTemplates (.initial tokenTtlMs retentionMs) [] :=
    fun _ _ _ hmem => absurd hmem List.not_mem_nil
  refine @Machine.along_of_invariant _ _ _ (jdpMachine host config) AcceptedHaveTemplates
    (PushesLatest found) (SubmitsMined host config found) ?_ _ _ hstart inputs hpushes
  intro world history input h hpush
  exact ⟨submitsMined_of_pushesLatest h hpush, h.step input⟩

/-! ### A solution for the job before -/

deriving instance DecidableEq for TemplateProviderTemplate

instance (declared mined : Sv2DeclaredMiningJob) : Decidable (SameWork declared mined) :=
  decidable_of_iff (declared.template = mined.template ∧
      declared.providedTransactions = mined.providedTransactions ∧
      declared.job.coinbaseTxPrefix = mined.job.coinbaseTxPrefix ∧
      declared.job.coinbaseTxSuffix = mined.job.coinbaseTxSuffix ∧
      declared.job.wtxidList = mined.job.wtxidList)
    ⟨fun h => ⟨h.1, h.2.1, h.2.2.1, h.2.2.2.1, h.2.2.2.2⟩,
      fun h => ⟨h.template, h.providedTransactions, h.coinbaseTxPrefix, h.coinbaseTxSuffix,
        h.wtxidList⟩⟩

/-- The job that an event accepts, and its connection. -/
def declaredBy : ℕ × JdpEvent → Option (ℕ × Sv2DeclaredMiningJob)
  | (id, .declareMiningJobSuccess _ declared) => some (id, declared)
  | _ => none

/-- The block that an event submits, with its solution and connection. -/
def submittedBlock : ℕ × JdpEvent → Option (ℕ × Sv2PushSolution × Bytes)
  | (id, .pushed solution _ (.submitBlock blockHex)) => some (id, solution, blockHex)
  | _ => none

theorem declaredBy_eq_some {event : ℕ × JdpEvent} {id : ℕ} {declared : Sv2DeclaredMiningJob} :
    declaredBy event = some (id, declared) ↔
      ∃ requestId, event = (id, .declareMiningJobSuccess requestId declared) := by
  unfold declaredBy
  split
  · simp
  · rename_i hother
    simp only [reduceCtorEq, false_iff, not_exists]
    rintro requestId rfl
    exact hother id requestId declared rfl

theorem submittedBlock_eq_some {event : ℕ × JdpEvent} {id : ℕ} {solution : Sv2PushSolution}
    {blockHex : Bytes} :
    submittedBlock event = some (id, solution, blockHex) ↔
      ∃ declared, event = (id, .pushed solution declared (.submitBlock blockHex)) := by
  unfold submittedBlock
  split
  · simp
  · rename_i hother
    simp only [reduceCtorEq, false_iff, not_exists]
    rintro declared rfl
    exact hother id solution declared blockHex rfl

section
variable {host : Externals} {config : JdpConfig}
  {found : Sv2DeclaredMiningJob → Sv2PushSolution → Prop}
  [∀ mined solution, Decidable (found mined solution)]

instance (world : JdpWorld) (history : List (ℕ × JdpEvent)) (input : JdpInput) :
    Decidable (PushesLatest found world history input) :=
  decidable_of_iff (∀ push ∈ pushedBy world input, ∀ event ∈ history,
      ∀ accepted ∈ declaredBy event, accepted.1 = push.1 → found accepted.2 push.2.2 →
        (∀ declared ∈ push.2.1.latestDeclaredJob, SameWork declared accepted.2) ∧
          ∀ template ∈ accepted.2.template, template.prevHash = push.2.2.prevHash) <| by
    constructor
    · intro h id connection solution hpush requestId mined hmined hfound
      exact h _ hpush _ hmined (id, mined) rfl rfl hfound
    · rintro h ⟨id, connection, solution⟩ hpush event hevent ⟨id', mined⟩ haccepted rfl hfound
      obtain ⟨requestId, rfl⟩ := declaredBy_eq_some.mp haccepted
      exact h _ connection solution hpush requestId mined hevent hfound

instance (world : JdpWorld) (history : List (ℕ × JdpEvent)) (input : JdpInput) :
    Decidable (SubmitsMined host config found world history input) :=
  decidable_of_iff (∀ event ∈ (jdpStep host config world input).2,
      ∀ submitted ∈ submittedBlock event, ∀ earlier ∈ history,
        ∀ accepted ∈ declaredBy earlier, accepted.1 = submitted.1 →
          found accepted.2 submitted.2.1 →
            minedHeader host accepted.2 submitted.2.1 = some (submitted.2.2.take 80)) <| by
    constructor
    · intro h id solution declared blockHex hevent requestId mined hmined hfound
      exact h _ hevent (id, solution, blockHex) rfl _ hmined (id, mined) rfl rfl hfound
    · rintro h event hevent ⟨id, solution, blockHex⟩ hsubmitted earlier hearlier ⟨id', mined⟩
        haccepted rfl hfound
      obtain ⟨requestId, rfl⟩ := declaredBy_eq_some.mp haccepted
      obtain ⟨declared, rfl⟩ := submittedBlock_eq_some.mp hsubmitted
      exact h _ solution declared blockHex hevent requestId mined hearlier hfound

end

namespace PushSample

/-- A host whose hash tells the coinbases below apart. -/
def host : Externals :=
  Externals.reference
    (fun b => Digest.ofNat (b.foldl (fun n x => (n * 257 + x.toNat + 1) % 2 ^ 200) 0))
    [("A", 0x00 :: 0x14 :: List.replicate 20 1)]

def config : JdpConfig where
  network := .mainnet
  poolPayoutAddress := "A"

def template : JobTemplate where
  block :=
    { version := 0x20000000
      prevHash := List.replicate 32 7
      bits := 0x17034219
      timestamp := 1700000000
      witnessCommit := []
      transactions := [] }
  merkleBranch := []
  blockData :=
    { id := "1"
      creation := 0
      coinbasevalue := 5000000000
      networkDifficulty := some 1
      height := 800000
      clearJobs := true
      payoutSnapshotId := none
      payoutOutputs := none
      transactions := []
      sigoplimit := none
      sizelimit := none
      weightlimit := none }

/-- A job that pays `A` the given value, with room for eight bytes of extranonce. -/
def job (value : ℤ) : Sv2DeclareMiningJob where
  requestId := 1
  miningJobToken := [1]
  version := 0x20000000
  coinbaseTxPrefix := putLE 4 1 ++ [1] ++ List.replicate 32 0 ++ List.replicate 4 0xff ++
    [12, 3] ++ putLE 3 800000
  coinbaseTxSuffix := List.replicate 4 0xff ++ [1] ++ putLE 8 value ++
    [22, 0x00, 0x14] ++ List.replicate 20 1 ++ List.replicate 4 0
  wtxidList := []

def solution : Sv2PushSolution where
  extranonce := List.replicate 8 5
  prevHash := List.replicate 32 7
  nonce := 9
  ntime := 1700000100
  nBits := 0x17034219
  version := 0x20000000

/-- The environment of a step that draws the token with one byte. -/
def env (token : UInt8) : JdpEnv where
  now := 1
  token := [token]
  mempoolError := none
  result := some "SUCCESS!"
  fails _ := false

/-- A miner declares the jobs that pay the given values, and pushes the solution. -/
def inputs (values : List ℤ) : List JdpInput :=
  [.template template 0, .connect 0 .solo,
    .data 0 ([.setupConnection { protocol := 1, minVersion := 2, maxVersion := 2, flags := 1 },
      .allocateMiningJobToken { userIdentifier := "A.rig", requestId := 0 }] ++
      values.map (fun value => .declareMiningJob (job value)) ++ [.pushSolution solution])] ++
    (List.range (values.length + 3)).map fun n => .resume 0 0 (env (UInt8.ofNat n))

/-- The solution was found on the job that pays all of the reward. -/
def found (mined : Sv2DeclaredMiningJob) (_ : Sv2PushSolution) : Prop :=
  mined.job = job 5000000000

instance (mined : Sv2DeclaredMiningJob) (solution : Sv2PushSolution) :
    Decidable (found mined solution) :=
  inferInstanceAs (Decidable (mined.job = job 5000000000))

/-- A block is submitted. -/
def submitsBlock (history : List (ℕ × JdpEvent)) : Bool :=
  history.any fun event => (submittedBlock event).isSome

end PushSample

open PushSample in
/-- The miner declares one job and solves it. -/
theorem submits_mined_sample :
    submitsBlock ((jdpMachine host config).history (.initial 1000 1000) (inputs [5000000000])) ∧
      (jdpMachine host config).Along (SubmitsMined host config PushSample.found)
        (.initial 1000 1000) [] (inputs [5000000000]) :=
  ⟨by decide +kernel,
    submits_mined host config PushSample.found 1000 1000 (inputs [5000000000]) (by decide +kernel)⟩

open PushSample in
/-- Another job was accepted when the solution of the first one is pushed: the block that is
submitted is one of the other job, with a header that nobody solved. -/
theorem not_submits_mined :
    submitsBlock
        ((jdpMachine host config).history (.initial 1000 1000) (inputs [5000000000, 0])) ∧
      ¬ (jdpMachine host config).Along (SubmitsMined host config PushSample.found)
        (.initial 1000 1000) [] (inputs [5000000000, 0]) := by
  refine ⟨?_, ?_⟩ <;> decide +kernel

end PublicPool.Proofs
