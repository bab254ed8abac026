import PublicPool.Proofs.Datum
import PublicPool.Proofs.DatumSessions
import PublicPool.Proofs.DeclaredTransactions

/-!
# `PublicPool.Proofs.DatumValidation`: what a validated DATUM job has been checked for

The cache of a job says that the job is validated. What that should mean is `ValidatedSound`: the
merkle branches and the transaction count of the cache are those of the transactions it holds, and the
transactions answered a request for this job.

Which request a response answers is not on the wire, and which job a request was made for is not in
the state: job ids are reused. `loggedMachine` keeps both beside the service. It numbers the jobs of a
session as they come, notes for every request of full transactions the job it is made for, and is told
of each response which request it answers, if any.

The service checks neither (`not_validated_sound`), and there are three more gaps. A job that says it
has no transactions is validated whatever its branches are. A response is compared with the count and
the branches only as far as the job has them. And a later submission of the same job replaces branches
and count of a job that stays validated. `ValidatesOwnJob` excludes these; then what is validated is
sound in every state of a run (`validated_sound`).
-/

set_option autoImplicit false

namespace PublicPool.Proofs

open Datum
open Lib

/-! ### Jobs and requests -/

/-- The number of the job behind a job id, and the number of the job whose request its transactions
answered. -/
structure JobLog where
  job : ℕ
  answeredFor : Option ℕ
  deriving DecidableEq, Repr

/-- What has happened to the jobs of a session: the job behind each id, the job of every request of
full transactions, oldest first, and the number of the next job. -/
structure SessionLog where
  jobs : ℕ → JobLog
  requests : List ℕ
  nextJob : ℕ

def SessionLog.initial : SessionLog where
  jobs _ := { job := 0, answeredFor := none }
  requests := []
  nextJob := 1

/-- A submission that starts a new cache is for a new job. -/
def SessionLog.takePow (log : SessionLog) (state : DatumClientState) (pow : DatumPowSubmit) :
    SessionLog :=
  if pow.prevBlockHash.isSome || (state.datumJobs pow.jobId).isNone then
    { log with
      jobs := fun id =>
        if id = pow.jobId then { job := log.nextJob, answeredFor := none } else log.jobs id
      nextJob := log.nextJob + 1 }
  else log

/-- A response may bring transactions, for a request, and may lead to a request. -/
def SessionLog.takeResponse (log : SessionLog) (host : Externals) (cache : DatumJobCache)
    (response : DatumJobValidationResponse) (answers : Option ℕ) : SessionLog :=
  let (cache, requests) := applyValidationResponse host cache response
  let entry := log.jobs response.jobId
  let entry :=
    if cache.validationState = some .validated then
      { entry with answeredFor := answers.bind (log.requests[·]?) }
    else entry
  { log with
    jobs := fun id => if id = response.jobId then entry else log.jobs id
    requests := log.requests ++ requests.map fun _ => entry.job }

/-- The service with the logs of its sessions. -/
structure LoggedWorld where
  world : DatumWorld
  logs : ℕ → SessionLog

def LoggedWorld.start (world : DatumWorld) : LoggedWorld where
  world := world
  logs _ := .initial

/-- What happens to the service, and which request of its session a validation response answers. -/
structure LoggedInput where
  input : DatumInput
  answers : Option ℕ

section
variable (host : Externals) (config : DatumConfig) (payout : PayoutConfig)

/-- The log of a client after an input. -/
def logStep (logged : LoggedWorld) (client : ℕ) (entry : LoggedInput) : SessionLog :=
  match entry.input with
  | .connect other _ _ => if client = other then .initial else logged.logs client
  | .powSubmit other pow fault =>
    match logged.world.sessions client, logged.world.latestTemplate with
    | some state, some _ =>
      if client = other ∧ takesPow host state pow fault = true then
        (logged.logs client).takePow state pow
      else logged.logs client
    | _, _ => logged.logs client
  | .jobValidation other response =>
    match (logged.world.sessions client).bind (·.datumJobs response.jobId) with
    | some cache =>
      if client = other then (logged.logs client).takeResponse host cache response entry.answers
      else logged.logs client
    | none => logged.logs client
  | _ => logged.logs client

def loggedStep (logged : LoggedWorld) (entry : LoggedInput) :
    LoggedWorld × List (ℕ × DatumEvent) :=
  let (world, events) := datumStep host config payout logged.world entry.input
  ({ world, logs := fun client => logStep host logged client entry }, events)

/-- The service, logged. -/
def loggedMachine : Machine LoggedWorld LoggedInput (ℕ × DatumEvent) :=
  ⟨loggedStep host config payout⟩

/-- The logs do not change what the service does. -/
theorem world_logged (logged : LoggedWorld) (entries : List LoggedInput) :
    ((loggedMachine host config payout).final logged entries).world
      = (datumMachine host config payout).final logged.world (entries.map (·.input)) := by
  induction entries generalizing logged with
  | nil => rfl
  | cons entry entries ih => exact ih _

/-! ### The property and the condition -/

/-- What it means that a job is validated. -/
def ValidatedSound (log : JobLog) (cache : DatumJobCache) : Prop :=
  cache.validationState = some .validated →
    ∃ transactions path, cache.validationTransactions = some transactions ∧
      buildCoinbaseMerklePath host transactions = some path ∧ cache.merkleBranches = some path ∧
      cache.transactionCount = some transactions.length ∧
      (transactions ≠ [] → log.answeredFor = some log.job)

/-- A submission keeps what its job was validated by, and says of a job without transactions that it
has no branches. -/
def PowKeepsValidated (state : DatumClientState) (pow : DatumPowSubmit) : Prop :=
  let datumJob := updateDatumJobCache state pow
  (datumJob.validationState = none → datumJob.transactionCount = some 0 →
    datumJob.merkleBranches = some []) ∧
  ∀ cache ∈ state.datumJobs pow.jobId, pow.prevBlockHash = none →
    cache.validationState = some .validated →
    datumJob.merkleBranches = cache.merkleBranches ∧
      datumJob.transactionCount = cache.transactionCount

/-- Transactions that pass the checks come for a job whose count and branches are known, in answer to
a request for this very job. -/
def AnswersOwnJob (log : SessionLog) (cache : DatumJobCache) (answers : Option ℕ) :
    DatumJobValidationResponse → Prop
  | .shortTxIds _ _ _ => True
  | .transactions jobId status transactionCount transactions =>
    status = validationSuccess →
    (failsWith cache.transactionCount fun count => transactionCount ≠ count) = false →
    validateTransactionData host transactions cache.transactionCount cache.totalSize
      cache.merkleBranches = none →
    cache.transactionCount.isSome ∧ cache.merkleBranches.isSome ∧
      (transactions ≠ [] → answers.bind (log.requests[·]?) = some (log.jobs jobId).job)

/-- What an input must be like for validated jobs to stay what they are. -/
def ValidatesOwnJob (logged : LoggedWorld) (entry : LoggedInput) : Prop :=
  match entry.input with
  | .powSubmit client pow _ =>
    ∀ state ∈ logged.world.sessions client, PowKeepsValidated state pow
  | .jobValidation client response =>
    ∀ state ∈ logged.world.sessions client, ∀ cache ∈ state.datumJobs response.jobId,
      AnswersOwnJob host (logged.logs client) cache entry.answers response
  | _ => True

instance (state : DatumClientState) (pow : DatumPowSubmit) :
    Decidable (PowKeepsValidated state pow) :=
  inferInstanceAs (Decidable ((_ → _ → _) ∧ ∀ cache ∈ state.datumJobs pow.jobId, _))

instance (log : SessionLog) (cache : DatumJobCache) (answers : Option ℕ)
    (response : DatumJobValidationResponse) :
    Decidable (AnswersOwnJob host log cache answers response) :=
  match response with
  | .shortTxIds _ _ _ => isTrue trivial
  | .transactions _ _ _ _ => inferInstanceAs (Decidable (_ → _ → _ → _))

instance (logged : LoggedWorld) (entry : LoggedInput) :
    Decidable (ValidatesOwnJob host logged entry) := by
  unfold ValidatesOwnJob
  split <;> infer_instance

/-! ### Transactions that pass the checks -/

theorem eq_of_firstMismatch {i : ℕ} {a b : List Bytes} (hlength : a.length = b.length)
    (h : firstMismatch i a b = none) : a = b := by
  induction a generalizing i b with
  | nil => exact (List.length_eq_zero_iff.mp hlength.symm).symm
  | cons first rest ih =>
    cases b with
    | nil => cases hlength
    | cons other others =>
      rw [firstMismatch] at h
      split at h
      · rename_i hfirst
        rw [hfirst, ih (Nat.succ.inj hlength) h]
      · cases h

variable {host}

theorem buildCoinbaseMerklePath_nil : buildCoinbaseMerklePath host [] = some [] := by
  show some (merklePathFrom host [List.replicate 32 0] 0) = some []
  rw [merklePathFrom, dif_neg (by decide)]

/-- Transactions that pass the checks against a count and a path are so many and have this path. -/
theorem path_of_validateTransactionData {transactions : List Bytes} {count : ℕ}
    {maxTotalBytes : Option ℕ} {path : List Bytes}
    (h : validateTransactionData host transactions (some count) maxTotalBytes (some path) = none) :
    transactions.length = count ∧ buildCoinbaseMerklePath host transactions = some path := by
  unfold validateTransactionData at h
  split at h
  · cases h
  · rename_i hcount
    have hlength : transactions.length = count := by simpa [failsWith] using hcount
    refine ⟨hlength, ?_⟩
    split at h
    · cases h
    · rename_i hchecked
      obtain ⟨decoded, hdecoded⟩ := exists_mapM_iff.mpr (fromBuffer_of_checkTransactionData hchecked)
      have hpath : ∃ built, buildCoinbaseMerklePath host transactions = some built :=
        ⟨_, by rw [buildCoinbaseMerklePath, hdecoded]; rfl⟩
      obtain ⟨built, hbuilt⟩ := hpath
      rw [hbuilt] at h ⊢
      simp only [Option.getD_some] at h
      split at h
      · cases h
      · rename_i hsame
        rw [eq_of_firstMismatch (not_not.mp hsame) (Option.map_eq_none_iff.mp h)]

/-! ### Submissions -/

variable {state : DatumClientState} {pow : DatumPowSubmit} {log : SessionLog} {logged : LoggedWorld}
  {entry : LoggedInput}

/-- The judgement of a submission changes nothing that was validated. -/
theorem validatedSound_judged {config : DatumConfig} {latestTemplate : JobTemplate}
    {providerTemplate : Option TemplateProviderTemplate} {log : JobLog}
    (h : ValidatedSound host log (takenJob state pow)) :
    ValidatedSound host log (judged host config latestTemplate providerTemplate state pow).2 := by
  rcases judgePow_binds host config latestTemplate providerTemplate state pow (takenJob state pow)
    with hsame | ⟨coinbase, context, -, -, hbound⟩
  · rw [judged, hsame]
    exact h
  · rw [judged, hbound]
    exact h

/-- How the job of a submission comes to be validated: it has no transactions, or it was validated
before. -/
theorem takenJob_validated (h : (takenJob state pow).validationState = some .validated) :
    ((updateDatumJobCache state pow).validationState = none ∧
        (updateDatumJobCache state pow).transactionCount = some 0 ∧
        takenJob state pow = { updateDatumJobCache state pow with
          validationState := some .validated, validationTransactions := some [] }) ∨
      ((updateDatumJobCache state pow).validationState = some .validated ∧
        takenJob state pow = updateDatumJobCache state pow) := by
  rw [takenJob] at h ⊢
  generalize updateDatumJobCache state pow = datumJob at h ⊢
  have hcases : (datumJob.validationState = none ∧ datumJob.transactionCount = some 0 ∧
        (maybeRequestDatumJobValidation pow.jobId datumJob).1 = { datumJob with
          validationState := some .validated, validationTransactions := some [] }) ∨
      (maybeRequestDatumJobValidation pow.jobId datumJob).1.validationState
        = some .requestedShortTxIds ∨
      (maybeRequestDatumJobValidation pow.jobId datumJob).1 = datumJob := by
    unfold maybeRequestDatumJobValidation
    split
    · rename_i hcount hstate
      exact Or.inl ⟨hstate, hcount, rfl⟩
    · exact Or.inr (Or.inl rfl)
    · exact Or.inr (Or.inr rfl)
  rcases hcases with hempty | hrequested | hsame
  · exact Or.inl hempty
  · rw [hrequested] at h
    cases h
  · rw [hsame] at h
    exact Or.inr ⟨h, hsame⟩

/-- A validated job of a submission that was validated before is the cached one with what the
submission has of it. -/
theorem exists_cached_of_validated
    (h : (updateDatumJobCache state pow).validationState = some .validated) :
    ∃ cache, state.datumJobs pow.jobId = some cache ∧ pow.prevBlockHash = none ∧
      cache.validationState = some .validated ∧
      (updateDatumJobCache state pow).validationTransactions = cache.validationTransactions := by
  simp only [updateDatumJobCache] at h ⊢
  split at h
  · cases h
  · rename_i hold
    cases hcache : state.datumJobs pow.jobId with
    | none =>
      rw [hcache] at h
      cases h
    | some cache =>
      rw [hcache] at h
      exact ⟨cache, rfl, Option.not_isSome_iff_eq_none.mp hold, h, by rw [if_neg hold]; rfl⟩

/-- A submission leaves a sound job. -/
theorem validatedSound_takenJob (hsound : ∀ cache, state.datumJobs pow.jobId = some cache →
      ValidatedSound host (log.jobs pow.jobId) cache) (hkeeps : PowKeepsValidated state pow) :
    ValidatedSound host ((log.takePow state pow).jobs pow.jobId) (takenJob state pow) := by
  intro hvalidated
  rcases takenJob_validated hvalidated with ⟨hstate, hcount, htaken⟩ | ⟨hstate, htaken⟩
  · rw [htaken]
    exact ⟨[], [], rfl, buildCoinbaseMerklePath_nil, hkeeps.1 hstate hcount, hcount,
      fun hsome => absurd rfl hsome⟩
  · obtain ⟨cache, hcache, hold, hcached, htransactions⟩ := exists_cached_of_validated hstate
    obtain ⟨hbranches, hcount⟩ := hkeeps.2 cache hcache hold hcached
    obtain ⟨transactions, path, hheld, hpath, hbranches', hcount', hanswered⟩ :=
      hsound cache hcache hcached
    have hlog : log.takePow state pow = log := by
      rw [SessionLog.takePow, hold, hcache]
      rfl
    rw [htaken, hlog]
    exact ⟨transactions, path, htransactions.trans hheld, hpath, hbranches.trans hbranches',
      hcount.trans hcount', hanswered⟩

/-! ### Responses -/

/-- A response leaves a sound job. -/
theorem validatedSound_response {cache : DatumJobCache} {answers : Option ℕ}
    {response : DatumJobValidationResponse}
    (hanswers : AnswersOwnJob host log cache answers response) :
    ValidatedSound host ((log.takeResponse host cache response answers).jobs response.jobId)
      (applyValidationResponse host cache response).1 := by
  intro hvalidated
  have hentry : (log.takeResponse host cache response answers).jobs response.jobId
      = { log.jobs response.jobId with answeredFor := answers.bind (log.requests[·]?) } := by
    simp only [SessionLog.takeResponse, if_true, hvalidated]
  rw [hentry]
  cases response with
  | shortTxIds jobId status transactionCount =>
    simp only [applyValidationResponse] at hvalidated
    split at hvalidated
    · cases hvalidated
    · split at hvalidated <;> cases hvalidated
  | transactions jobId status transactionCount transactions =>
    simp only [applyValidationResponse] at hvalidated ⊢
    split at hvalidated
    · cases hvalidated
    · rename_i hstatus
      split at hvalidated
      · cases hvalidated
      · rename_i hadvertised
        split at hvalidated
        · cases hvalidated
        · rename_i hchecked
          rw [if_neg hstatus, if_neg hadvertised, if_neg hchecked]
          have hnone := Option.not_isSome_iff_eq_none.mp hchecked
          obtain ⟨hcount, hbranches, hanswered⟩ := hanswers (not_not.mp hstatus)
            (Bool.not_eq_true _ ▸ hadvertised) hnone
          obtain ⟨count, hcount⟩ := Option.isSome_iff_exists.mp hcount
          obtain ⟨path, hbranches⟩ := Option.isSome_iff_exists.mp hbranches
          rw [hcount, hbranches] at hnone
          obtain ⟨hlength, hpath⟩ := path_of_validateTransactionData hnone
          exact ⟨transactions, path, rfl, hpath, hbranches, hlength ▸ hcount, hanswered⟩

/-! ### Runs -/

/-- Every job of every session is sound. -/
def JobsSound (host : Externals) (logged : LoggedWorld) : Prop :=
  ∀ client state jobId cache, logged.world.sessions client = some state →
    state.datumJobs jobId = some cache →
    ValidatedSound host ((logged.logs client).jobs jobId) cache

/-- What is not for the session of a client leaves its log. -/
theorem logStep_of_not_forSession {client : ℕ}
    (hother : ¬ForSession host logged.world client entry.input) :
    logStep host logged client entry = logged.logs client := by
  unfold logStep
  cases hinput : entry.input with
  | connect other sessionId payoutMode =>
    rw [hinput] at hother
    exact if_neg hother
  | powSubmit other pow fault =>
    rw [hinput] at hother
    dsimp only
    split
    · rename_i state latestTemplate hsession htemplate
      refine if_neg fun htaken => hother ⟨htaken.1, ?_, state, hsession, htaken.2⟩
      rw [htemplate]
      rfl
    · rfl
  | jobValidation other response =>
    rw [hinput] at hother
    dsimp only
    split
    · exact if_neg hother
    · rfl
  | disconnect => rfl
  | template => rfl
  | rollups => rfl
  | createSnapshot => rfl
  | coinbaserFetch => rfl

theorem jobsSound_step (hsound : JobsSound host logged) (hown : ValidatesOwnJob host logged entry) :
    JobsSound host (loggedStep host config payout logged entry).1 := by
  obtain ⟨input, answers⟩ := entry
  intro client state' jobId cache hsession hcache
  show ValidatedSound host ((logStep host logged client ⟨input, answers⟩).jobs jobId) cache
  cases session_step host config payout hsession with
  | kept hbefore hother =>
    rw [logStep_of_not_forSession hother]
    exact hsound client state' jobId cache hbefore hcache
  | opened => cases hcache
  | @fetched state _ latestTemplate rewardValue hbefore _ hfetch =>
    have hjobs : state'.datumJobs = state.datumJobs := by
      simp only [handleCoinbaserFetch] at hfetch
      split at hfetch
      · cases hfetch
      · cases hfetch
      · split at hfetch
        · exact (Option.some.inj hfetch) ▸ rfl
        · cases hfetch
    rw [hjobs] at hcache
    exact hsound client state jobId cache hbefore hcache
  | @submitted state latestTemplate pow fault hbefore htemplate htakes =>
    have hlog : logStep host logged client ⟨.powSubmit client pow fault, answers⟩
        = (logged.logs client).takePow state pow := by
      simp only [logStep, hbefore, htemplate, htakes, and_self, if_true]
    rw [hlog]
    replace hcache : (if jobId = pow.jobId then some (judged host config latestTemplate
      logged.world.providerTemplate state pow).2 else state.datumJobs jobId) = some cache := hcache
    split at hcache
    · rename_i hjob
      obtain rfl := hjob
      obtain rfl := Option.some.inj hcache
      exact validatedSound_judged (validatedSound_takenJob
        (fun cached hcached => hsound client state _ cached hbefore hcached) (hown state hbefore))
    · rename_i hjob
      have hentry : ((logged.logs client).takePow state pow).jobs jobId
          = (logged.logs client).jobs jobId := by
        unfold SessionLog.takePow
        split
        · exact if_neg hjob
        · rfl
      rw [hentry]
      exact hsound client state jobId cache hbefore hcache
  | @answered state response hbefore =>
    cases hold : state.datumJobs response.jobId with
    | none =>
      have hlog : logStep host logged client ⟨.jobValidation client response, answers⟩
          = logged.logs client := by
        simp only [logStep, hbefore, Option.bind_some, hold]
      simp only [handleJobValidationResponse, hold] at hcache
      rw [hlog]
      exact hsound client state jobId cache hbefore hcache
    | some old =>
      have hlog : logStep host logged client ⟨.jobValidation client response, answers⟩
          = (logged.logs client).takeResponse host old response answers := by
        simp only [logStep, hbefore, Option.bind_some, hold, if_true]
      rw [hlog]
      simp only [handleJobValidationResponse, hold] at hcache
      split at hcache
      · rename_i hjob
        obtain rfl := hjob
        obtain rfl := Option.some.inj hcache
        exact validatedSound_response (hown state hbefore old hold)
      · rename_i hjob
        have hentry : ((logged.logs client).takeResponse host old response answers).jobs jobId
            = (logged.logs client).jobs jobId := if_neg hjob
        rw [hentry]
        exact hsound client state jobId cache hbefore hcache

variable (host)

/-- In every run whose submissions keep what validated jobs were validated by, and whose transactions
answer requests for their own job, every validated job of a session is sound. -/
theorem validated_sound {world : DatumWorld} (hstart : ∀ client, world.sessions client = none)
    {entries : List LoggedInput}
    (hown : (loggedMachine host config payout).Along
      (fun logged _ entry => ValidatesOwnJob host logged entry) (.start world) [] entries) :
    JobsSound host ((loggedMachine host config payout).final (.start world) entries) := by
  have hinit : JobsSound host (.start world) := by
    intro client state jobId cache hsession
    have hnone : (LoggedWorld.start world).world.sessions client = none := hstart client
    rw [hnone] at hsession
    cases hsession
  have hstep : ∀ logged (_ : List (ℕ × DatumEvent)) entry, JobsSound host logged →
      ValidatesOwnJob host logged entry →
      JobsSound host ((loggedMachine host config payout).step logged entry).1 :=
    fun _ _ _ hsound hown => jobsSound_step config payout hsound hown
  exact (loggedMachine host config payout).history_invariant hstep hinit hown

end

/-! ### A job with branches and no transactions -/

namespace DatumValidationSample

open DatumSample

def transaction : Bytes :=
  TxCodec.serialize false
    { version := 2
      ins := [{ hash := List.replicate 32 3, index := 0, script := [], sequence := 0xffffffff
                witness := [] }]
      outs := [{ value := 1, script := [0x51] }]
      locktime := 0 }

/-- A gateway connects and submits a job with one branch and so many transactions. -/
def submission (transactionCount : ℕ) : List LoggedInput :=
  [⟨.connect 0 "gateway" .pplns, none⟩,
    ⟨.template template (some (.ofJobTemplate 1 template)), none⟩,
    ⟨.powSubmit 0 { pow false with
      transactionCount := some transactionCount
      totalSize := some 100
      merkleBranches := some [(Digest.ofNat (2 ^ 200)).bytes] } none, none⟩]

/-- It proves the transactions when it is asked to. -/
def validation : List LoggedInput :=
  submission 1 ++ [⟨.jobValidation 0 (.shortTxIds 1 1 1), none⟩,
    ⟨.jobValidation 0 (.transactions 1 1 1 [transaction]), some 0⟩]

/-- What the cache of a job says about its validation after a run. -/
def validated (entries : List LoggedInput) :
    Option (Option ValidationState × Option (List Bytes) × Option (List Bytes)) := do
  let state ← ((loggedMachine host config payout).final (.start world) entries).world.sessions 0
  let cache ← state.datumJobs 1
  return (cache.validationState, cache.validationTransactions, cache.merkleBranches)

end DatumValidationSample

open DatumSample DatumValidationSample in
/-- A job that says it has no transactions is validated with a branch. -/
theorem not_validated_sound :
    ¬JobsSound host ((loggedMachine host config payout).final (.start world) (submission 0)) := by
  intro h
  have hcache : validated (submission 0)
      = some (some .validated, some [], some [(Digest.ofNat (2 ^ 200)).bytes]) := by decide +kernel
  obtain ⟨state, hsession, hcache⟩ := Option.bind_eq_some_iff.mp hcache
  obtain ⟨cache, hcached, hfields⟩ := Option.bind_eq_some_iff.mp hcache
  obtain ⟨hstate, htransactions, hbranches⟩ :
      cache.validationState = some .validated ∧ cache.validationTransactions = some [] ∧
        cache.merkleBranches = some [(Digest.ofNat (2 ^ 200)).bytes] := by
    simpa using hfields
  obtain ⟨transactions, path, hheld, hpath, hpath', -⟩ := h 0 state 1 cache hsession hcached hstate
  obtain rfl := Option.some.inj (htransactions.symm.trans hheld)
  obtain rfl := Option.some.inj (buildCoinbaseMerklePath_nil.symm.trans hpath)
  rw [hbranches] at hpath'
  exact absurd hpath' (by decide)

open DatumSample DatumValidationSample in
theorem validated_sound_sample :
    JobsSound host ((loggedMachine host config payout).final (.start world) validation) ∧
      validated validation
        = some (some .validated, some [transaction], some [(Digest.ofNat (2 ^ 200)).bytes]) :=
  ⟨validated_sound host config payout (fun _ => rfl) (by decide +kernel), by decide +kernel⟩

end PublicPool.Proofs
