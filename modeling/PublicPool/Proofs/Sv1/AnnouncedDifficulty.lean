import PublicPool.Lib.Latest
import PublicPool.Proofs.Sv1.CreditedDifficulty
import PublicPool.Proofs.Targets

/-!
# `PublicPool.Proofs.Sv1.AnnouncedDifficulty`: a Stratum V1 miner and the difficulty it was told

A connection has one target, and every submission is held to it, whichever job it is on. The miner
holds a share to the difficulty it was told before the job came. So the two agree as long as the
difficulty is not raised between the job and the submission, and as long as it is never moved
without a word, as a second `mining.authorize` does.

The invariant is that a connection that has been told a difficulty was told its own last.
-/

set_option autoImplicit false

namespace PublicPool.Proofs

open Sv1 Sv1.StratumV1Client
open DifficultyUtils
open Lib

/-! ### What a connection was told -/

/-- The difficulty that a message announces. -/
def difficultyOf : Sv1Event → Option (Option ℚ)
  | .setDifficulty difficulty => some difficulty
  | _ => none

/-- The difficulty that an event announces to a connection. -/
def announcedTo (id : ℕ) (event : ℕ × Sv1Event) : Option (Option ℚ) :=
  if event.1 = id then difficultyOf event.2 else none

/-- The difficulty in the last `mining.set_difficulty` to a connection. -/
def lastDifficulty (id : ℕ) (history : List (ℕ × Sv1Event)) : Option (Option ℚ) :=
  latest (announcedTo id) history

/-- The event that a job is built for a connection, whose `mining.notify` goes out with it. -/
def isJobOf (id : ℕ) (job : MiningJob) : ℕ × Sv1Event → Bool
  | (owner, .jobBuilt job' _) => owner = id ∧ job' = job
  | _ => false

/-- The difficulty in the last `mining.set_difficulty` before the `mining.notify` of a job. -/
def difficultyBefore (id : ℕ) (job : MiningJob) (history : List (ℕ × Sv1Event)) :
    List (Option ℚ) :=
  latestBefore (announcedTo id) (isJobOf id job) history

section
variable (host : Externals) (config : Sv1Config)

/-- A submission on a live job: its connection, the job and the header it makes up with it. -/
structure LiveSubmission where
  id : ℕ
  job : MiningJob
  header : Bytes

/-- The submission that a step judges, if its job and the template of its job are known. -/
def liveSubmission (world : AwaitWorld) : AwaitInput → Option LiveSubmission
  | .resume id k _ _ =>
    match world.pool.clients id, (world.suspended id)[k]? with
    | some client, some (.submitValidation params) => do
      let submission ← MiningSubmitMessage.ofParams params
      let job ← world.pool.service.getJobById submission.jobId
      let jobTemplate ← world.pool.service.getJobTemplateById job.jobTemplateId
      let header ← client.headerOf host job jobTemplate submission
      return { id, job, header }
    | _, _ => none
  | .begin _ => none

/-- A submission on a live job whose hash meets the difficulty announced before the job is not
refused for a low difficulty. -/
def Sv1Honoured (world : AwaitWorld) (history : List (ℕ × Sv1Event)) (input : AwaitInput) :
    Prop :=
  ∀ live ∈ liveSubmission host world input, ∀ difficulty ∈ difficultyBefore live.id live.job history,
    meetsTarget (host.hash256 live.header).bytes (difficultyToTarget difficulty) = true →
      (live.id, .errorResponse .lowDifficultyShare "Difficulty too low")
        ∉ (awaitStep host config world input).2

/-- The condition: `mining.authorize` does not raise the difficulty of a connection that has begun,
and no submission comes on a job that was announced under a lower difficulty than the one in
force. -/
def NoLateRaise (world : AwaitWorld) (history : List (ℕ × Sv1Event)) : AwaitInput → Prop
  | .begin (.authorize id user startingDiff) =>
    ∀ client ∈ world.pool.clients id, client.stratumInitialized = true →
      authorizedDifficulty host config client user startingDiff = none
  | .resume id k succeeded answer =>
    ∀ live ∈ liveSubmission host world (.resume id k succeeded answer),
      ∀ difficulty ∈ difficultyBefore live.id live.job history,
        ∀ last ∈ lastDifficulty live.id history, last.getD 0 ≤ difficulty.getD 0
  | _ => True

instance (world : AwaitWorld) (history : List (ℕ × Sv1Event)) (input : AwaitInput) :
    Decidable (Sv1Honoured host config world history input) :=
  inferInstanceAs (Decidable (∀ _ ∈ _, _))

instance (world : AwaitWorld) (history : List (ℕ × Sv1Event)) :
    DecidablePred (NoLateRaise host config world history) := fun input => by
  rcases input with input | _
  · rcases input with _ | _ <;> unfold NoLateRaise <;> infer_instance
  · unfold NoLateRaise
    infer_instance

end

/-! ### What a handler tells -/

/-- A connection has been told a difficulty. -/
def Told (client : StratumV1Client) : Prop :=
  client.stratumInitialized = true ∨ client.clientSuggestedDifficulty.isSome = true

/-- A handler that has nothing to tell. -/
structure SameSession (client client' : StratumV1Client) : Prop where
  session : client'.sessionDifficulty = client.sessionDifficulty
  suggested : client'.clientSuggestedDifficulty = client.clientSuggestedDifficulty
  initialized : client'.stratumInitialized = client.stratumInitialized

/-- A step that announces a difficulty announces that of the connection. One that announces none
leaves the difficulty of a connection alone that has been told. -/
structure TellsDifficulty (announced : Option (Option ℚ)) (client client' : StratumV1Client) :
    Prop where
  initialized : client.stratumInitialized = true → client'.stratumInitialized = true
  tells : announced = some client'.sessionDifficulty ∨
    announced = none ∧
      (Told client' → Told client ∧ client'.sessionDifficulty = client.sessionDifficulty)

section
variable {client client' client'' : StratumV1Client} {events : List Sv1Event}

theorem SameSession.rfl : SameSession client client := ⟨Eq.refl _, Eq.refl _, Eq.refl _⟩

theorem SameSession.trans (h : SameSession client client') (h' : SameSession client' client'') :
    SameSession client client'' where
  session := h'.session.trans h.session
  suggested := h'.suggested.trans h.suggested
  initialized := h'.initialized.trans h.initialized

theorem SameSession.told (h : SameSession client client') (htold : Told client') :
    Told client ∧ client'.sessionDifficulty = client.sessionDifficulty := by
  unfold Told at htold ⊢
  rw [h.initialized, h.suggested] at htold
  exact ⟨htold, h.session⟩

theorem SameSession.tells (h : SameSession client client') :
    TellsDifficulty none client client' where
  initialized hinitialized := h.initialized.trans hinitialized
  tells := Or.inr ⟨Eq.refl _, h.told⟩

theorem TellsDifficulty.rfl : TellsDifficulty none client client := SameSession.rfl.tells

/-- The end of a handler: what the handler has moved without a word is told now, or was told
before. -/
theorem tells_maybeInitStratum (hevents : latest difficultyOf events = none)
    (hinitialized : client.stratumInitialized = true → client'.stratumInitialized = true)
    (htold : Told client' →
      Told client ∧ client'.sessionDifficulty = client.sessionDifficulty) :
    TellsDifficulty (latest difficultyOf (client'.maybeInitStratum events).2) client
      (client'.maybeInitStratum events).1 := by
  unfold maybeInitStratum
  split
  · cases hsuggested : client'.clientSuggestedDifficulty with
    | none => exact ⟨fun _ => rfl, Or.inl (latest_concat rfl)⟩
    | some floor =>
      refine ⟨fun _ => rfl, Or.inr ⟨hevents, fun _ => ?_⟩⟩
      exact htold (Or.inr (by rw [hsuggested]; rfl))
  · exact ⟨hinitialized, Or.inr ⟨hevents, htold⟩⟩

theorem SameSession.maybeInit (h : SameSession client client')
    (hevents : latest difficultyOf events = none) :
    TellsDifficulty (latest difficultyOf (client'.maybeInitStratum events).2) client
      (client'.maybeInitStratum events).1 :=
  tells_maybeInitStratum hevents (fun hinitialized => h.initialized.trans hinitialized) h.told

theorem sameSession_pushRefreshedJob (client : StratumV1Client)
    (latestTemplate : Option JobTemplate) (now : ℕ) :
    SameSession client (client.pushRefreshedJob latestTemplate now) := by
  cases latestTemplate with
  | none => exact ⟨rfl, rfl, rfl⟩
  | some jobTemplate => exact ⟨rfl, rfl, rfl⟩

theorem sameSession_receiveTemplate (jobTemplate : JobTemplate) (now : ℕ) :
    SameSession client (client.receiveTemplate jobTemplate now) := by
  unfold receiveTemplate
  by_cases hsubscribed : client.stratumSubscription = true
  · simp only [if_pos hsubscribed]
    exact ⟨rfl, rfl, rfl⟩
  · simp only [if_neg hsubscribed]
    exact ⟨rfl, rfl, rfl⟩

variable (latestTemplate : Option JobTemplate) (now : ℕ) (host : Externals) (config : Sv1Config)
  (service : StratumV1JobsService) (succeeded : Bool) (answer : Option String)

theorem sameSession_subscribeTemplates :
    SameSession client (client.subscribeTemplates latestTemplate) := by
  unfold subscribeTemplates
  split
  · cases latestTemplate with
    | none => exact ⟨rfl, rfl, rfl⟩
    | some jobTemplate => exact ⟨rfl, rfl, rfl⟩
  · exact .rfl

theorem tells_sendNewMiningJob (k : ℕ) (inserted sent : Bool) (now : ℕ) :
    let sending := client.sendNewMiningJob host config service k inserted sent now
    TellsDifficulty (latest difficultyOf sending.2.2) client sending.2.1 := by
  have hsame {client' : StratumV1Client} {events : List Sv1Event}
      (h : SameSession client client') (hevents : latest difficultyOf events = none) :
      TellsDifficulty (latest difficultyOf events) client client' := by
    rw [hevents]
    exact h.tells
  unfold sendNewMiningJob
  split
  · simp only
    split
    · exact hsame ⟨rfl, rfl, rfl⟩ rfl
    · split
      · exact hsame ⟨rfl, rfl, rfl⟩ rfl
      · split
        · exact hsame ⟨rfl, rfl, rfl⟩ rfl
        · exact hsame ⟨rfl, rfl, rfl⟩ rfl
  · exact hsame .rfl rfl

theorem tells_handleAuthorize {user : String} {startingDiff : Option ℚ}
    (hquiet : client.stratumInitialized = true →
      authorizedDifficulty host config client user startingDiff = none) :
    let authorizing := client.handleAuthorize host config user startingDiff
    TellsDifficulty (latest difficultyOf authorizing.2) client authorizing.1 := by
  unfold handleAuthorize
  cases hparsed : parseAuthorization host config.network user with
  | none => exact SameSession.rfl.maybeInit rfl
  | some authorization =>
    cases hsuggested : client.clientSuggestedDifficulty with
    | some floor =>
      simp only
      exact SameSession.maybeInit ⟨rfl, hsuggested.symm, rfl⟩ rfl
    | none =>
      cases startingDiff with
      | none =>
        simp only
        exact SameSession.maybeInit ⟨rfl, hsuggested.symm, rfl⟩ rfl
      | some startingDiff =>
        simp only
        by_cases hraises : client.sessionDifficulty.getD 0 < startingDiff
        · -- raised without a word, so the connection has not begun
          rw [if_pos hraises]
          refine tells_maybeInitStratum rfl id fun htold => ?_
          rcases htold with hinitialized | hfloor
          · have hnone := hquiet hinitialized
            simp only [authorizedDifficulty, hparsed, hsuggested, if_pos hraises] at hnone
            cases hnone
          · cases hfloor
        · rw [if_neg hraises]
          exact SameSession.maybeInit ⟨rfl, hsuggested.symm, rfl⟩ rfl

theorem tells_handleSetPayout (latestTemplate : Option JobTemplate) (address : String)
    (worker : Option String) (now : ℕ) :
    let setting := client.handleSetPayout host config latestTemplate address worker now
    TellsDifficulty (latest difficultyOf setting.2) client setting.1 := by
  unfold handleSetPayout
  split
  · exact SameSession.rfl.maybeInit rfl
  · refine SameSession.maybeInit ?_ rfl
    split
    · refine SameSession.trans ?_ (sameSession_pushRefreshedJob _ _ now)
      exact ⟨rfl, rfl, rfl⟩
    · exact ⟨rfl, rfl, rfl⟩

/-- The minute timer tells the difficulty it sets. -/
theorem tells_difficultyTimer (latestTemplate : Option JobTemplate) (suggested : Option ℚ) (now : ℕ)
    :
    let ticking := client.difficultyTimer config latestTemplate suggested now
    TellsDifficulty (latest difficultyOf ticking.2) client ticking.1 := by
  unfold difficultyTimer
  split
  · unfold checkDifficulty
    split
    · exact .rfl
    · simp only
      split
      · exact .rfl
      · rename_i targetDiff _ _
        have hpushed := sameSession_pushRefreshedJob
          { client with
            sessionDifficulty := some (client.suggestedFloor targetDiff)
            sessionDifficultyTarget :=
              difficultyToTarget (some (client.suggestedFloor targetDiff)) } latestTemplate now
        exact ⟨fun h => hpushed.initialized.trans h, Or.inl (congrArg some hpushed.session.symm)⟩
  · exact .rfl

/-! ### Suspended calls -/

theorem sameSession_remember (submission : MiningSubmitMessage) (verdict : SubmissionVerdict) :
    SameSession client (client.remember submission verdict) := by
  cases verdict with
  | jobNotFound message => exact .rfl
  | duplicate => exact .rfl
  | threw => exact ⟨rfl, rfl, rfl⟩
  | lowDifficulty => exact ⟨rfl, rfl, rfl⟩
  | accepted job jobTemplate header => exact ⟨rfl, rfl, rfl⟩

/-- What a suspended call tells when it goes on. No call is suspended before its validation
again. -/
structure ResumesTelling (client client' : StratumV1Client) (next : Option Suspended)
    (events : List Sv1Event) : Prop where
  tells : TellsDifficulty (latest difficultyOf events) client client'
  next : ∀ params, .submitValidation params ∉ next

/-- A call that comes to its end without a word. -/
theorem SameSession.ends (h : SameSession client client')
    (hevents : latest difficultyOf events = none) : ResumesTelling client client' none events where
  tells := by
    rw [hevents]
    exact h.tells
  next params hnext := absurd hnext (Option.not_mem_none _)

/-- A call that goes on without a word. -/
theorem SameSession.goesOn {next : Suspended} (h : SameSession client client')
    (hevents : latest difficultyOf events = none)
    (hnext : ∀ params, next ≠ .submitValidation params) :
    ResumesTelling client client' (some next) events where
  tells := by
    rw [hevents]
    exact h.tells
  next params hmem := hnext params (Option.some.inj hmem)

theorem tells_resumeSubmitValidation (params : List JsonValue) (succeeded : Bool) :
    let resumed := client.resumeSubmitValidation host service params succeeded
    ResumesTelling client resumed.1 resumed.2.1 resumed.2.2 := by
  unfold resumeSubmitValidation
  split
  · exact SameSession.ends ⟨rfl, rfl, rfl⟩ rfl
  · rename_i submission hparams
    have hremember : SameSession client
        (client.remember submission (client.judgeSubmission host service submission)) :=
      sameSession_remember submission _
    have hdestroy : SameSession client
        (client.remember submission (client.judgeSubmission host service submission)).destroy :=
      hremember.trans ⟨rfl, rfl, rfl⟩
    simp only
    split
    -- the three ways to be refused
    iterate 3
      · split
        · exact hremember.ends rfl
        · exact hdestroy.ends rfl
    · exact SameSession.ends (hremember.trans ⟨rfl, rfl, rfl⟩) rfl
    · exact hremember.goesOn rfl (by simp)

theorem tells_resumeSubmitReply (work : AcceptedWork) (succeeded : Bool) :
    let resumed := client.resumeSubmitReply host work succeeded
    ResumesTelling client resumed.1 resumed.2.1 resumed.2.2 := by
  unfold resumeSubmitReply
  split
  · exact SameSession.ends ⟨rfl, rfl, rfl⟩ rfl
  · simp only
    split
    · split
      · exact SameSession.ends ⟨rfl, rfl, rfl⟩ rfl
      · exact SameSession.rfl.goesOn rfl (by simp)
    · exact SameSession.rfl.goesOn rfl (by simp)

/-- The events of a found block announce nothing. -/
theorem latest_foundEvents {work : RepliedWork} {events : Transaction → Bytes → List Sv1Event}
    (hevents : ∀ coinbase blockHex, latest difficultyOf (events coinbase blockHex) = none) :
    latest difficultyOf (foundEvents work events) = none := by
  unfold foundEvents
  split
  · exact hevents _ _
  · rfl

theorem tells_resumeSubmitting (work : RepliedWork) (await : SubmitAwait) (succeeded : Bool)
    (answer : Option String) :
    let resumed := client.resumeSubmitting host work await succeeded answer
    ResumesTelling client resumed.1 resumed.2.1 resumed.2.2 := by
  have hends : ResumesTelling client client.endSocket none [] :=
    SameSession.ends ⟨rfl, rfl, rfl⟩ rfl
  cases await with
  | virtualRow => exact SameSession.rfl.ends rfl
  | submitBlock =>
    cases succeeded with
    | false => exact hends
    | true => exact SameSession.rfl.goesOn rfl (by simp)
  | saveBlock =>
    cases succeeded with
    | false => exact hends
    | true =>
      refine SameSession.rfl.goesOn ?_ (by simp)
      exact latest_foundEvents fun _ _ => rfl
  | finalizeSnapshot =>
    cases succeeded with
    | false => exact hends
    | true =>
      refine SameSession.rfl.goesOn ?_ (by simp)
      refine latest_foundEvents fun coinbase blockHex => ?_
      unfold finalizeEvents
      split
      · rfl
      · rfl
  | notifySubscribers =>
    cases succeeded with
    | false => exact hends
    | true => exact SameSession.rfl.goesOn rfl (by simp)
  | resetBestDifficulty =>
    cases succeeded with
    | false => exact hends
    | true => exact SameSession.rfl.goesOn rfl (by simp)
  | clientRow =>
    cases succeeded with
    | false => exact hends
    | true => exact SameSession.rfl.goesOn rfl (by simp)

/-- What any suspended call tells when it goes on. -/
theorem resumesTelling (call : Suspended) (succeeded : Bool) (answer : Option String) :
    let resumed := client.resume host config service succeeded answer call
    ResumesTelling client resumed.1 resumed.2.1 resumed.2.2 := by
  cases call with
  | submitValidation params => exact tells_resumeSubmitValidation host service params succeeded
  | submitReply work => exact tells_resumeSubmitReply host work succeeded
  | submitting work await => exact tells_resumeSubmitting host work await succeeded answer
  | suggestValidation suggestedDifficulty =>
    refine ⟨⟨id, Or.inl rfl⟩, fun params hnext => ?_⟩
    cases hnext
  | suggestReply =>
    simp only [StratumV1Client.resume, resumeSuggestReply]
    split
    · exact SameSession.ends ⟨rfl, rfl, rfl⟩ rfl
    · refine ⟨SameSession.maybeInit ⟨rfl, rfl, rfl⟩ rfl, fun params hnext => ?_⟩
      cases hnext

end

/-! ### One step -/

/-- What a step tells the connections. -/
def TellsAll (world : Sv1World) (step : Sv1World × List (ℕ × Sv1Event)) : Prop :=
  ∀ c, ClientRel (TellsDifficulty (lastDifficulty c step.2)) (world.clients c) (step.1.clients c)

section
variable {world : Sv1World} {id : ℕ}

/-- A connection is told what its own events announce. -/
theorem lastDifficulty_map (id c : ℕ) (events : List Sv1Event) :
    lastDifficulty c (events.map (id, ·)) =
      if c = id then latest difficultyOf events else none := by
  rw [lastDifficulty, latest_map]
  by_cases hc : c = id
  · subst hc
    rw [if_pos rfl]
    congr
    funext event
    exact if_pos rfl
  · rw [if_neg hc]
    exact latest_eq_none fun event _ => if_neg (Ne.symm hc)

theorem tellsAll_silent : TellsAll world (world, []) := fun _ => .refl (fun _ => .rfl) _

theorem tellsAll_setClient {client client' : StratumV1Client} {events : List Sv1Event}
    (hclient : world.clients id = some client)
    (h : TellsDifficulty (latest difficultyOf events) client client') :
    TellsAll world (world.setClient id client', events.map (id, ·)) := by
  intro c
  rw [lastDifficulty_map]
  by_cases hc : c = id
  · subst hc
    rw [if_pos rfl, hclient]
    simp only [Sv1World.setClient, if_true]
    exact .step h
  · rw [if_neg hc]
    simp only [Sv1World.setClient, if_neg hc]
    exact .refl (fun _ => .rfl) _

theorem tellsAll_update {handler : StratumV1Client → StratumV1Client × List Sv1Event}
    (h : ∀ client, world.clients id = some client →
      TellsDifficulty (latest difficultyOf (handler client).2) client (handler client).1) :
    TellsAll world (world.update id handler) := by
  unfold Sv1World.update
  split
  · exact tellsAll_silent
  · rename_i client hclient
    exact tellsAll_setClient hclient (h client hclient)

theorem tellsAll_handle {handler : StratumV1Client → StratumV1Client × List Sv1Event}
    (h : ∀ client, world.clients id = some client →
      TellsDifficulty (latest difficultyOf (handler client).2) client (handler client).1) :
    TellsAll world (world.handle id handler) := by
  refine tellsAll_update fun client hclient => ?_
  by_cases hclosed : client.connectionClosed = true
  · simp only [if_pos hclosed]
    exact .rfl
  · simp only [if_neg hclosed]
    exact h client hclient

end

section
variable (host : Externals) (config : Sv1Config)

/-- An input of the pool that is no submission and no suggestion. -/
theorem sv1Step_tells {world : AwaitWorld} {history : List (ℕ × Sv1Event)} {input : Sv1Input}
    (hcond : NoLateRaise host config world history (.begin input))
    (hsubmit : ∀ id params result fault, input ≠ .submit id params result fault)
    (hsuggest : ∀ id difficulty, input ≠ .suggestDifficulty id difficulty) :
    TellsAll world.pool (sv1Step host config world.pool input) := by
  cases input with
  | connect id payoutMode accountingProtocol =>
    intro c
    simp only [sv1Step]
    split
    · rename_i hnone
      by_cases hc : c = id
      · subst hc
        simp only [Sv1World.setClient, if_true, hnone]
        exact .connected ..
      · simp only [Sv1World.setClient, if_neg hc]
        exact .refl (fun _ => .rfl) _
    · exact .refl (fun _ => .rfl) _
  | disconnect id =>
    refine tellsAll_update fun client _ => ?_
    exact SameSession.tells ⟨rfl, rfl, rfl⟩
  | template template now =>
    intro c
    simp only [sv1Step]
    cases world.pool.clients c with
    | none => exact .absent
    | some client => exact .step (sameSession_receiveTemplate _ now).tells
  | subscribe id randomHex =>
    refine tellsAll_handle fun client _ => ?_
    exact SameSession.maybeInit ⟨rfl, rfl, rfl⟩ rfl
  | authorize id user startingDiff =>
    refine tellsAll_handle fun client hclient => ?_
    exact tells_handleAuthorize host config (hcond client hclient)
  | suggestDifficulty id difficulty => exact absurd rfl (hsuggest id difficulty)
  | setPayout id address worker now =>
    refine tellsAll_handle fun client _ => ?_
    exact tells_handleSetPayout host config _ address worker now
  | subscribeTemplates id =>
    refine tellsAll_update fun client _ => ?_
    exact (sameSession_subscribeTemplates _).tells
  | checkDifficulty id suggested now =>
    refine tellsAll_update fun client _ => ?_
    exact tells_difficultyTimer config _ suggested now
  | sendJob id k inserted sent now =>
    simp only [sv1Step]
    split
    · exact tellsAll_silent
    · rename_i client hclient
      exact tellsAll_setClient hclient (tells_sendNewMiningJob ..)
  | submit id params result fault => exact absurd rfl (hsubmit id params result fault)

end

/-! ### The invariant -/

/-- The target of every connection is that of its difficulty. -/
def TargetsMatch (pool : Sv1World) : Prop :=
  ∀ id client, pool.clients id = some client →
    client.sessionDifficultyTarget = difficultyToTarget client.sessionDifficulty

/-- A connection that has been told a difficulty was told its own last, and submissions are
validated on connections that have begun. -/
structure AnnouncedInv (world : AwaitWorld) (history : List (ℕ × Sv1Event)) : Prop where
  target : TargetsMatch world.pool
  told : ∀ id client, world.pool.clients id = some client → Told client →
    lastDifficulty id history = some client.sessionDifficulty
  begun : ∀ id params, .submitValidation params ∈ world.suspended id →
    ∃ client, world.pool.clients id = some client ∧ client.stratumInitialized = true

section
variable {host : Externals} {config : Sv1Config} {world : AwaitWorld}
  {history : List (ℕ × Sv1Event)}

theorem announcedInv_initial : AnnouncedInv .initial [] where
  target _ _ hclient := absurd hclient.symm (Option.some_ne_none _)
  told _ _ hclient := absurd hclient.symm (Option.some_ne_none _)
  begun _ _ hcall := absurd hcall List.not_mem_nil

/-- A step moves a target together with its difficulty. -/
theorem TargetsMatch.move (h : TargetsMatch world.pool) {input : AwaitInput} {pool : Sv1World}
    (hmove : ∀ id, ClientRel (MovesDifficulty host config world input id) (world.pool.clients id)
      (pool.clients id)) : TargetsMatch pool := by
  intro id client' hclient'
  have hrel := hmove id
  rw [hclient'] at hrel
  cases hclient : world.pool.clients id with
  | none =>
    rw [hclient] at hrel
    cases hrel
    rfl
  | some client =>
    rw [hclient] at hrel
    cases hrel with
    | step hmoves =>
      rcases hmoves with hkeeps | ⟨difficulty, -, hsets⟩
      · rw [hkeeps.target, hkeeps.session]
        exact h id client hclient
      · rw [hsets.target, hsets.session]

variable {id : ℕ} {client : StratumV1Client}

theorem TargetsMatch.setClient (h : TargetsMatch world.pool)
    (hclient : client.sessionDifficultyTarget = difficultyToTarget client.sessionDifficulty) :
    TargetsMatch (world.pool.setClient id client) := by
  intro c client' hclient'
  by_cases hc : c = id
  · subst hc
    simp only [Sv1World.setClient, if_true] at hclient'
    obtain rfl := Option.some.inj hclient'
    exact hclient
  · simp only [Sv1World.setClient, if_neg hc] at hclient'
    exact h c client' hclient'

/-- A step of the pool keeps the invariant if it tells what it moves. -/
theorem AnnouncedInv.move (h : AnnouncedInv world history) {pool : Sv1World}
    {events : List (ℕ × Sv1Event)} (htarget : TargetsMatch pool)
    (htells : TellsAll world.pool (pool, events)) :
    AnnouncedInv { world with pool } (history ++ events) where
  target := htarget
  told id client' hclient' htold := by
    have hrel := htells id
    rw [show pool.clients id = some client' from hclient'] at hrel
    cases hclient : world.pool.clients id with
    | none =>
      rw [hclient] at hrel
      cases hrel
      rcases htold with hinitialized | hsuggested
      · cases hinitialized
      · cases hsuggested
    | some client =>
      rw [hclient] at hrel
      cases hrel with
      | step hmoves =>
        rcases hmoves.tells with hannounced | ⟨hsilent, hsame⟩
        · exact latest_append_of_some hannounced
        · obtain ⟨htold', hsession⟩ := hsame htold
          rw [hsession]
          exact (latest_append_of_none hsilent).trans (h.told id client hclient htold')
  begun id params hcall := by
    obtain ⟨client, hclient, hinitialized⟩ := h.begun id params hcall
    have hrel := htells id
    rw [hclient] at hrel
    cases hclient' : pool.clients id with
    | none =>
      rw [hclient'] at hrel
      cases hrel
    | some client' =>
      rw [hclient'] at hrel
      cases hrel with
      | step hmoves => exact ⟨client', rfl, hmoves.initialized hinitialized⟩

/-- The calls of a connection may change as long as submissions are validated once it has
begun. -/
theorem AnnouncedInv.setSuspended (h : AnnouncedInv world history) {suspended : List Suspended}
    (hnew : ∀ params, .submitValidation params ∈ suspended →
      ∃ client, world.pool.clients id = some client ∧ client.stratumInitialized = true) :
    AnnouncedInv (world.setSuspended id suspended) history where
  target := h.target
  told := h.told
  begun id' params hcall := by
    by_cases hid : id' = id
    · subst hid
      simp only [AwaitWorld.setSuspended, if_true] at hcall
      exact hnew params hcall
    · simp only [AwaitWorld.setSuspended, if_neg hid] at hcall
      exact h.begun id' params hcall

theorem AnnouncedInv.beginSubmit (h : AnnouncedInv world history) (id : ℕ)
    (params : List JsonValue) : AnnouncedInv (world.beginSubmit id params) history := by
  unfold AwaitWorld.beginSubmit
  split
  · rename_i client hclient
    split
    · exact h
    · split
      · -- the socket ends, and nothing else
        have htarget : TargetsMatch (world.pool.setClient id client.endSocket) :=
          h.target.setClient (h.target id client hclient)
        have htells : TellsAll world.pool
            (world.pool.setClient id client.endSocket, ([] : List Sv1Event).map (id, ·)) :=
          tellsAll_setClient hclient (SameSession.tells ⟨rfl, rfl, rfl⟩)
        have hmoved := h.move htarget htells
        rwa [List.map_nil, List.append_nil] at hmoved
      · rename_i hinitialized
        have hbegun : client.stratumInitialized = true := by simpa using hinitialized
        refine h.setSuspended fun params' hcall => ?_
        exact ⟨client, hclient, hbegun⟩
  · exact h

theorem AnnouncedInv.beginSuggestDifficulty (h : AnnouncedInv world history) (id : ℕ)
    (suggestedDifficulty : ℚ) :
    AnnouncedInv (world.beginSuggestDifficulty id suggestedDifficulty) history := by
  unfold AwaitWorld.beginSuggestDifficulty
  split
  · split
    · exact h
    · refine h.setSuspended fun params hcall => ?_
      rw [List.mem_append, List.mem_singleton] at hcall
      rcases hcall with hold | hnew
      · exact h.begun id params hold
      · cases hnew
  · exact h

/-- A suspended call that goes on keeps the invariant. -/
theorem AnnouncedInv.resume (h : AnnouncedInv world history) (id k : ℕ) (succeeded : Bool)
    (answer : Option String) :
    AnnouncedInv (world.resume host config id k succeeded answer).1
      (history ++ (world.resume host config id k succeeded answer).2) := by
  unfold AwaitWorld.resume
  split
  · rename_i client call hclient hcall
    obtain ⟨client', next, events, hresumed⟩ : ∃ client' next events,
        client.resume host config world.pool.service succeeded answer call
          = (client', next, events) := ⟨_, _, _, rfl⟩
    have hmoves : let resumed :=
          client.resume host config world.pool.service succeeded answer call
        Resumes host config client call resumed.1 resumed.2.1 resumed.2.2 := resumes ..
    have htells : let resumed :=
          client.resume host config world.pool.service succeeded answer call
        ResumesTelling client resumed.1 resumed.2.1 resumed.2.2 := resumesTelling ..
    rw [hresumed] at hmoves htells
    simp only [hresumed]
    have htarget : client'.sessionDifficultyTarget
        = difficultyToTarget client'.sessionDifficulty := by
      rcases hmoves.difficulty with hkeeps | ⟨suggestedDifficulty, -, hsets⟩
      · rw [hkeeps.target, hkeeps.session]
        exact h.target id client hclient
      · rw [hsets.target, hsets.session]
    have hmoved := h.move (h.target.setClient htarget) (tellsAll_setClient hclient htells.tells)
    refine hmoved.setSuspended fun params hmem => ?_
    -- what is left of the call is no validation, so the others are old ones
    rw [List.mem_append, Option.mem_toList] at hmem
    rcases hmem with hrest | hnext
    · exact hmoved.begun id params (List.mem_of_mem_eraseIdx hrest)
    · exact absurd hnext (htells.next params)
  · rw [List.append_nil]
    exact h

/-- An input of the pool that is no submission and no suggestion. -/
theorem AnnouncedInv.poolStep (h : AnnouncedInv world history) {input : Sv1Input}
    (hcond : NoLateRaise host config world history (.begin input))
    (hsubmit : ∀ id params result fault, input ≠ .submit id params result fault)
    (hsuggest : ∀ id difficulty, input ≠ .suggestDifficulty id difficulty) :
    AnnouncedInv { world with pool := (sv1Step host config world.pool input).1 }
      (history ++ (sv1Step host config world.pool input).2) :=
  h.move (h.target.move (sv1Step_difficulty host config hsubmit hsuggest))
    (sv1Step_tells host config hcond hsubmit hsuggest)

/-- One step keeps the invariant. -/
theorem AnnouncedInv.step (h : AnnouncedInv world history) {input : AwaitInput}
    (hcond : NoLateRaise host config world history input) :
    AnnouncedInv (awaitStep host config world input).1
      (history ++ (awaitStep host config world input).2) := by
  have hnothing {world' : AwaitWorld} (h' : AnnouncedInv world' history) :
      AnnouncedInv world' (history ++ []) := by
    rwa [List.append_nil]
  cases input with
  | resume id k succeeded answer => exact h.resume id k succeeded answer
  | begin input =>
    cases input with
    | submit id params result fault =>
      exact hnothing (h.beginSubmit id params)
    | suggestDifficulty id difficulty => exact hnothing (h.beginSuggestDifficulty id difficulty)
    | _ =>
      refine h.poolStep hcond ?_ ?_
      · rintro _ _ _ _ ⟨⟩
      · rintro _ _ ⟨⟩

/-- A submission on a live job is refused for its difficulty only if its hash misses the target of
the connection. -/
theorem not_mem_resumeSubmitValidation {service : StratumV1JobsService} {params : List JsonValue}
    {submission : MiningSubmitMessage} {job : MiningJob} {jobTemplate : JobTemplate}
    {header : Bytes} (hparams : MiningSubmitMessage.ofParams params = some submission)
    (hjob : service.getJobById submission.jobId = some job)
    (htemplate : service.getJobTemplateById job.jobTemplateId = some jobTemplate)
    (hheader : client.headerOf host job jobTemplate submission = some header)
    (hmeets : meetsTarget (host.hash256 header).bytes client.sessionDifficultyTarget = true)
    (succeeded : Bool) :
    .errorResponse .lowDifficultyShare "Difficulty too low"
      ∉ (client.resumeSubmitValidation host service params succeeded).2.2 := by
  have hverdict : client.judgeSubmission host service submission = .duplicate ∨
      client.judgeSubmission host service submission = .accepted job jobTemplate header := by
    simp only [judgeSubmission, hjob, htemplate, hheader, hmeets, if_true]
    by_cases hseen : submission.submissionHash ∈ client.miningSubmissionHashes
    · exact Or.inl (if_pos hseen)
    · exact Or.inr (if_neg hseen)
  rcases hverdict with hduplicate | haccepted
  · simp only [resumeSubmitValidation, hparams, hduplicate]
    cases succeeded with
    | false => simp
    | true => simp
  · simp [resumeSubmitValidation, hparams, haccepted]

/-- In a state that keeps the invariant, a submission is honoured. -/
theorem AnnouncedInv.honours (h : AnnouncedInv world history) {input : AwaitInput}
    (hcond : NoLateRaise host config world history input) :
    Sv1Honoured host config world history input := by
  intro live hlive difficulty hdifficulty hmeets
  cases input with
  | begin input => cases hlive
  | resume id k succeeded answer =>
    have hlive' := hlive
    simp only [liveSubmission, Option.mem_def] at hlive'
    split at hlive'
    · rename_i client params hclient hcall
      simp only [Option.bind_eq_bind, Option.bind_eq_some_iff, Option.pure_def,
        Option.some.injEq] at hlive'
      obtain ⟨submission, hparams, job, hjob, jobTemplate, htemplate, header, hheader, rfl⟩ := hlive'
      obtain ⟨client', hclient', hbegun⟩ := h.begun id params (List.mem_of_getElem? hcall)
      obtain rfl : client = client' := Option.some.inj (hclient.symm.trans hclient')
      -- the difficulty of the connection is the one announced last, which is no higher
      have hlast := h.told id client hclient (Or.inl hbegun)
      have hle := hcond _ hlive difficulty hdifficulty _ hlast
      have htarget : meetsTarget (host.hash256 header).bytes client.sessionDifficultyTarget = true := by
        rw [h.target id client hclient]
        exact meetsTarget_of_le hle (host.hash256 header).length_eq hmeets
      intro hmem
      simp only [awaitStep, AwaitWorld.resume, hclient, hcall, StratumV1Client.resume] at hmem
      obtain ⟨event, hevent, heq⟩ := List.mem_map.mp hmem
      obtain ⟨-, rfl⟩ := Prod.mk.inj heq
      exact not_mem_resumeSubmitValidation hparams hjob htemplate hheader htarget succeeded hevent
    · cases hlive'

end

/-- In every run that meets the condition, a Stratum V1 miner is held to what it was told. -/
theorem along_sv1Honoured (host : Externals) (config : Sv1Config) {inputs : List AwaitInput}
    (hcond : (awaitMachine host config).Along (NoLateRaise host config) .initial [] inputs) :
    (awaitMachine host config).Along (Sv1Honoured host config) .initial [] inputs := by
  have hstep (world : AwaitWorld) (history : List (ℕ × Sv1Event)) (input : AwaitInput)
      (hinv : AnnouncedInv world history) (hinput : NoLateRaise host config world history input) :
      Sv1Honoured host config world history input ∧
        AnnouncedInv ((awaitMachine host config).step world input).1
          (history ++ ((awaitMachine host config).step world input).2) :=
    ⟨hinv.honours hinput, hinv.step hinput⟩
  exact Machine.along_of_invariant _ hstep announcedInv_initial hcond

end PublicPool.Proofs
