import PublicPool.Sv1.Service

/-!
# `PublicPool.Proofs.Sv1.Steps`: the steps of the Stratum V1 connections

The jobs of all connections live in one jobs service. `sv1Step_service` and `sv1Step_clients`
say once what a step does to the service and to the connections, `sv1Step_records` what it
records. `Sv1Inv` is the invariant of every run: ids are never used twice, and every live job
was built by a connection for an identity and from a template that the service still has
under the same id.
-/

set_option autoImplicit false

namespace PublicPool.Proofs

open Sv1 Sv1.StratumV1Client
open Lib (Machine)

/-! ### What a step does to a connection -/

/-- A template for work of a connection's own: it differs in time and clear flag only. -/
def Refreshes (refreshed jobTemplate : JobTemplate) : Prop :=
  ∃ timestamp clearJobs, refreshed =
    { jobTemplate with
      block := { jobTemplate.block with timestamp }
      blockData := { jobTemplate.blockData with clearJobs } }

theorem Refreshes.rfl {jobTemplate : JobTemplate} : Refreshes jobTemplate jobTemplate :=
  ⟨jobTemplate.block.timestamp, jobTemplate.blockData.clearJobs, Eq.refl _⟩

theorem refreshes_refreshJobTemplate (client : StratumV1Client) (jobTemplate : JobTemplate)
    (now : ℕ) : Refreshes (client.refreshJobTemplate jobTemplate now) jobTemplate :=
  ⟨_, _, rfl⟩

/-- What any step keeps of a connection: its mode, its session id once drawn, and that it is
closed. An initialized connection has a session id, the templates that wait come from the latest
template, and submissions are forgotten only when the connection closes or when the step is a
`clearing` one. -/
structure ClientStep (latestTemplate : Option JobTemplate) (clearing : Prop)
    (client client' : StratumV1Client) : Prop where
  payoutMode : client'.payoutMode = client.payoutMode
  session : client.extraNonceAndSessionId.isSome →
    client'.extraNonceAndSessionId = client.extraNonceAndSessionId
  initialized : client'.stratumInitialized = true →
    client.stratumInitialized = true ∨ client'.extraNonceAndSessionId.isSome
  closed : client.connectionClosed = true → client'.connectionClosed = true
  pending : ∀ t ∈ client'.pendingJobs, t ∈ client.pendingJobs ∨
    ∃ jobTemplate ∈ latestTemplate, Refreshes t jobTemplate
  hashes : client'.connectionClosed = true ∨
    client.miningSubmissionHashes ⊆ client'.miningSubmissionHashes ∨ clearing

section
variable {latestTemplate : Option JobTemplate} {clearing : Prop}
  {client client' client'' : StratumV1Client}

/-- A step that leaves everything that matters alone. -/
theorem ClientStep.of_eq (hmode : client'.payoutMode = client.payoutMode)
    (hsession : client'.extraNonceAndSessionId = client.extraNonceAndSessionId)
    (hinit : client'.stratumInitialized = client.stratumInitialized)
    (hclosed : client.connectionClosed = true → client'.connectionClosed = true)
    (hpending : client'.pendingJobs = client.pendingJobs)
    (hhashes : client'.connectionClosed = true ∨
      client.miningSubmissionHashes ⊆ client'.miningSubmissionHashes) :
    ClientStep latestTemplate clearing client client' where
  payoutMode := hmode
  session _ := hsession
  initialized h := Or.inl (hinit ▸ h)
  closed := hclosed
  pending _ ht := Or.inl (hpending ▸ ht)
  hashes := hhashes.imp_right Or.inl

theorem ClientStep.rfl : ClientStep latestTemplate clearing client client :=
  .of_eq (Eq.refl _) (Eq.refl _) (Eq.refl _) id (Eq.refl _) (Or.inr (List.Subset.refl _))

theorem ClientStep.trans (h : ClientStep latestTemplate clearing client client')
    (h' : ClientStep latestTemplate clearing client' client'') :
    ClientStep latestTemplate clearing client client'' where
  payoutMode := h'.payoutMode.trans h.payoutMode
  session hs := (h'.session (h.session hs ▸ hs)).trans (h.session hs)
  initialized hi := by
    rcases h'.initialized hi with hi | hs
    · rcases h.initialized hi with hi | hs
      · exact Or.inl hi
      · exact Or.inr (h'.session hs ▸ hs)
    · exact Or.inr hs
  closed hc := h'.closed (h.closed hc)
  pending t ht := (h'.pending t ht).elim (h.pending t) Or.inr
  hashes := by
    rcases h'.hashes with hc | hsub' | hclear
    · exact Or.inl hc
    · rcases h.hashes with hc | hsub | hclear
      · exact Or.inl (h'.closed hc)
      · exact Or.inr (Or.inl (List.Subset.trans hsub hsub'))
      · exact Or.inr (Or.inr hclear)
    · exact Or.inr (Or.inr hclear)

/-- A step that changes other fields only. -/
theorem ClientStep.of_kept (hmode : client'.payoutMode = client.payoutMode)
    (hsession : client'.extraNonceAndSessionId = client.extraNonceAndSessionId)
    (hinit : client'.stratumInitialized = client.stratumInitialized)
    (hclosed : client'.connectionClosed = client.connectionClosed)
    (hpending : client'.pendingJobs = client.pendingJobs)
    (hhashes : client'.miningSubmissionHashes = client.miningSubmissionHashes) :
    ClientStep latestTemplate clearing client client' :=
  .of_eq hmode hsession hinit (hclosed ▸ ·) hpending (Or.inr (hhashes ▸ List.Subset.refl _))

/-- A step that closes the connection. -/
theorem ClientStep.of_closed (hmode : client'.payoutMode = client.payoutMode)
    (hsession : client'.extraNonceAndSessionId = client.extraNonceAndSessionId)
    (hinit : client'.stratumInitialized = client.stratumInitialized)
    (hpending : client'.pendingJobs = client.pendingJobs)
    (hclosed : client'.connectionClosed = true) :
    ClientStep latestTemplate clearing client client' :=
  .of_eq hmode hsession hinit (fun _ => hclosed) hpending (Or.inl hclosed)

/-- A step that only adds templates to the waiting ones. -/
theorem ClientStep.of_pending {pendingJobs : List JobTemplate} {awaitingTemplate : ℕ}
    (h : ∀ t ∈ pendingJobs, t ∈ client.pendingJobs ∨
      ∃ jobTemplate ∈ latestTemplate, Refreshes t jobTemplate) :
    ClientStep latestTemplate clearing client
      { client with pendingJobs := pendingJobs, awaitingTemplate := awaitingTemplate } where
  payoutMode := Eq.refl _
  session _ := Eq.refl _
  initialized := Or.inl
  closed := id
  pending := h
  hashes := Or.inr (Or.inl (List.Subset.refl _))

/-- The end of a handler keeps what its body keeps. -/
theorem ClientStep.maybeInit (h : ClientStep latestTemplate clearing client client')
    (events : List Sv1Event) :
    ClientStep latestTemplate clearing client (client'.maybeInitStratum events).1 := by
  refine h.trans ?_
  unfold maybeInitStratum
  split
  · rename_i hready
    simp only [Bool.and_eq_true] at hready
    exact ⟨Eq.refl _, fun _ => Eq.refl _, fun _ => Or.inr hready.1.1, id, fun _ ht => Or.inl ht,
      Or.inr (Or.inl (List.Subset.refl _))⟩
  · exact .rfl

theorem ClientStep.pushRefreshed (h : ClientStep latestTemplate clearing client client') (now : ℕ) :
    ClientStep latestTemplate clearing client (client'.pushRefreshedJob latestTemplate now) := by
  refine h.trans ?_
  cases latestTemplate with
  | none => exact .of_pending fun _ ht => Or.inl ht
  | some jobTemplate =>
    refine .of_pending ?_
    intro t ht
    rw [List.mem_append, List.mem_singleton] at ht
    cases ht with
    | inl ht => exact Or.inl ht
    | inr ht => exact Or.inr ⟨jobTemplate, Eq.refl _, ht ▸ refreshes_refreshJobTemplate ..⟩

theorem clientStep_onTemplate {jobTemplate : JobTemplate}
    (hclear : jobTemplate.blockData.clearJobs = true → clearing) :
    ClientStep (some jobTemplate) clearing client (client.onTemplate jobTemplate) := by
  refine ⟨rfl, fun _ => rfl, Or.inl, id, ?_, Or.inr ?_⟩
  · intro t ht
    simp only [onTemplate, List.mem_append, List.mem_singleton] at ht
    rcases ht with ht | rfl
    · exact Or.inl ht
    · exact Or.inr ⟨t, rfl, Refreshes.rfl⟩
  · cases hflag : jobTemplate.blockData.clearJobs with
    | true => exact Or.inr (hclear hflag)
    | false =>
      left
      simp only [onTemplate, hflag, Bool.false_eq_true, if_false]
      exact List.Subset.refl _

theorem clientStep_receiveTemplate {jobTemplate : JobTemplate}
    (hclear : jobTemplate.blockData.clearJobs = true → clearing) (now : ℕ) :
    ClientStep (some jobTemplate) clearing client (client.receiveTemplate jobTemplate now) := by
  have hfirst : ClientStep (some jobTemplate) clearing client
      (if client.stratumSubscription then client.onTemplate jobTemplate else client) := by
    split
    · exact clientStep_onTemplate hclear
    · exact .rfl
  refine hfirst.trans (.of_pending ?_)
  intro t ht
  rw [List.mem_append] at ht
  rcases ht with ht | ht
  · exact Or.inl ht
  · rw [List.eq_of_mem_replicate ht]
    exact Or.inr ⟨jobTemplate, rfl, refreshes_refreshJobTemplate ..⟩

theorem clientStep_handleSubscribe (randomHex : String) :
    ClientStep latestTemplate clearing client (client.handleSubscribe randomHex).1 := by
  unfold handleSubscribe
  refine ClientStep.maybeInit ?_ _
  refine ⟨rfl, ?_, Or.inl, id, fun t ht => Or.inl ht, Or.inr (Or.inl (List.Subset.refl _))⟩
  intro hs
  obtain ⟨session, hsession⟩ := Option.isSome_iff_exists.mp hs
  simp only [hsession, Option.getD_some]

variable (host : Externals) (config : Sv1Config) (now : ℕ) (suggested : Option ℚ)

theorem clientStep_handleAuthorize (user : String) (startingDiff : Option ℚ) :
    ClientStep latestTemplate clearing client
      (client.handleAuthorize host config user startingDiff).1 := by
  unfold handleAuthorize
  split
  · exact ClientStep.rfl.maybeInit _
  · refine ClientStep.maybeInit ?_ _
    split
    · split <;> exact .of_kept rfl rfl rfl rfl rfl rfl
    · exact .of_kept rfl rfl rfl rfl rfl rfl

theorem clientStep_handleSuggestDifficulty (suggestedDifficulty : ℚ) :
    ClientStep latestTemplate clearing client
      (client.handleSuggestDifficulty config suggestedDifficulty).1 := by
  unfold handleSuggestDifficulty
  split
  · exact .rfl
  · refine ClientStep.maybeInit ?_ _
    exact .of_kept rfl rfl rfl rfl rfl rfl

theorem clientStep_handleSetPayout (address : String) (worker : Option String) (now : ℕ) :
    ClientStep latestTemplate clearing client
      (client.handleSetPayout host config latestTemplate address worker now).1 := by
  unfold handleSetPayout
  split
  · exact ClientStep.rfl.maybeInit _
  · refine ClientStep.maybeInit ?_ _
    split
    · refine ClientStep.pushRefreshed ?_ now
      exact .of_kept rfl rfl rfl rfl rfl rfl
    · exact .of_kept rfl rfl rfl rfl rfl rfl

theorem clientStep_checkDifficulty (now : ℕ) :
    ClientStep latestTemplate clearing client
      (client.checkDifficulty config latestTemplate suggested now).1 := by
  unfold checkDifficulty
  split
  · exact .rfl
  · simp only
    split
    · exact .rfl
    · refine ClientStep.pushRefreshed ?_ now
      exact .of_kept rfl rfl rfl rfl rfl rfl

theorem clientStep_difficultyTimer (now : ℕ) :
    ClientStep latestTemplate clearing client
      (client.difficultyTimer config latestTemplate suggested now).1 := by
  unfold difficultyTimer
  split
  · exact clientStep_checkDifficulty config suggested now
  · exact .rfl

theorem clientStep_subscribeTemplates
    (hclear : client.subscribesNow = true →
      ∀ jobTemplate ∈ latestTemplate, jobTemplate.blockData.clearJobs = true → clearing) :
    ClientStep latestTemplate clearing client (client.subscribeTemplates latestTemplate) := by
  unfold subscribeTemplates
  split
  · rename_i hsubscribes
    cases latestTemplate with
    | none => exact .of_kept rfl rfl rfl rfl rfl rfl
    | some jobTemplate =>
      refine ClientStep.trans ?_ (clientStep_onTemplate (hclear hsubscribes jobTemplate rfl))
      exact .of_kept rfl rfl rfl rfl rfl rfl
  · exact .rfl

theorem clientStep_sendNewMiningJob (service : StratumV1JobsService) (k : ℕ) (inserted sent : Bool)
    (now : ℕ) :
    ClientStep latestTemplate clearing client
      (client.sendNewMiningJob host config service k inserted sent now).2.1 := by
  -- the template leaves the waiting ones, whatever becomes of it
  have herase : ClientStep latestTemplate clearing client
      { client with pendingJobs := client.pendingJobs.eraseIdx k } :=
    ⟨rfl, fun _ => rfl, Or.inl, id, fun t ht => Or.inl (List.mem_of_mem_eraseIdx ht),
      Or.inr (Or.inl (List.Subset.refl _))⟩
  unfold sendNewMiningJob
  split
  · simp only
    split
    · exact herase.trans (.of_closed rfl rfl rfl rfl rfl)
    · split
      · exact herase.trans (.of_closed rfl rfl rfl rfl rfl)
      · split
        · exact herase.trans (.of_kept rfl rfl rfl rfl rfl rfl)
        · exact herase.trans (.of_closed rfl rfl rfl rfl rfl)
  · exact .rfl

theorem clientStep_handleMiningSubmission (service : StratumV1JobsService)
    (submission : MiningSubmitMessage) (blockSubmissionResult : Option String)
    (fault : Option SubmitFault) :
    ClientStep latestTemplate clearing client
      (client.handleMiningSubmission host service submission blockSubmissionResult fault).1 := by
  have hremember (verdict : SubmissionVerdict) :
      ClientStep latestTemplate clearing client (client.remember submission verdict) := by
    have hadd : ClientStep latestTemplate clearing client
        { client with
          miningSubmissionHashes :=
            client.miningSubmissionHashes ++ [submission.submissionHash] } :=
      .of_eq rfl rfl rfl id rfl (Or.inr (List.subset_append_left _ _))
    cases verdict with
    | jobNotFound message => exact .rfl
    | duplicate => exact .rfl
    | threw => exact hadd
    | lowDifficulty => exact hadd
    | accepted job jobTemplate header => exact hadd
  have hclosed (verdict : SubmissionVerdict) {client'' : StratumV1Client}
      (h : client'' = (client.remember submission verdict).destroy ∨
        client'' = (client.remember submission verdict).endSocket) :
      ClientStep latestTemplate clearing client client'' := by
    rcases h with rfl | rfl
    · exact (hremember verdict).trans (.of_closed rfl rfl rfl rfl rfl)
    · exact (hremember verdict).trans (.of_closed rfl rfl rfl rfl rfl)
  simp only [handleMiningSubmission]
  split
  iterate 3
    · split
      · exact hclosed _ (Or.inl rfl)
      · exact hremember _
  · exact hclosed _ (Or.inr rfl)
  · split
    · exact hclosed _ (Or.inl rfl)
    · simp only
      split
      · exact hclosed _ (Or.inr rfl)
      · exact hremember _

theorem clientStep_handleSubmit (service : StratumV1JobsService) (params : List JsonValue)
    (blockSubmissionResult : Option String) (fault : Option SubmitFault) :
    ClientStep latestTemplate clearing client
      (client.handleSubmit host service params blockSubmissionResult fault).1 := by
  unfold handleSubmit
  split
  · exact .of_closed rfl rfl rfl rfl rfl
  · split
    · exact .of_closed rfl rfl rfl rfl rfl
    · exact clientStep_handleMiningSubmission ..

end

/-- What a step makes of one connection: nothing, a new connection, or a step of it. -/
inductive ClientRel (R : StratumV1Client → StratumV1Client → Prop) :
    Option StratumV1Client → Option StratumV1Client → Prop
  | absent : ClientRel R none none
  | connected (payoutMode : PayoutMode) (accountingProtocol : ShareProtocol) :
    ClientRel R none (some (.initial payoutMode accountingProtocol))
  | step {client client' : StratumV1Client} (h : R client client') :
    ClientRel R (some client) (some client')

theorem ClientRel.refl {R : StratumV1Client → StratumV1Client → Prop}
    (hR : ∀ client, R client client) (client : Option StratumV1Client) :
    ClientRel R client client := by
  cases client with
  | none => exact .absent
  | some client => exact .step (hR client)

section
variable {R : StratumV1Client → StratumV1Client → Prop} (world : Sv1World)

theorem clients_setClient {id : ℕ} {client client' : StratumV1Client}
    (hclient : world.clients id = some client) (h : R client client')
    (hR : ∀ client, R client client) (c : ℕ) :
    ClientRel R (world.clients c) ((world.setClient id client').clients c) := by
  by_cases hc : c = id
  · subst hc
    simp only [Sv1World.setClient, if_true, hclient]
    exact .step h
  · simp only [Sv1World.setClient, if_neg hc]
    exact .refl hR _

theorem clients_update {id : ℕ} {handler : StratumV1Client → StratumV1Client × List Sv1Event}
    (h : ∀ client, world.clients id = some client → R client (handler client).1)
    (hR : ∀ client, R client client) (c : ℕ) :
    ClientRel R (world.clients c) ((world.update id handler).1.clients c) := by
  unfold Sv1World.update
  split
  · exact .refl hR _
  · rename_i client hclient
    exact clients_setClient world hclient (h client hclient) hR c

theorem clients_update_of_ne {id c : ℕ} (hc : c ≠ id)
    (handler : StratumV1Client → StratumV1Client × List Sv1Event) :
    (world.update id handler).1.clients c = world.clients c := by
  unfold Sv1World.update
  split
  · rfl
  · simp only [Sv1World.setClient, if_neg hc]

theorem clients_handle {handler : StratumV1Client → StratumV1Client × List Sv1Event}
    (h : ∀ client, R client (handler client).1) (hR : ∀ client, R client client) (id c : ℕ) :
    ClientRel R (world.clients c) ((world.handle id handler).1.clients c) := by
  refine clients_update world ?_ hR c
  intro client _
  by_cases hclosed : client.connectionClosed = true
  · simp only [if_pos hclosed]
    exact hR client
  · simp only [if_neg hclosed]
    exact h client

theorem service_update (id : ℕ)
    (handler : StratumV1Client → StratumV1Client × List Sv1Event) :
    (world.update id handler).1.service = world.service := by
  unfold Sv1World.update
  split <;> rfl

end

section
variable (host : Externals) (config : Sv1Config) (world : Sv1World) (input : Sv1Input)

/-- The steps that may make an open connection forget its submissions: a template that clears
jobs, and the connection's own subscription to one. -/
def Clears (c : ℕ) : Sv1Input → Prop
  | .template template _ => template.blockData.clearJobs = true
  | .subscribeTemplates id => id = c ∧
    (∃ client ∈ world.clients id, client.subscribesNow = true) ∧
      ∃ jobTemplate ∈ world.service.latestTemplate, jobTemplate.blockData.clearJobs = true
  | _ => False

/-- What a step does to the connections. -/
theorem sv1Step_clients (c : ℕ) :
    ClientRel (ClientStep (sv1Step host config world input).1.service.latestTemplate
      (Clears world c input)) (world.clients c)
      ((sv1Step host config world input).1.clients c) := by
  have hrfl (latestTemplate : Option JobTemplate) (clearing : Prop) (client : StratumV1Client) :
      ClientStep latestTemplate clearing client client := .rfl
  cases input with
  | connect id payoutMode accountingProtocol =>
    simp only [sv1Step]
    split
    · rename_i hnone
      by_cases hc : c = id
      · subst hc
        simp only [Sv1World.setClient, if_true, hnone]
        exact .connected ..
      · simp only [Sv1World.setClient, if_neg hc]
        exact .refl (hrfl _ _) _
    · exact .refl (hrfl _ _) _
  | disconnect id => exact clients_update world (fun _ _ => .of_closed rfl rfl rfl rfl rfl) (hrfl _ _) c
  | template template now =>
    simp only [sv1Step]
    cases world.clients c with
    | none => exact .absent
    | some client => exact .step (clientStep_receiveTemplate id now)
  | subscribe id randomHex =>
    exact clients_handle world (fun client => clientStep_handleSubscribe randomHex) (hrfl _ _) id c
  | authorize id user startingDiff =>
    exact clients_handle world
      (fun client => clientStep_handleAuthorize host config user startingDiff) (hrfl _ _) id c
  | suggestDifficulty id suggestedDifficulty =>
    exact clients_handle world
      (fun client => clientStep_handleSuggestDifficulty config suggestedDifficulty) (hrfl _ _) id c
  | setPayout id address worker now =>
    have hservice : (sv1Step host config world (.setPayout id address worker now)).1.service
        = world.service := service_update ..
    rw [hservice]
    exact clients_handle world
      (fun client => clientStep_handleSetPayout host config address worker now) (hrfl _ _) id c
  | subscribeTemplates id =>
    have hservice : (sv1Step host config world (.subscribeTemplates id)).1.service
        = world.service := service_update ..
    rw [hservice]
    by_cases hc : c = id
    · subst hc
      refine clients_update world ?_ (hrfl _ _) c
      intro client hclient
      refine clientStep_subscribeTemplates ?_
      intro hsubscribes jobTemplate hlatest hclear
      exact ⟨rfl, ⟨client, hclient, hsubscribes⟩, jobTemplate, hlatest, hclear⟩
    · have hsame := clients_update_of_ne world hc
        fun client => (client.subscribeTemplates world.service.latestTemplate, [])
      simp only [sv1Step, hsame]
      exact .refl (hrfl _ _) _
  | checkDifficulty id suggested now =>
    have hservice : (sv1Step host config world (.checkDifficulty id suggested now)).1.service
        = world.service := service_update ..
    rw [hservice]
    exact clients_update world
      (fun _ _ => clientStep_difficultyTimer config suggested now) (hrfl _ _) c
  | sendJob id k inserted sent now =>
    simp only [sv1Step]
    split
    · exact .refl (hrfl _ _) _
    · rename_i client hclient
      exact clients_setClient world hclient
        (clientStep_sendNewMiningJob host config world.service k inserted sent now) (hrfl _ _) c
  | submit id params blockSubmissionResult fault =>
    exact clients_handle world
      (fun client => clientStep_handleSubmit host world.service params blockSubmissionResult fault)
      (hrfl _ _) id c

/-- A job that a step builds: the `k`-th waiting template of a connection, for the identity in
force there. -/
structure BuildsJob (id k : ℕ) (client : StratumV1Client) (jobTemplate : JobTemplate)
    (authorization : UserIdentity) (now : ℕ) (job : MiningJob) : Prop where
  client_eq : world.clients id = some client
  pending_eq : client.pendingJobs[k]? = some jobTemplate
  authorization_eq : client.clientAuthorization = some authorization
  create_eq : MiningJob.create host config.network world.service.getNextId
    (getPayoutInformation client.payoutMode jobTemplate (client.inForce authorization).address)
    jobTemplate (some (client.inForce authorization).workerName) now = some job

/-- What a waiting template becomes: a job with its event, or nothing. -/
theorem sv1Step_sendJob (id k : ℕ) (inserted sent : Bool) (now : ℕ) :
    ((sv1Step host config world (.sendJob id k inserted sent now)).1.service = world.service ∧
      (sv1Step host config world (.sendJob id k inserted sent now)).2 = []) ∨
    (∃ client jobTemplate authorization job,
      BuildsJob host config world id k client jobTemplate authorization now job ∧
      (sv1Step host config world (.sendJob id k inserted sent now)).1.service
        = world.service.addJob job ∧
      (sv1Step host config world (.sendJob id k inserted sent now)).2
        = [(id, .jobBuilt job (client.inForce authorization))]) := by
  simp only [sv1Step]
  split
  · exact Or.inl ⟨rfl, rfl⟩
  · rename_i client hclient
    simp only [sendNewMiningJob]
    split
    · rename_i jobTemplate authorization hpending hauthorization
      split
      · exact Or.inl ⟨rfl, rfl⟩
      · split
        · exact Or.inl ⟨rfl, rfl⟩
        · rename_i job hcreate
          exact Or.inr ⟨client, jobTemplate, authorization, job,
            ⟨hclient, hpending, hauthorization, hcreate⟩, rfl, rfl⟩
    · exact Or.inl ⟨rfl, rfl⟩

/-- What a step does to the jobs service: nothing, a template, or a job with its event. -/
theorem sv1Step_service :
    (sv1Step host config world input).1.service = world.service ∨
    (∃ template now, input = .template template now ∧
      (sv1Step host config world input).1.service = world.service.publish template now) ∨
    (∃ id k inserted sent now client jobTemplate authorization job,
      input = .sendJob id k inserted sent now ∧
      BuildsJob host config world id k client jobTemplate authorization now job ∧
      (sv1Step host config world input).1.service = world.service.addJob job ∧
      (sv1Step host config world input).2 = [(id, .jobBuilt job (client.inForce authorization))]) := by
  cases input with
  | connect id payoutMode accountingProtocol =>
    left
    simp only [sv1Step]
    split <;> rfl
  | template template now => exact Or.inr (Or.inl ⟨template, now, rfl, rfl⟩)
  | sendJob id k inserted sent now =>
    rcases sv1Step_sendJob host config world id k inserted sent now with
      ⟨hsame, -⟩ | ⟨client, jobTemplate, authorization, job, hbuilds, hservice, hevents⟩
    · exact Or.inl hsame
    · exact Or.inr (Or.inr ⟨id, k, inserted, sent, now, client, jobTemplate, authorization, job,
        rfl, hbuilds, hservice, hevents⟩)
  | _ => exact Or.inl (service_update ..)

end

/-! ### What a step records -/

/-- The events that only answer the miner. -/
def isReply : Sv1Event → Bool
  | .response | .errorResponse .. | .setDifficulty _ => true
  | _ => false

section
variable (host : Externals)

/-- A record of an accepted share: the events that follow from it, with what they store. -/
def IsRecordOf (client : StratumV1Client) (submission : MiningSubmitMessage) (job : MiningJob)
    (jobTemplate : JobTemplate) (header : Bytes) : Sv1Event → Prop
  | .shareRecorded share submission' job' header' =>
    (∃ blockSubmissionResult, share = client.shareRecord host
      (recordedIdentity (client.clientAuthorization.getD ⟨"", ""⟩) job) job jobTemplate submission
      header blockSubmissionResult) ∧ submission' = submission ∧ job' = job ∧ header' = header
  | .blockSaved block job' =>
    recordedIdentity (client.clientAuthorization.getD ⟨"", ""⟩) job
      = ⟨block.minerAddress, block.worker⟩ ∧ job' = job
  | .finalizeCalled input coinbase =>
    client.payoutMode = .pplns ∧ input.payoutSnapshotId = jobTemplate.blockData.payoutSnapshotId ∧
      (job.copyAndUpdateBlock host jobTemplate (Js.parseInt16 submission.versionMask)
        (Js.parseInt16 submission.nonce) (client.extraNonceAndSessionId.getD "undefined").toList
        submission.extraNonce2.toList (Js.parseInt16 submission.ntime)).map Prod.fst
          = some coinbase
  | event => isReply event = true

variable {client : StratumV1Client} {submission : MiningSubmitMessage}
  {blockSubmissionResult : Option String} {fault : Option SubmitFault} {event : Sv1Event}

variable {job : MiningJob} {jobTemplate : JobTemplate} {header : Bytes}

theorem isRecordOf_submitBlock (h : event ∈ (client.submitBlock host
      (recordedIdentity (client.clientAuthorization.getD ⟨"", ""⟩) job) job jobTemplate submission
      blockSubmissionResult fault).1) :
    IsRecordOf host client submission job jobTemplate header event := by
  simp only [submitBlock] at h
  split at h
  · cases h
  · rename_i coinbase blockHex hblock
    have hsaved : IsRecordOf host client submission job jobTemplate header
        (.blockSaved (client.blockRecord (recordedIdentity
          (client.clientAuthorization.getD ⟨"", ""⟩) job) jobTemplate blockHex
          blockSubmissionResult) job) := ⟨rfl, rfl⟩
    have hfinalized : ∀ event ∈ client.finalizeEvents jobTemplate coinbase blockSubmissionResult,
        IsRecordOf host client submission job jobTemplate header event := by
      intro event hevent
      unfold finalizeEvents at hevent
      split at hevent
      · rename_i hmode
        rw [List.mem_singleton] at hevent
        subst hevent
        exact ⟨hmode, rfl, by rw [hblock]; rfl⟩
      · cases hevent
    split at h
    · cases h
    · split at h
      · rw [List.mem_singleton] at h
        exact h ▸ hsaved
      · rw [List.mem_cons] at h
        cases h with
        | inl h => exact h ▸ hsaved
        | inr h => exact hfinalized event h

theorem isRecordOf_acceptSubmission
    (h : event ∈ (client.acceptSubmission host submission job jobTemplate header
      blockSubmissionResult fault).1) :
    IsRecordOf host client submission job jobTemplate header event := by
  simp only [acceptSubmission] at h
  generalize hblock : (if isBlockCandidate host jobTemplate header = true then
      client.submitBlock host (recordedIdentity (client.clientAuthorization.getD ⟨"", ""⟩) job)
        job jobTemplate submission blockSubmissionResult fault
    else ([], false)) = block at h
  have hevents : ∀ event ∈ block.1,
      IsRecordOf host client submission job jobTemplate header event := by
    intro event hevent
    rw [← hblock] at hevent
    split at hevent
    · exact isRecordOf_submitBlock host hevent
    · cases hevent
  have hresponse : IsRecordOf host client submission job jobTemplate header .response := rfl
  split at h
  · rw [List.mem_cons] at h
    exact h.elim (· ▸ hresponse) (hevents event)
  · split at h
    · rw [List.mem_cons] at h
      exact h.elim (· ▸ hresponse) (hevents event)
    · rw [List.mem_append, List.mem_cons, List.mem_singleton] at h
      rcases h with (h | h) | h
      · exact h ▸ hresponse
      · exact hevents event h
      · exact h ▸ ⟨⟨blockSubmissionResult, rfl⟩, rfl, rfl, rfl⟩

/-- What a submission records follows from its acceptance. -/
theorem handleMiningSubmission_records {service : StratumV1JobsService}
    (h : event ∈ (client.handleMiningSubmission host service submission blockSubmissionResult
      fault).2) :
    isReply event = true ∨ ∃ job jobTemplate header,
      client.judgeSubmission host service submission = .accepted job jobTemplate header ∧
      IsRecordOf host client submission job jobTemplate header event := by
  simp only [handleMiningSubmission] at h
  split at h
  iterate 3
    · left
      split at h
      · cases h
      · rw [List.mem_singleton] at h
        subst h
        rfl
  · cases h
  · rename_i job jobTemplate header hverdict
    split at h
    · cases h
    · rw [hverdict] at h
      -- remembering the submission changes nothing that a record holds
      have hrecord : IsRecordOf host (client.remember submission (.accepted job jobTemplate header))
          submission job jobTemplate header event := isRecordOf_acceptSubmission host h
      exact Or.inr ⟨job, jobTemplate, header, hverdict, hrecord⟩

/-- A submission that the pool accepts. -/
structure Accepts (world : Sv1World) (id : ℕ) (params : List JsonValue)
    (client : StratumV1Client) (submission : MiningSubmitMessage) (job : MiningJob)
    (jobTemplate : JobTemplate) (header : Bytes) : Prop where
  client_eq : world.clients id = some client
  isOpen : client.connectionClosed = false
  isInitialized : client.stratumInitialized = true
  params_eq : MiningSubmitMessage.ofParams params = some submission
  verdict_eq : client.judgeSubmission host world.service submission
    = .accepted job jobTemplate header

variable (config : Sv1Config) (world : Sv1World)

/-- The replies of the handlers other than `mining.submit`. -/
theorem isReply_maybeInitStratum {client : StratumV1Client} {events : List Sv1Event}
    (hevents : ∀ event ∈ events, isReply event = true) :
    ∀ event ∈ (client.maybeInitStratum events).2, isReply event = true := by
  intro event hevent
  unfold maybeInitStratum at hevent
  split at hevent
  · cases hsuggested : client.clientSuggestedDifficulty with
    | none =>
      rw [hsuggested, List.mem_append, List.mem_singleton] at hevent
      exact hevent.elim (hevents event) (· ▸ rfl)
    | some difficulty =>
      rw [hsuggested] at hevent
      exact hevents event hevent
  · exact hevents event hevent

variable {id c : ℕ} {event : Sv1Event}

theorem mem_update {handler : StratumV1Client → StratumV1Client × List Sv1Event}
    (h : (c, event) ∈ (world.update id handler).2) :
    c = id ∧ ∃ client, world.clients id = some client ∧ event ∈ (handler client).2 := by
  unfold Sv1World.update at h
  split at h
  · cases h
  · rename_i client hclient
    obtain ⟨event', hevent, heq⟩ := List.mem_map.mp h
    cases heq
    exact ⟨rfl, client, hclient, hevent⟩

theorem mem_handle {handler : StratumV1Client → StratumV1Client × List Sv1Event}
    (h : (c, event) ∈ (world.handle id handler).2) :
    c = id ∧ ∃ client, world.clients id = some client ∧ client.connectionClosed = false ∧
      event ∈ (handler client).2 := by
  obtain ⟨hid, client, hclient, hevent⟩ := mem_update world h
  by_cases hclosed : client.connectionClosed = true
  · rw [if_pos hclosed] at hevent
    cases hevent
  · rw [if_neg hclosed] at hevent
    exact ⟨hid, client, hclient, by simpa using hclosed, hevent⟩

/-- What a step records: nothing but replies, the job it builds, or what follows from an
accepted submission. -/
theorem sv1Step_records {input : Sv1Input} (h : (id, event) ∈ (sv1Step host config world input).2) :
    isReply event = true ∨
    (∃ k inserted sent now client jobTemplate authorization job,
      input = .sendJob id k inserted sent now ∧
      BuildsJob host config world id k client jobTemplate authorization now job ∧
      event = .jobBuilt job (client.inForce authorization)) ∨
    (∃ params blockSubmissionResult fault client submission job jobTemplate header,
      input = .submit id params blockSubmissionResult fault ∧
      Accepts host world id params client submission job jobTemplate header ∧
      IsRecordOf host client submission job jobTemplate header event) := by
  have hreplies {events : List Sv1Event} (hone : ∃ reply, events = [reply] ∧ isReply reply = true) :
      ∀ event ∈ events, isReply event = true := by
    obtain ⟨reply, rfl, hreply⟩ := hone
    intro event hevent
    rw [List.mem_singleton] at hevent
    exact hevent ▸ hreply
  cases input with
  | connect c payoutMode accountingProtocol =>
    simp only [sv1Step] at h
    split at h <;> cases h
  | disconnect c =>
    obtain ⟨-, client, -, hevent⟩ := mem_update world h
    cases hevent
  | template template now => cases h
  | subscribe c randomHex =>
    obtain ⟨-, client, -, -, hevent⟩ := mem_handle world h
    exact Or.inl (isReply_maybeInitStratum (hreplies ⟨_, rfl, rfl⟩) event hevent)
  | authorize c user startingDiff =>
    obtain ⟨-, client, -, -, hevent⟩ := mem_handle world h
    left
    unfold handleAuthorize at hevent
    split at hevent
    · exact isReply_maybeInitStratum (hreplies ⟨_, rfl, rfl⟩) event hevent
    · exact isReply_maybeInitStratum (hreplies ⟨_, rfl, rfl⟩) event hevent
  | suggestDifficulty c suggestedDifficulty =>
    obtain ⟨-, client, -, -, hevent⟩ := mem_handle world h
    left
    unfold handleSuggestDifficulty at hevent
    split at hevent
    · cases hevent
    · exact isReply_maybeInitStratum (hreplies ⟨_, rfl, rfl⟩) event hevent
  | setPayout c address worker now =>
    obtain ⟨-, client, -, -, hevent⟩ := mem_handle world h
    left
    unfold handleSetPayout at hevent
    split at hevent
    · exact isReply_maybeInitStratum (hreplies ⟨_, rfl, rfl⟩) event hevent
    · exact isReply_maybeInitStratum (hreplies ⟨_, rfl, rfl⟩) event hevent
  | subscribeTemplates c =>
    obtain ⟨-, client, -, hevent⟩ := mem_update world h
    cases hevent
  | checkDifficulty c suggested now =>
    obtain ⟨-, client, -, hevent⟩ := mem_update world h
    left
    change event ∈
      (client.difficultyTimer config world.service.latestTemplate suggested now).2 at hevent
    unfold difficultyTimer at hevent
    split at hevent
    · unfold checkDifficulty at hevent
      split at hevent
      · cases hevent
      · simp only at hevent
        split at hevent
        · cases hevent
        · exact hreplies ⟨_, rfl, rfl⟩ event hevent
    · cases hevent
  | sendJob c k inserted sent now =>
    rcases sv1Step_sendJob host config world c k inserted sent now with
      ⟨-, hnone⟩ | ⟨client, jobTemplate, authorization, job, hbuilds, -, hevents⟩
    · rw [hnone] at h
      cases h
    · rw [hevents, List.mem_singleton] at h
      cases h
      exact Or.inr (Or.inl ⟨k, inserted, sent, now, client, jobTemplate, authorization, job, rfl,
        hbuilds, rfl⟩)
  | submit c params blockSubmissionResult fault =>
    obtain ⟨rfl, client, hclient, hopen, hevent⟩ := mem_handle world h
    unfold handleSubmit at hevent
    split at hevent
    · cases hevent
    · rename_i hinit
      split at hevent
      · exact Or.inl (hreplies ⟨_, rfl, rfl⟩ event hevent)
      · rename_i submission hsubmission
        rcases handleMiningSubmission_records host hevent with
          hreply | ⟨job, jobTemplate, header, hverdict, hrecord⟩
        · exact Or.inl hreply
        · exact Or.inr (Or.inr ⟨params, blockSubmissionResult, fault, client, submission, job,
            jobTemplate, header, rfl, ⟨hclient, hopen, by simpa using hinit, hsubmission, hverdict⟩,
            hrecord⟩)

end

/-! ### The invariant of every run -/

section
variable {t jobTemplate : JobTemplate} {service : StratumV1JobsService}

theorem Refreshes.trans {t' t'' : JobTemplate} (h : Refreshes t t') (h' : Refreshes t' t'') :
    Refreshes t t'' := by
  obtain ⟨timestamp, clearJobs, rfl⟩ := h
  obtain ⟨_, _, rfl⟩ := h'
  exact ⟨timestamp, clearJobs, Eq.refl _⟩

theorem Refreshes.id_eq {t' : JobTemplate} (h : Refreshes t t') :
    t.blockData.id = t'.blockData.id := by
  obtain ⟨timestamp, clearJobs, rfl⟩ := h
  rfl

/-- A template that the service numbered. The service still has it under its number, up to a
refresh, or has dropped it. -/
structure FromService (service : StratumV1JobsService) (jobTemplate : JobTemplate) : Prop where
  number : ∃ n < service.latestJobTemplateId, jobTemplate.blockData.id = Js.toString16 n
  same : ∀ block, service.blocks jobTemplate.blockData.id = some block →
    Refreshes jobTemplate block

theorem FromService.refreshes (h : FromService service jobTemplate) (ht : Refreshes t jobTemplate) :
    FromService service t where
  number := ht.id_eq ▸ h.number
  same block hblock := ht.trans (h.same block (ht.id_eq ▸ hblock))

theorem FromService.publish (h : FromService service jobTemplate) (template : JobTemplate) (now : ℕ)
    :
    FromService (service.publish template now) jobTemplate := by
  obtain ⟨n, hlt, hn⟩ := h.number
  refine ⟨⟨n, Nat.lt_succ_of_lt hlt, hn⟩, ?_⟩
  intro block hblock
  rcases StratumV1JobsService.blocks_publish hblock with ⟨hid, -⟩ | hold
  · rw [hn, Js.toString16_inj] at hid
    omega
  · exact h.same block hold

theorem fromService_numberTemplate (h : service.Numbered) (template : JobTemplate) (now : ℕ) :
    FromService (service.publish template now) (service.numberTemplate template now) := by
  refine ⟨⟨service.latestJobTemplateId, Nat.lt_succ_self _, rfl⟩, ?_⟩
  intro block hblock
  rcases StratumV1JobsService.blocks_publish hblock with ⟨-, rfl⟩ | hold
  · exact Refreshes.rfl
  · -- the number is new, so nothing older stands under it
    obtain ⟨-, n, hlt, hn⟩ := h.block hold
    have hid : (service.numberTemplate template now).blockData.id
        = Js.toString16 service.latestJobTemplateId := rfl
    rw [hid, Js.toString16_inj] at hn
    omega

theorem FromService.addJob (h : FromService service jobTemplate) (job : MiningJob) :
    FromService (service.addJob job) jobTemplate :=
  ⟨h.number, h.same⟩

end

section
variable (host : Externals) (config : Sv1Config)

/-- A live job with its builder, the identity it was built for and the template it was built
from. -/
structure BuiltBy (world : Sv1World) (history : List (ℕ × Sv1Event)) (job : MiningJob)
    (owner : ℕ) (inForce : UserIdentity) (jobTemplate : JobTemplate) : Prop where
  event : (owner, .jobBuilt job inForce) ∈ history
  create : ∃ client, world.clients owner = some client ∧
    MiningJob.create host config.network job.jobId
      (getPayoutInformation client.payoutMode jobTemplate inForce.address) jobTemplate
      (some inForce.workerName) job.creation = some job
  template : FromService world.service jobTemplate

/-- The invariant of every run. -/
structure Sv1Inv (world : Sv1World) (history : List (ℕ × Sv1Event)) : Prop where
  numbered : world.service.Numbered
  latest : ∀ jobTemplate ∈ world.service.latestTemplate, FromService world.service jobTemplate
  pending : ∀ id client, world.clients id = some client →
    ∀ jobTemplate ∈ client.pendingJobs, FromService world.service jobTemplate
  session : ∀ id client, world.clients id = some client → client.stratumInitialized = true →
    client.extraNonceAndSessionId.isSome
  built : ∀ id job, world.service.jobs id = some job →
    ∃ owner inForce jobTemplate, BuiltBy host config world history job owner inForce jobTemplate

theorem sv1Inv_initial : Sv1Inv host config .initial [] where
  numbered := StratumV1JobsService.numbered_initial
  latest _ h := by cases h
  pending _ _ h := by cases h
  session _ _ h := by cases h
  built _ _ h := by cases h

variable {world : Sv1World} {history : List (ℕ × Sv1Event)}

/-- A client of the world after a step was there before with the same mode, or is new. -/
theorem client_before {input : Sv1Input} {id : ℕ} {client' : StratumV1Client}
    (h : (sv1Step host config world input).1.clients id = some client') :
    (∃ client, world.clients id = some client ∧
      ClientStep (sv1Step host config world input).1.service.latestTemplate
        (Clears world id input) client client') ∨
    (world.clients id = none ∧ ∃ payoutMode accountingProtocol,
      client' = .initial payoutMode accountingProtocol) := by
  have hrel := sv1Step_clients host config world input id
  rw [h] at hrel
  generalize world.clients id = before at hrel
  cases hrel with
  | connected payoutMode accountingProtocol => exact Or.inr ⟨rfl, _, _, rfl⟩
  | step hstep => exact Or.inl ⟨_, rfl, hstep⟩

/-- A client stays. -/
theorem client_after (input : Sv1Input) {id : ℕ} {client : StratumV1Client}
    (h : world.clients id = some client) :
    ∃ client', (sv1Step host config world input).1.clients id = some client' ∧
      ClientStep (sv1Step host config world input).1.service.latestTemplate
        (Clears world id input) client client' := by
  have hrel := sv1Step_clients host config world input id
  rw [h] at hrel
  generalize (sv1Step host config world input).1.clients id = after at hrel
  cases hrel with
  | step hstep => exact ⟨_, rfl, hstep⟩

/-- A numbered template stays one. -/
theorem FromService.step {jobTemplate : JobTemplate} (h : FromService world.service jobTemplate)
    (input : Sv1Input) :
    FromService (sv1Step host config world input).1.service jobTemplate := by
  rcases sv1Step_service host config world input with
    hsame | ⟨template, now, -, hpublish⟩ | ⟨_, _, _, _, _, _, _, _, job, -, -, hadd, -⟩
  · rw [hsame]
    exact h
  · rw [hpublish]
    exact h.publish template now
  · rw [hadd]
    exact h.addJob job

theorem Sv1Inv.latest_step (h : Sv1Inv host config world history) (input : Sv1Input) :
    ∀ jobTemplate ∈ (sv1Step host config world input).1.service.latestTemplate,
      FromService (sv1Step host config world input).1.service jobTemplate := by
  intro jobTemplate hlatest
  rcases sv1Step_service host config world input with
    hsame | ⟨template, now, -, hpublish⟩ | ⟨_, _, _, _, _, _, _, _, job, -, -, hadd, -⟩
  · rw [hsame] at hlatest ⊢
    exact h.latest jobTemplate hlatest
  · rw [hpublish] at hlatest ⊢
    cases hlatest
    exact fromService_numberTemplate h.numbered template now
  · rw [hadd] at hlatest ⊢
    exact (h.latest jobTemplate hlatest).addJob job

/-- A job that stays live is built as before. -/
theorem BuiltBy.step {job : MiningJob} {owner : ℕ} {inForce : UserIdentity}
    {jobTemplate : JobTemplate}
    (h : BuiltBy host config world history job owner inForce jobTemplate) (input : Sv1Input) :
    BuiltBy host config (sv1Step host config world input).1
      (history ++ (sv1Step host config world input).2) job owner inForce jobTemplate where
  event := List.mem_append_left _ h.event
  create := by
    obtain ⟨client, hclient, hcreate⟩ := h.create
    obtain ⟨client', hclient', hstep⟩ := client_after host config input hclient
    exact ⟨client', hclient', hstep.payoutMode ▸ hcreate⟩
  template := h.template.step host config input

/-- Every step keeps the invariant. -/
theorem Sv1Inv.step (h : Sv1Inv host config world history) (input : Sv1Input) :
    Sv1Inv host config (sv1Step host config world input).1
      (history ++ (sv1Step host config world input).2) where
  numbered := by
    rcases sv1Step_service host config world input with
      hsame | ⟨template, now, -, hpublish⟩ | ⟨_, _, _, _, _, _, _, _, job, -, hbuilds, hadd, -⟩
    · rw [hsame]
      exact h.numbered
    · rw [hpublish]
      exact h.numbered.publish template now
    · rw [hadd]
      exact h.numbered.addJob (MiningJob.fields_create host hbuilds.create_eq).1
  latest := h.latest_step host config input
  pending := by
    intro id client' hclient' jobTemplate hpending
    rcases client_before host config hclient' with
      ⟨client, hclient, hstep⟩ | ⟨-, payoutMode, accountingProtocol, rfl⟩
    · rcases hstep.pending jobTemplate hpending with hold | ⟨latest, hlatest, hrefreshes⟩
      · exact (h.pending id client hclient jobTemplate hold).step host config input
      · exact (h.latest_step host config input latest hlatest).refreshes hrefreshes
    · cases hpending
  session := by
    intro id client' hclient' hinit
    rcases client_before host config hclient' with
      ⟨client, hclient, hstep⟩ | ⟨-, payoutMode, accountingProtocol, rfl⟩
    · rcases hstep.initialized hinit with hinit | hsession
      · have hsession := h.session id client hclient hinit
        exact hstep.session hsession ▸ hsession
      · exact hsession
    · cases hinit
  built := by
    intro id job hjob
    have hold (hjob : world.service.jobs id = some job) : ∃ owner inForce jobTemplate,
        BuiltBy host config (sv1Step host config world input).1
          (history ++ (sv1Step host config world input).2) job owner inForce jobTemplate := by
      obtain ⟨owner, inForce, jobTemplate, hbuilt⟩ := h.built id job hjob
      exact ⟨owner, inForce, jobTemplate, hbuilt.step host config input⟩
    rcases sv1Step_service host config world input with
      hsame | ⟨template, now, -, hpublish⟩ |
        ⟨owner, k, _, _, now, client, jobTemplate, authorization, job', -, hbuilds, hadd, hevents⟩
    · rw [hsame] at hjob
      exact hold hjob
    · rw [hpublish] at hjob
      exact hold (StratumV1JobsService.jobs_publish hjob).1
    · rw [hadd] at hjob
      rcases StratumV1JobsService.jobs_addJob hjob with ⟨-, rfl⟩ | ⟨-, hjob⟩
      · -- the new job: its builder keeps its mode, its template was waiting there
        refine ⟨owner, client.inForce authorization, jobTemplate, ?_, ?_, ?_⟩
        · rw [hevents]
          exact List.mem_append_right _ (List.mem_singleton.mpr rfl)
        · obtain ⟨hid, hnow, -⟩ := MiningJob.fields_create host hbuilds.create_eq
          obtain ⟨client', hclient', hstep⟩ :=
            client_after host config input hbuilds.client_eq
          refine ⟨client', hclient', ?_⟩
          rw [hstep.payoutMode, hid, hnow]
          exact hbuilds.create_eq
        · exact (h.pending owner client hbuilds.client_eq jobTemplate
            (List.mem_of_getElem? hbuilds.pending_eq)).step host config input
      · exact hold hjob

end

/-- What it takes to be accepted. -/
theorem judgeSubmission_eq_accepted {host : Externals} {service : StratumV1JobsService}
    {client : StratumV1Client} {submission : MiningSubmitMessage} {job : MiningJob}
    {jobTemplate : JobTemplate} {header : Bytes}
    (h : client.judgeSubmission host service submission = .accepted job jobTemplate header) :
    service.jobs submission.jobId = some job ∧
      service.blocks job.jobTemplateId = some jobTemplate ∧
      submission.submissionHash ∉ client.miningSubmissionHashes ∧
      client.headerOf host job jobTemplate submission = some header := by
  unfold judgeSubmission at h
  split at h
  · cases h
  · rename_i job' hjob
    split at h
    · cases h
    · rename_i jobTemplate' htemplate
      split at h
      · cases h
      · rename_i hfresh
        split at h
        · cases h
        · rename_i header' hheader
          split at h
          · cases h
            exact ⟨hjob, htemplate, hfresh, hheader⟩
          · cases h

end PublicPool.Proofs
