import PublicPool.Sv1.Awaits
import PublicPool.Proofs.Sv1.Attribution

/-!
# `PublicPool.Proofs.Sv1.CreditedDifficulty`: the difficulty a share is credited at

The target of a connection is compared with the hash of a submission before the first await that
follows, and the difficulty of the connection is recorded after the last one. A new difficulty in
between is credited to a hash that was never compared with it.

`setsDifficulty` names the difficulty that a step is about to set. The invariant is that every
accepted submission that waits meets the target in force; a step keeps it if the waiting
submissions meet the target it sets.
-/

set_option autoImplicit false

namespace PublicPool.Proofs

open Sv1 Sv1.StratumV1Client
open DifficultyUtils
open Lib (Machine)

/-! ### Which steps set a difficulty -/

/-- The difficulty that `mining.authorize` sets, if it does. -/
def authorizedDifficulty (host : Externals) (config : Sv1Config) (client : StratumV1Client)
    (user : String) (startingDiff : Option ℚ) : Option (Option ℚ) :=
  match parseAuthorization host config.network user, client.clientSuggestedDifficulty,
    startingDiff with
  | some _, none, some startingDiff =>
    if client.sessionDifficulty.getD 0 < startingDiff then some (some startingDiff) else none
  | _, _, _ => none

/-- The difficulty that the minute timer sets, if it does. -/
def retargetedDifficulty (config : Sv1Config) (client : StratumV1Client)
    (suggested : Option ℚ) : Option (Option ℚ) :=
  if client.stratumSubscription then
    (clampDifficulty config suggested).map fun targetDiff =>
      some (client.suggestedFloor targetDiff)
  else none

section
variable (host : Externals) (config : Sv1Config)

/-- The connection that a step sets a difficulty of, and the difficulty. -/
def setsDifficulty (world : AwaitWorld) : AwaitInput → Option (ℕ × Option ℚ)
  | .begin (.authorize id user startingDiff) =>
    match world.pool.clients id with
    | some client =>
      if client.connectionClosed then none
      else (authorizedDifficulty host config client user startingDiff).map (id, ·)
    | none => none
  | .begin (.checkDifficulty id suggested _) =>
    match world.pool.clients id with
    | some client => (retargetedDifficulty config client suggested).map (id, ·)
    | none => none
  | .resume id k _ _ =>
    match (world.suspended id)[k]? with
    | some (.suggestValidation suggestedDifficulty) =>
      some (id, clampDifficulty config (some suggestedDifficulty))
    | _ => none
  | _ => none

/-- The condition: no step sets a difficulty that an accepted submission of the connection, still
to be recorded, does not reach. -/
def NoOvertake (world : AwaitWorld) (_ : List (ℕ × Sv1Event)) (input : AwaitInput) : Prop :=
  ∀ set ∈ setsDifficulty host config world input, ∀ call ∈ world.suspended set.1,
    ∀ work ∈ call.accepted,
      meetsTarget (host.hash256 work.header).bytes (difficultyToTarget set.2) = true

instance (world : AwaitWorld) (history : List (ℕ × Sv1Event)) (input : AwaitInput) :
    Decidable (NoOvertake host config world history input) :=
  inferInstanceAs (Decidable (∀ _ ∈ _, _))

/-- A share is recorded at a difficulty whose target its hash meets. -/
def CreditMet : Sv1Event → Prop
  | .shareRecorded share _ _ header =>
    meetsTarget (host.hash256 header).bytes (difficultyToTarget share.creditedDifficulty) = true
  | _ => True

instance : DecidablePred (CreditMet host) := fun event => by
  rcases event with _ | _ <;> unfold CreditMet <;> infer_instance

end

/-! ### What a handler makes of the difficulty -/

/-- A handler that leaves the difficulty of its connection alone. -/
structure KeepsDifficulty (client client' : StratumV1Client) : Prop where
  session : client'.sessionDifficulty = client.sessionDifficulty
  target : client'.sessionDifficultyTarget = client.sessionDifficultyTarget

/-- A handler that sets it to a given one. -/
structure SetsDifficulty (difficulty : Option ℚ) (client' : StratumV1Client) : Prop where
  session : client'.sessionDifficulty = difficulty
  target : client'.sessionDifficultyTarget = difficultyToTarget difficulty

section
variable {client client' client'' : StratumV1Client}

theorem KeepsDifficulty.rfl : KeepsDifficulty client client := ⟨Eq.refl _, Eq.refl _⟩

theorem KeepsDifficulty.trans (h : KeepsDifficulty client client')
    (h' : KeepsDifficulty client' client'') : KeepsDifficulty client client'' where
  session := h'.session.trans h.session
  target := h'.target.trans h.target

theorem SetsDifficulty.trans {difficulty : Option ℚ} (h : SetsDifficulty difficulty client')
    (h' : KeepsDifficulty client' client'') : SetsDifficulty difficulty client'' where
  session := h'.session.trans h.session
  target := h'.target.trans h.target

theorem keepsDifficulty_maybeInitStratum (client : StratumV1Client) (events : List Sv1Event) :
    KeepsDifficulty client (client.maybeInitStratum events).1 := by
  unfold maybeInitStratum
  split
  · exact ⟨rfl, rfl⟩
  · exact .rfl

theorem keepsDifficulty_pushRefreshedJob (client : StratumV1Client)
    (latestTemplate : Option JobTemplate) (now : ℕ) :
    KeepsDifficulty client (client.pushRefreshedJob latestTemplate now) := by
  cases latestTemplate with
  | none => exact ⟨rfl, rfl⟩
  | some jobTemplate => exact ⟨rfl, rfl⟩

theorem keepsDifficulty_receiveTemplate (jobTemplate : JobTemplate) (now : ℕ) :
    KeepsDifficulty client (client.receiveTemplate jobTemplate now) := by
  unfold receiveTemplate
  by_cases hsubscribed : client.stratumSubscription = true
  · simp only [if_pos hsubscribed]
    exact ⟨rfl, rfl⟩
  · simp only [if_neg hsubscribed]
    exact ⟨rfl, rfl⟩

theorem keepsDifficulty_handleSetPayout (host : Externals) (config : Sv1Config)
    (latestTemplate : Option JobTemplate) (address : String) (worker : Option String) (now : ℕ) :
    KeepsDifficulty client
      (client.handleSetPayout host config latestTemplate address worker now).1 := by
  unfold handleSetPayout
  split
  · exact keepsDifficulty_maybeInitStratum _ _
  · refine KeepsDifficulty.trans ?_ (keepsDifficulty_maybeInitStratum _ _)
    split
    · refine KeepsDifficulty.trans ?_ (keepsDifficulty_pushRefreshedJob _ _ now)
      exact ⟨rfl, rfl⟩
    · exact ⟨rfl, rfl⟩

theorem keepsDifficulty_subscribeTemplates (latestTemplate : Option JobTemplate) :
    KeepsDifficulty client (client.subscribeTemplates latestTemplate) := by
  unfold subscribeTemplates
  split
  · cases latestTemplate with
    | none => exact ⟨rfl, rfl⟩
    | some jobTemplate => exact ⟨rfl, rfl⟩
  · exact .rfl

theorem keepsDifficulty_sendNewMiningJob (host : Externals) (config : Sv1Config)
    (service : StratumV1JobsService) (k : ℕ) (inserted sent : Bool) (now : ℕ) :
    KeepsDifficulty client
      (client.sendNewMiningJob host config service k inserted sent now).2.1 := by
  unfold sendNewMiningJob
  split
  · simp only
    split
    · exact ⟨rfl, rfl⟩
    · split
      · exact ⟨rfl, rfl⟩
      · split <;> exact ⟨rfl, rfl⟩
  · exact .rfl

theorem difficulty_handleAuthorize (host : Externals) (config : Sv1Config) (user : String)
    (startingDiff : Option ℚ) :
    KeepsDifficulty client (client.handleAuthorize host config user startingDiff).1 ∨
      ∃ difficulty ∈ authorizedDifficulty host config client user startingDiff,
        SetsDifficulty difficulty (client.handleAuthorize host config user startingDiff).1 := by
  unfold handleAuthorize authorizedDifficulty
  cases parseAuthorization host config.network user with
  | none => exact Or.inl (keepsDifficulty_maybeInitStratum _ _)
  | some authorization =>
    cases hsuggested : client.clientSuggestedDifficulty with
    | some floor =>
      left
      simp only
      refine KeepsDifficulty.trans ?_ (keepsDifficulty_maybeInitStratum _ _)
      exact ⟨rfl, rfl⟩
    | none =>
      cases startingDiff with
      | none =>
        left
        simp only
        refine KeepsDifficulty.trans ?_ (keepsDifficulty_maybeInitStratum _ _)
        exact ⟨rfl, rfl⟩
      | some startingDiff =>
        simp only
        by_cases hraises : client.sessionDifficulty.getD 0 < startingDiff
        · right
          simp only [if_pos hraises]
          refine ⟨some startingDiff, rfl, ?_⟩
          refine SetsDifficulty.trans ?_ (keepsDifficulty_maybeInitStratum _ _)
          exact ⟨rfl, rfl⟩
        · left
          simp only [if_neg hraises]
          refine KeepsDifficulty.trans ?_ (keepsDifficulty_maybeInitStratum _ _)
          exact ⟨rfl, rfl⟩

theorem difficulty_difficultyTimer (config : Sv1Config) (latestTemplate : Option JobTemplate)
    (suggested : Option ℚ) (now : ℕ) :
    KeepsDifficulty client (client.difficultyTimer config latestTemplate suggested now).1 ∨
      ∃ difficulty ∈ retargetedDifficulty config client suggested,
        SetsDifficulty difficulty
          (client.difficultyTimer config latestTemplate suggested now).1 := by
  unfold difficultyTimer retargetedDifficulty
  by_cases hsubscribed : client.stratumSubscription = true
  · simp only [if_pos hsubscribed, checkDifficulty]
    cases clampDifficulty config suggested with
    | none => exact Or.inl .rfl
    | some targetDiff =>
      simp only
      by_cases hsame : some (client.suggestedFloor targetDiff) = client.sessionDifficulty
      · rw [if_pos hsame]
        exact Or.inl .rfl
      · rw [if_neg hsame]
        right
        refine ⟨some (client.suggestedFloor targetDiff), rfl, ?_⟩
        refine SetsDifficulty.trans ?_ (keepsDifficulty_pushRefreshedJob _ latestTemplate now)
        exact ⟨rfl, rfl⟩
  · simp only [if_neg hsubscribed]
    exact Or.inl .rfl

end

/-! ### One step -/

section
variable (host : Externals) (config : Sv1Config)

/-- What an input of the pool makes of the difficulty of a connection. -/
def MovesDifficulty (world : AwaitWorld) (input : AwaitInput) (id : ℕ)
    (client client' : StratumV1Client) : Prop :=
  KeepsDifficulty client client' ∨
    ∃ difficulty, setsDifficulty host config world input = some (id, difficulty) ∧
      SetsDifficulty difficulty client'

/-- An input of the pool that is no submission and no suggestion. -/
theorem sv1Step_difficulty {world : AwaitWorld} {input : Sv1Input}
    (hsubmit : ∀ id params result fault, input ≠ .submit id params result fault)
    (hsuggest : ∀ id difficulty, input ≠ .suggestDifficulty id difficulty) (c : ℕ) :
    ClientRel (MovesDifficulty host config world (.begin input) c) (world.pool.clients c)
      ((sv1Step host config world.pool input).1.clients c) := by
  have hrfl (client : StratumV1Client) :
      MovesDifficulty host config world (.begin input) c client client := Or.inl .rfl
  cases input with
  | connect id payoutMode accountingProtocol =>
    simp only [sv1Step]
    split
    · rename_i hnone
      by_cases hc : c = id
      · subst hc
        simp only [Sv1World.setClient, if_true, hnone]
        exact .connected ..
      · simp only [Sv1World.setClient, if_neg hc]
        exact .refl hrfl _
    · exact .refl hrfl _
  | disconnect id => exact clients_update world.pool (fun _ _ => Or.inl ⟨rfl, rfl⟩) hrfl c
  | template template now =>
    simp only [sv1Step]
    cases world.pool.clients c with
    | none => exact .absent
    | some client => exact .step (Or.inl (keepsDifficulty_receiveTemplate ..))
  | subscribe id randomHex =>
    refine clients_handle world.pool (fun client => Or.inl ?_) hrfl id c
    refine KeepsDifficulty.trans ?_ (keepsDifficulty_maybeInitStratum _ _)
    exact ⟨rfl, rfl⟩
  | authorize id user startingDiff =>
    by_cases hc : c = id
    · subst hc
      show ClientRel _ _ ((world.pool.handle c
        fun client => client.handleAuthorize host config user startingDiff).1.clients c)
      refine clients_update world.pool ?_ hrfl c
      intro client hclient
      by_cases hclosed : client.connectionClosed = true
      · simp only [if_pos hclosed]
        exact hrfl client
      · simp only [if_neg hclosed]
        refine (difficulty_handleAuthorize host config user startingDiff).imp_right ?_
        rintro ⟨difficulty, hset, hsets⟩
        refine ⟨difficulty, ?_, hsets⟩
        simp only [setsDifficulty, hclient, if_neg hclosed]
        rw [Option.mem_def.mp hset]
        rfl
    · have hsame : (sv1Step host config world.pool (.authorize id user startingDiff)).1.clients c
          = world.pool.clients c := clients_update_of_ne world.pool hc _
      rw [hsame]
      exact .refl hrfl _
  | suggestDifficulty id difficulty => exact absurd rfl (hsuggest id difficulty)
  | setPayout id address worker now =>
    exact clients_handle world.pool
      (fun client => Or.inl (keepsDifficulty_handleSetPayout host config _ address worker now))
      hrfl id c
  | subscribeTemplates id =>
    exact clients_update world.pool
      (fun _ _ => Or.inl (keepsDifficulty_subscribeTemplates _)) hrfl c
  | checkDifficulty id suggested now =>
    by_cases hc : c = id
    · subst hc
      refine clients_update world.pool ?_ hrfl c
      intro client hclient
      refine (difficulty_difficultyTimer config _ suggested now).imp_right ?_
      rintro ⟨difficulty, hset, hsets⟩
      refine ⟨difficulty, ?_, hsets⟩
      simp only [setsDifficulty, hclient]
      rw [Option.mem_def.mp hset]
      rfl
    · have hsame : (sv1Step host config world.pool (.checkDifficulty id suggested now)).1.clients c
          = world.pool.clients c := clients_update_of_ne world.pool hc _
      rw [hsame]
      exact .refl hrfl _
  | sendJob id k inserted sent now =>
    simp only [sv1Step]
    split
    · exact .refl hrfl _
    · rename_i client hclient
      exact clients_setClient world.pool hclient
        (Or.inl (keepsDifficulty_sendNewMiningJob ..)) hrfl c
  | submit id params result fault => exact absurd rfl (hsubmit id params result fault)

/-- A hash that is accepted was compared with the target in force. -/
theorem meetsTarget_of_accepted {service : StratumV1JobsService} {client : StratumV1Client}
    {submission : MiningSubmitMessage} {job : MiningJob} {jobTemplate : JobTemplate}
    {header : Bytes}
    (h : client.judgeSubmission host service submission = .accepted job jobTemplate header) :
    meetsTarget (host.hash256 header).bytes client.sessionDifficultyTarget = true := by
  unfold judgeSubmission at h
  split at h
  · cases h
  · split at h
    · cases h
    · split at h
      · cases h
      · split at h
        · cases h
        · split at h
          · rename_i hmeets
            cases h
            exact hmeets
          · cases h

/-- What a suspended call does when it goes on, with `next` what is left of it. -/
structure Resumes (client : StratumV1Client) (call : Suspended) (client' : StratumV1Client)
    (next : Option Suspended) (events : List Sv1Event) : Prop where
  difficulty : KeepsDifficulty client client' ∨
    ∃ suggestedDifficulty, call = .suggestValidation suggestedDifficulty ∧
      SetsDifficulty (clampDifficulty config (some suggestedDifficulty)) client'
  accepted : ∀ call' ∈ next, ∀ work' ∈ call'.accepted,
    call.accepted = some work' ∨
      KeepsDifficulty client client' ∧
        meetsTarget (host.hash256 work'.header).bytes client.sessionDifficultyTarget = true
  records : ∀ share submission job header, .shareRecorded share submission job header ∈ events →
    share.creditedDifficulty = client.sessionDifficulty ∧
      ∃ work ∈ call.accepted, work.header = header

variable {host config} {client client' : StratumV1Client} {call : Suspended}
  {events : List Sv1Event}

/-- A call that comes to its end, and records nothing. -/
theorem Resumes.ends (hkeeps : KeepsDifficulty client client')
    (hevents : ∀ share submission job header,
      Sv1Event.shareRecorded share submission job header ∉ events) :
    Resumes host config client call client' none events where
  difficulty := Or.inl hkeeps
  accepted call' hcall' := absurd hcall' (Option.not_mem_none call')
  records _ _ _ _ h := absurd h (hevents _ _ _ _)

/-- A call that goes on with the work it has, and records nothing. -/
theorem Resumes.goesOn {next : Suspended} (hkeeps : KeepsDifficulty client client')
    (hnext : next.accepted = call.accepted)
    (hevents : ∀ share submission job header,
      Sv1Event.shareRecorded share submission job header ∉ events) :
    Resumes host config client call client' (some next) events where
  difficulty := Or.inl hkeeps
  accepted call' hcall' work' hwork := by
    obtain rfl : next = call' := Option.some.inj hcall'
    exact Or.inl (hnext ▸ hwork)
  records _ _ _ _ h := absurd h (hevents _ _ _ _)

theorem keepsDifficulty_remember (submission : MiningSubmitMessage)
    (verdict : SubmissionVerdict) : KeepsDifficulty client (client.remember submission verdict) := by
  cases verdict <;> exact ⟨rfl, rfl⟩

theorem resumes_submitValidation (service : StratumV1JobsService) (params : List JsonValue)
    (succeeded : Bool) :
    let resumed := client.resumeSubmitValidation host service params succeeded
    Resumes host config client (.submitValidation params) resumed.1 resumed.2.1 resumed.2.2 := by
  unfold resumeSubmitValidation
  split
  · exact .ends ⟨rfl, rfl⟩ (by simp)
  · rename_i submission hparams
    have hremember : KeepsDifficulty client
        (client.remember submission (client.judgeSubmission host service submission)) :=
      keepsDifficulty_remember submission _
    have hdestroy : KeepsDifficulty client
        (client.remember submission (client.judgeSubmission host service submission)).destroy :=
      hremember.trans ⟨rfl, rfl⟩
    simp only
    split
    iterate 3
      · split
        · exact .ends hremember (by simp)
        · exact .ends hdestroy (by simp)
    · exact .ends (hremember.trans ⟨rfl, rfl⟩) (by simp)
    · rename_i job jobTemplate header hverdict
      have hmeets := meetsTarget_of_accepted host hverdict
      refine ⟨Or.inl hremember, ?_, by simp⟩
      intro call' hcall' work' hwork
      obtain rfl := Option.some.inj hcall'
      obtain rfl := Option.some.inj hwork
      exact Or.inr ⟨hremember, hmeets⟩

theorem resumes_submitReply (work : AcceptedWork) (succeeded : Bool) :
    let resumed := client.resumeSubmitReply host work succeeded
    Resumes host config client (.submitReply work) resumed.1 resumed.2.1 resumed.2.2 := by
  unfold resumeSubmitReply
  split
  · exact .ends ⟨rfl, rfl⟩ (by simp)
  · simp only
    split
    · split
      · exact .ends ⟨rfl, rfl⟩ (by simp)
      · exact .goesOn .rfl rfl (by simp)
    · exact .goesOn .rfl rfl (by simp)

/-- The events of a found block are no records of shares. -/
theorem not_mem_foundEvents (work : RepliedWork)
    (events : Transaction → Bytes → List Sv1Event)
    (hevents : ∀ coinbase blockHex share submission job header,
      Sv1Event.shareRecorded share submission job header ∉ events coinbase blockHex)
    (share : AcceptedShareRecord) (submission : MiningSubmitMessage) (job : MiningJob)
    (header : Bytes) :
    Sv1Event.shareRecorded share submission job header ∉ foundEvents work events := by
  unfold foundEvents
  split
  · exact hevents _ _ share submission job header
  · simp

theorem resumes_submitting (work : RepliedWork) (await : SubmitAwait) (succeeded : Bool)
    (answer : Option String) :
    let resumed := client.resumeSubmitting host work await succeeded answer
    Resumes host config client (.submitting work await) resumed.1 resumed.2.1 resumed.2.2 := by
  by_cases hlast : await = .virtualRow
  · -- the record is made of the work of the call and the difficulty of the moment
    subst hlast
    refine ⟨Or.inl .rfl, fun call' hcall' => absurd hcall' (Option.not_mem_none call'), ?_⟩
    intro share submission job header h
    rw [resumeSubmitting, List.mem_singleton] at h
    cases h
    exact ⟨rfl, work.toAcceptedWork, rfl, rfl⟩
  · cases succeeded with
    | false =>
      cases await <;> first
      | exact absurd rfl hlast
      | exact .ends ⟨rfl, rfl⟩ fun _ _ _ _ => List.not_mem_nil
    | true =>
      cases await with
      | submitBlock => exact .goesOn .rfl rfl fun _ _ _ _ => List.not_mem_nil
      | saveBlock =>
        refine .goesOn .rfl rfl (not_mem_foundEvents work _ ?_)
        intro coinbase blockHex share submission job header
        simp
      | finalizeSnapshot =>
        refine .goesOn .rfl rfl (not_mem_foundEvents work _ ?_)
        intro coinbase blockHex share submission job header
        unfold finalizeEvents
        split <;> simp
      | notifySubscribers => exact .goesOn .rfl rfl fun _ _ _ _ => List.not_mem_nil
      | resetBestDifficulty => exact .goesOn .rfl rfl fun _ _ _ _ => List.not_mem_nil
      | clientRow => exact .goesOn .rfl rfl fun _ _ _ _ => List.not_mem_nil
      | virtualRow => exact absurd rfl hlast

/-- What any suspended call does when it goes on. -/
theorem resumes (service : StratumV1JobsService) (call : Suspended) (succeeded : Bool)
    (answer : Option String) :
    let resumed := client.resume host config service succeeded answer call
    Resumes host config client call resumed.1 resumed.2.1 resumed.2.2 := by
  cases call with
  | submitValidation params => exact resumes_submitValidation service params succeeded
  | submitReply work => exact resumes_submitReply work succeeded
  | submitting work await => exact resumes_submitting work await succeeded answer
  | suggestValidation suggestedDifficulty =>
    refine ⟨Or.inr ⟨suggestedDifficulty, rfl, rfl, rfl⟩, ?_, by simp [StratumV1Client.resume,
      resumeSuggestValidation]⟩
    intro call' hcall' work' hwork
    obtain rfl := Option.some.inj hcall'
    cases hwork
  | suggestReply =>
    simp only [StratumV1Client.resume, resumeSuggestReply]
    split
    · exact .ends ⟨rfl, rfl⟩ (by simp)
    · refine .ends (KeepsDifficulty.trans ?_ (keepsDifficulty_maybeInitStratum _ _)) ?_
      · exact ⟨rfl, rfl⟩
      · intro share submission job header h
        have hreply := isReply_maybeInitStratum (by simp) _ h
        cases hreply

end

/-! ### The invariant -/

section
variable (host : Externals) (config : Sv1Config)

/-- The target of a connection is that of its difficulty, and the accepted submissions that wait
meet it. -/
structure TargetInv (world : AwaitWorld) : Prop where
  target : ∀ id client, world.pool.clients id = some client →
    client.sessionDifficultyTarget = difficultyToTarget client.sessionDifficulty
  accepted : ∀ id, ∀ call ∈ world.suspended id, ∀ work ∈ call.accepted,
    ∃ client, world.pool.clients id = some client ∧
      meetsTarget (host.hash256 work.header).bytes client.sessionDifficultyTarget = true

variable {host config} {world : AwaitWorld} {history : List (ℕ × Sv1Event)}

/-- A step of the pool keeps the invariant if it sets no difficulty out of reach. -/
theorem TargetInv.move (h : TargetInv host world) {input : AwaitInput} {pool : Sv1World}
    (hcond : NoOvertake host config world history input)
    (hmove : ∀ id, ClientRel (MovesDifficulty host config world input id) (world.pool.clients id)
      (pool.clients id)) : TargetInv host { world with pool } where
  target id client' hclient' := by
    have hrel := hmove id
    rw [show pool.clients id = some client' from hclient'] at hrel
    cases hclient : world.pool.clients id with
    | none =>
      rw [hclient] at hrel
      cases hrel
      rfl
    | some client =>
      rw [hclient] at hrel
      cases hrel with
      | step hmoves =>
        rcases hmoves with hkeeps | ⟨difficulty, -, hsets⟩
        · rw [hkeeps.target, hkeeps.session]
          exact h.target id client hclient
        · rw [hsets.target, hsets.session]
  accepted id call hcall work hwork := by
    obtain ⟨client, hclient, hmeets⟩ := h.accepted id call hcall work hwork
    have hrel := hmove id
    rw [hclient] at hrel
    cases hclient' : pool.clients id with
    | none =>
      rw [hclient'] at hrel
      cases hrel
    | some client' =>
      rw [hclient'] at hrel
      cases hrel with
      | step hmoves =>
        refine ⟨client', rfl, ?_⟩
        rcases hmoves with hkeeps | ⟨difficulty, hset, hsets⟩
        · rw [hkeeps.target]
          exact hmeets
        · rw [hsets.target]
          exact hcond _ hset call hcall work hwork

/-- New calls that carry no work. -/
theorem TargetInv.suspend (h : TargetInv host world) {id : ℕ} {call : Suspended}
    (hcall : call.accepted = none) : TargetInv host (world.suspend id call) where
  target := h.target
  accepted id' call' hcall' work hwork := by
    by_cases hid : id' = id
    · subst hid
      simp only [AwaitWorld.suspend, AwaitWorld.setSuspended, if_true, List.mem_append,
        List.mem_singleton] at hcall'
      rcases hcall' with hold | rfl
      · exact h.accepted id' call' hold work hwork
      · rw [hcall] at hwork
        cases hwork
    · simp only [AwaitWorld.suspend, AwaitWorld.setSuspended, if_neg hid] at hcall'
      exact h.accepted id' call' hcall' work hwork

theorem TargetInv.beginSubmit (h : TargetInv host world) (id : ℕ) (params : List JsonValue) :
    TargetInv host (world.beginSubmit id params) := by
  unfold AwaitWorld.beginSubmit
  split
  · rename_i client hclient
    split
    · exact h
    · split
      · -- the socket ends, and nothing else
        have hnothing : NoOvertake host ⟨.mainnet, none⟩ world [] (.begin (.disconnect id)) :=
          fun set hset => absurd hset (Option.not_mem_none set)
        refine h.move hnothing fun c => ?_
        exact clients_setClient world.pool hclient (Or.inl ⟨rfl, rfl⟩) (fun _ => Or.inl .rfl) c
      · exact h.suspend rfl
  · exact h

theorem TargetInv.beginSuggestDifficulty (h : TargetInv host world) (id : ℕ)
    (suggestedDifficulty : ℚ) :
    TargetInv host (world.beginSuggestDifficulty id suggestedDifficulty) := by
  unfold AwaitWorld.beginSuggestDifficulty
  split
  · split
    · exact h
    · exact h.suspend rfl
  · exact h

/-- A suspended call that goes on keeps the invariant, and records only what was met. -/
theorem TargetInv.resume (h : TargetInv host world) {id k : ℕ} {succeeded : Bool}
    {answer : Option String}
    (hcond : NoOvertake host config world history (.resume id k succeeded answer)) :
    TargetInv host (world.resume host config id k succeeded answer).1 ∧
      ∀ event ∈ (world.resume host config id k succeeded answer).2, CreditMet host event.2 := by
  unfold AwaitWorld.resume
  split
  · rename_i client call hclient hcall
    have hmem : call ∈ world.suspended id := List.mem_of_getElem? hcall
    obtain ⟨client', next, events, hresumed⟩ : ∃ client' next events,
        client.resume host config world.pool.service succeeded answer call
          = (client', next, events) := ⟨_, _, _, rfl⟩
    have hresumes : Resumes host config client call client' next events := by
      have hall : let resumed :=
            client.resume host config world.pool.service succeeded answer call
          Resumes host config client call resumed.1 resumed.2.1 resumed.2.2 := resumes ..
      rw [hresumed] at hall
      exact hall
    simp only [hresumed]
    have hmoves : MovesDifficulty host config world (.resume id k succeeded answer) id client
        client' := by
      rcases hresumes.difficulty with hkeeps | ⟨suggestedDifficulty, rfl, hsets⟩
      · exact Or.inl hkeeps
      · refine Or.inr ⟨_, ?_, hsets⟩
        simp only [setsDifficulty, hcall]
    have hmoved : TargetInv host { world with pool := world.pool.setClient id client' } := by
      refine h.move hcond fun c => ?_
      by_cases hc : c = id
      · subst hc
        exact clients_setClient world.pool hclient hmoves (fun _ => Or.inl .rfl) c
      · simp only [Sv1World.setClient, if_neg hc]
        exact .refl (fun _ => Or.inl .rfl) _
    refine ⟨⟨hmoved.target, ?_⟩, ?_⟩
    · intro id' call' hcall' work' hwork'
      by_cases hid : id' = id
      · subst hid
        simp only [AwaitWorld.setSuspended, if_true, List.mem_append,
          Option.mem_toList] at hcall'
        rcases hcall' with hrest | hnext
        · exact hmoved.accepted id' call' (List.mem_of_mem_eraseIdx hrest) work' hwork'
        · rcases hresumes.accepted call' hnext work' hwork' with hsame | ⟨hkeeps, hmeets⟩
          · exact hmoved.accepted id' call hmem work' hsame
          · -- the work is new: it was compared with the target of the connection
            refine ⟨client', ?_, hkeeps.target ▸ hmeets⟩
            simp [AwaitWorld.setSuspended, Sv1World.setClient]
      · simp only [AwaitWorld.setSuspended, if_neg hid] at hcall'
        exact hmoved.accepted id' call' hcall' work' hwork'
    · intro event hevent
      obtain ⟨event', hevent', rfl⟩ := List.mem_map.mp hevent
      cases event' with
      | shareRecorded share submission job header =>
        obtain ⟨hcredited, work, hwork, rfl⟩ := hresumes.records share submission job header hevent'
        obtain ⟨client'', hclient'', hmeets⟩ := h.accepted id call hmem work hwork
        obtain rfl : client = client'' := Option.some.inj (hclient.symm.trans hclient'')
        rw [h.target id client hclient, ← hcredited] at hmeets
        exact hmeets
      | _ => trivial
  · exact ⟨h, fun event hevent => absurd hevent List.not_mem_nil⟩

/-- The inputs of the pool record nothing, submissions apart. -/
theorem creditMet_sv1Step {input : Sv1Input}
    (hsubmit : ∀ id params result fault, input ≠ .submit id params result fault) :
    ∀ event ∈ (sv1Step host config world.pool input).2, CreditMet host event.2 := by
  rintro ⟨id, event⟩ hevent
  rcases sv1Step_records host config world.pool hevent with
    hreply | ⟨_, _, _, _, _, _, _, _, -, -, rfl⟩ | ⟨_, _, _, _, _, _, _, _, hinput, -⟩
  · cases event <;> first | exact trivial | cases hreply
  · trivial
  · exact absurd hinput (hsubmit _ _ _ _)

/-- An input of the pool that is no submission and no suggestion. -/
theorem TargetInv.poolStep (h : TargetInv host world) {input : Sv1Input}
    (hcond : NoOvertake host config world history (.begin input))
    (hsubmit : ∀ id params result fault, input ≠ .submit id params result fault)
    (hsuggest : ∀ id difficulty, input ≠ .suggestDifficulty id difficulty) :
    TargetInv host { world with pool := (sv1Step host config world.pool input).1 } ∧
      ∀ event ∈ (sv1Step host config world.pool input).2, CreditMet host event.2 :=
  ⟨h.move hcond (sv1Step_difficulty host config hsubmit hsuggest), creditMet_sv1Step hsubmit⟩

/-- One step keeps the invariant, and records only what was met. -/
theorem TargetInv.step (h : TargetInv host world) {input : AwaitInput}
    (hcond : NoOvertake host config world history input) :
    TargetInv host (awaitStep host config world input).1 ∧
      ∀ event ∈ (awaitStep host config world input).2, CreditMet host event.2 := by
  have hnothing : ∀ event ∈ ([] : List (ℕ × Sv1Event)), CreditMet host event.2 :=
    fun event hevent => nomatch hevent
  cases input with
  | resume id k succeeded answer => exact h.resume hcond
  | begin input =>
    cases input with
    | submit id params result fault => exact ⟨h.beginSubmit id params, hnothing⟩
    | suggestDifficulty id difficulty => exact ⟨h.beginSuggestDifficulty id difficulty, hnothing⟩
    | _ =>
      exact h.poolStep hcond (fun _ _ _ _ heq => nomatch heq) (fun _ _ heq => nomatch heq)

theorem targetInv_initial : TargetInv host .initial where
  target _ _ hclient := nomatch hclient
  accepted _ _ hcall := nomatch hcall

variable (host config)

/-- Credit matches the target that was checked. In every run in which no step sets a difficulty
out of reach of an accepted submission that is still to be recorded, every share is recorded at a
difficulty whose target its hash meets. -/
theorem credited_at_met_difficulty (inputs : List AwaitInput)
    (h : (awaitMachine host config).Along (NoOvertake host config) .initial [] inputs) :
    ∀ event ∈ (awaitMachine host config).history .initial inputs, CreditMet host event.2 := by
  have hstep : ∀ (world : AwaitWorld) (history : List (ℕ × Sv1Event)) (input : AwaitInput),
      TargetInv host world ∧ (∀ event ∈ history, CreditMet host event.2) →
      NoOvertake host config world history input →
      TargetInv host ((awaitMachine host config).step world input).1 ∧
        ∀ event ∈ history ++ ((awaitMachine host config).step world input).2,
          CreditMet host event.2 := by
    rintro world history input ⟨hinv, hmet⟩ hcond
    obtain ⟨hinv', hmet'⟩ := hinv.step hcond
    refine ⟨hinv', ?_⟩
    intro event hevent
    rcases List.mem_append.mp hevent with hold | hnew
    · exact hmet event hold
    · exact hmet' event hnew
  have hstart : TargetInv host .initial ∧ ∀ event ∈ ([] : List (ℕ × Sv1Event)),
      CreditMet host event.2 := ⟨targetInv_initial, fun event hevent => nomatch hevent⟩
  exact ((awaitMachine host config).history_invariant hstep hstart h).2

end

/-! ### A retarget that overtakes a share -/

namespace Sv1Sample

/-- `A` mines a share at the first difficulty. -/
def shareOfA : List Sv1Input :=
  login 0 .solo "A.rig" ++
    [.template (template "B") 1700000000000, .sendJob 0 0 true true 1700000000001,
      .submit 0 (submission "1" "0000000000000001" "00000005") none none]

/-- The minute timer sets a new difficulty between the reply to the share and its record. -/
def retargetRun (suggested : ℚ) : List AwaitInput :=
  shareOfA.map .begin ++
    [.resume 0 0 true none, .resume 0 0 true none,
      .begin (.checkDifficulty 0 (some suggested) 1700000060000),
      .resume 0 0 true none, .resume 0 0 true none]

end Sv1Sample

/-- A share is recorded at a difficulty that was set after its hash was compared. -/
theorem not_credited_at_met_difficulty :
    ¬ ∀ event ∈ (awaitMachine Sv1Sample.host Sv1Sample.config).history .initial
      (Sv1Sample.retargetRun 100000000), CreditMet Sv1Sample.host event.2 := by
  decide +kernel

theorem credited_at_met_difficulty_sample :
    Sv1Sample.recordsShare ((awaitMachine Sv1Sample.host Sv1Sample.config).history .initial
      (Sv1Sample.retargetRun 50000)) ∧
    ∀ event ∈ (awaitMachine Sv1Sample.host Sv1Sample.config).history .initial
      (Sv1Sample.retargetRun 50000), CreditMet Sv1Sample.host event.2 := by
  refine ⟨by decide +kernel, ?_⟩
  exact credited_at_met_difficulty Sv1Sample.host Sv1Sample.config (Sv1Sample.retargetRun 50000)
    (by decide +kernel)

end PublicPool.Proofs
