import PublicPool.Sv1.Authorizing
import PublicPool.Proofs.Sv1.CreditedDifficulty

/-!
# `PublicPool.Proofs.Sv1.SuggestedFloor`: the two difficulty fields and the suggested floor

Three handlers write the difficulty of a connection: `mining.authorize`,
`mining.suggest_difficulty` and the minute timer. Each writes the target in the same piece, so
between two pieces the target is that of the difficulty.

A suggestion that is stored is a floor. The piece that stores it sets a difficulty that reaches
it, an authorization changes nothing once it is stored, and the timer takes the maximum with it.
What a handler makes of the difficulty is known (`MovesDifficulty`, `Resumes`); here comes what it
makes of the stored suggestion.
-/

set_option autoImplicit false

namespace PublicPool.Proofs

open Sv1 Sv1.StratumV1Client
open DifficultyUtils
open Lib (Machine)

/-- A difficulty reaches the suggestion, if there is one. -/
def ReachesFloor (suggested difficulty : Option ℚ) : Prop :=
  ∀ floor, suggested = some floor → ∃ reached, difficulty = some reached ∧ floor ≤ reached

/-- The target of a connection is that of its difficulty, which reaches the suggestion. -/
structure SessionInv (client : StratumV1Client) : Prop where
  target : client.sessionDifficultyTarget = difficultyToTarget client.sessionDifficulty
  floor : ReachesFloor client.clientSuggestedDifficulty client.sessionDifficulty

/-! ### The stored suggestion -/

/-- A handler that leaves the stored suggestion alone. -/
def KeepsSuggestion (client client' : StratumV1Client) : Prop :=
  client'.clientSuggestedDifficulty = client.clientSuggestedDifficulty

section
variable {client : StratumV1Client} (host : Externals) (config : Sv1Config)

theorem keepsSuggestion_maybeInitStratum (client : StratumV1Client) (events : List Sv1Event) :
    KeepsSuggestion client (client.maybeInitStratum events).1 := by
  unfold maybeInitStratum
  split <;> rfl

theorem keepsSuggestion_pushRefreshedJob (client : StratumV1Client)
    (latestTemplate : Option JobTemplate) (now : ℕ) :
    KeepsSuggestion client (client.pushRefreshedJob latestTemplate now) := by
  cases latestTemplate <;> rfl

theorem keepsSuggestion_receiveTemplate (jobTemplate : JobTemplate) (now : ℕ) :
    KeepsSuggestion client (client.receiveTemplate jobTemplate now) := by
  show (receiveTemplate _ _ _).clientSuggestedDifficulty = _
  simp only [receiveTemplate]
  split <;> rfl

theorem keepsSuggestion_handleSetPayout (latestTemplate : Option JobTemplate) (address : String)
    (worker : Option String) (now : ℕ) : KeepsSuggestion client
      (client.handleSetPayout host config latestTemplate address worker now).1 := by
  unfold handleSetPayout
  split
  · exact keepsSuggestion_maybeInitStratum _ _
  · refine (keepsSuggestion_maybeInitStratum _ _).trans ?_
    split
    · exact keepsSuggestion_pushRefreshedJob _ _ now
    · rfl

theorem keepsSuggestion_subscribeTemplates (latestTemplate : Option JobTemplate) :
    KeepsSuggestion client (client.subscribeTemplates latestTemplate) := by
  unfold subscribeTemplates
  split
  · cases latestTemplate <;> rfl
  · rfl

theorem keepsSuggestion_difficultyTimer (latestTemplate : Option JobTemplate)
    (suggested : Option ℚ) (now : ℕ) :
    KeepsSuggestion client (client.difficultyTimer config latestTemplate suggested now).1 := by
  unfold difficultyTimer checkDifficulty
  split
  · split
    · rfl
    · simp only
      split
      · rfl
      · exact keepsSuggestion_pushRefreshedJob _ latestTemplate now
  · rfl

theorem keepsSuggestion_sendNewMiningJob (service : StratumV1JobsService) (k : ℕ)
    (inserted sent : Bool) (now : ℕ) : KeepsSuggestion client
      (client.sendNewMiningJob host config service k inserted sent now).2.1 := by
  unfold sendNewMiningJob
  split
  · simp only
    split
    · rfl
    · split
      · rfl
      · split <;> rfl
  · rfl

theorem keepsSuggestion_remember (submission : MiningSubmitMessage)
    (verdict : SubmissionVerdict) :
    KeepsSuggestion client (client.remember submission verdict) := by
  cases verdict <;> rfl

/-- An input of the pool that is no authorization, no submission and no suggestion. -/
theorem sv1Step_suggestion (world : Sv1World) {input : Sv1Input}
    (hauthorize : ∀ id user startingDiff, input ≠ .authorize id user startingDiff)
    (hsubmit : ∀ id params result fault, input ≠ .submit id params result fault)
    (hsuggest : ∀ id difficulty, input ≠ .suggestDifficulty id difficulty) (c : ℕ) :
    ClientRel KeepsSuggestion (world.clients c)
      ((sv1Step host config world input).1.clients c) := by
  have hrfl (client : StratumV1Client) : KeepsSuggestion client client := rfl
  cases input with
  | connect id payoutMode accountingProtocol =>
    simp only [sv1Step]
    split
    · rename_i hnone
      by_cases hc : c = id
      · subst hc
        simp only [Sv1World.setClient, if_true, hnone]
        exact .connected ..
      · simp only [Sv1World.setClient, if_neg hc]
        exact .refl hrfl _
    · exact .refl hrfl _
  | disconnect id => exact clients_update world (fun client _ => hrfl client) hrfl c
  | template template now =>
    simp only [sv1Step]
    cases world.clients c with
    | none => exact .absent
    | some client => exact .step (keepsSuggestion_receiveTemplate ..)
  | subscribe id randomHex =>
    refine clients_handle world (fun client => ?_) hrfl id c
    exact (keepsSuggestion_maybeInitStratum _ _).trans rfl
  | authorize id user startingDiff => exact absurd rfl (hauthorize id user startingDiff)
  | suggestDifficulty id difficulty => exact absurd rfl (hsuggest id difficulty)
  | setPayout id address worker now =>
    exact clients_handle world
      (fun client => keepsSuggestion_handleSetPayout host config _ address worker now) hrfl id c
  | subscribeTemplates id =>
    exact clients_update world (fun _ _ => keepsSuggestion_subscribeTemplates _) hrfl c
  | checkDifficulty id suggested now =>
    exact clients_update world
      (fun _ _ => keepsSuggestion_difficultyTimer config _ suggested now) hrfl c
  | sendJob id k inserted sent now =>
    simp only [sv1Step]
    split
    · exact .refl hrfl _
    · rename_i client hclient
      exact clients_setClient world hclient (keepsSuggestion_sendNewMiningJob ..) hrfl c
  | submit id params result fault => exact absurd rfl (hsubmit id params result fault)

/-- A suspended call that is no suggestion after its validation. -/
theorem keepsSuggestion_resume (service : StratumV1JobsService) (succeeded : Bool)
    (answer : Option String) {call : Suspended}
    (hcall : ∀ suggestedDifficulty, call ≠ .suggestValidation suggestedDifficulty) :
    KeepsSuggestion client (client.resume host config service succeeded answer call).1 := by
  cases call with
  | submitValidation params =>
    simp only [StratumV1Client.resume, resumeSubmitValidation]
    split
    · rfl
    · rename_i submission hparams
      have hremember : KeepsSuggestion client
          (client.remember submission (client.judgeSubmission host service submission)) :=
        keepsSuggestion_remember submission _
      split
      iterate 3
        · split
          · exact hremember
          · exact hremember
      · exact hremember
      · exact hremember
  | submitReply work =>
    simp only [StratumV1Client.resume, resumeSubmitReply]
    split
    · rfl
    · split
      · split <;> rfl
      · rfl
  | submitting work await =>
    cases await <;> cases succeeded <;> rfl
  | suggestValidation suggestedDifficulty => exact absurd rfl (hcall suggestedDifficulty)
  | suggestReply =>
    simp only [StratumV1Client.resume, resumeSuggestReply]
    split
    · rfl
    · exact keepsSuggestion_maybeInitStratum _ _

end

/-! ### The handlers that write the difficulty -/

section
variable {client client' : StratumV1Client} {config : Sv1Config}

theorem sessionInv_initial (payoutMode : PayoutMode) (accountingProtocol : ShareProtocol) :
    SessionInv (.initial payoutMode accountingProtocol) where
  target := rfl
  floor _ hnone := nomatch hnone

theorem SessionInv.keep (h : SessionInv client) (hkeeps : KeepsDifficulty client client')
    (hsuggestion : KeepsSuggestion client client') : SessionInv client' where
  target := by rw [hkeeps.target, hkeeps.session, h.target]
  floor := by
    rw [hsuggestion, hkeeps.session]
    exact h.floor

/-- What is clamped reaches what it was. -/
theorem reachesFloor_clampDifficulty (config : Sv1Config) (difficulty : Option ℚ) :
    ReachesFloor difficulty (clampDifficulty config difficulty) := by
  intro floor hfloor
  subst hfloor
  unfold clampDifficulty
  cases config.minimumDifficulty with
  | none => exact ⟨floor, rfl, le_refl floor⟩
  | some configuredMinimum => exact ⟨_, rfl, le_max_left floor configuredMinimum⟩

/-- The timer keeps to the floor. -/
theorem reachesFloor_retargetedDifficulty {suggested difficulty : Option ℚ}
    (h : retargetedDifficulty config client suggested = some difficulty) :
    ReachesFloor client.clientSuggestedDifficulty difficulty := by
  intro floor hfloor
  unfold retargetedDifficulty at h
  split at h
  · obtain ⟨targetDiff, -, rfl⟩ := Option.map_eq_some_iff.mp h
    refine ⟨client.suggestedFloor targetDiff, rfl, ?_⟩
    unfold suggestedFloor
    rw [hfloor]
    exact le_max_right targetDiff floor
  · cases h

/-- An authorization raises the difficulty only of a connection that suggested none. -/
theorem SessionInv.resumeAuthorizeValidation (h : SessionInv client) (host : Externals)
    (user : String) (startingDiff : Option ℚ) :
    SessionInv (client.resumeAuthorizeValidation host config user startingDiff).1 := by
  unfold StratumV1Client.resumeAuthorizeValidation
  cases parseAuthorization host config.network user with
  | none => exact h
  | some authorization =>
    simp only
    cases hsuggested : client.clientSuggestedDifficulty with
    | some floor =>
      have hfloor : ReachesFloor (some floor) client.sessionDifficulty := hsuggested ▸ h.floor
      exact ⟨h.target, hfloor⟩
    | none =>
      have hnone (difficulty : Option ℚ) : ReachesFloor none difficulty :=
        fun _ hnone => nomatch hnone
      cases startingDiff with
      | none => exact ⟨h.target, hnone _⟩
      | some startingDiff =>
        simp only
        split
        · -- both fields are written at once
          exact ⟨rfl, hnone _⟩
        · exact ⟨h.target, hnone _⟩

theorem SessionInv.resumeAuthorize (h : SessionInv client) (host : Externals) (succeeded : Bool)
    (call : Authorizing) :
    SessionInv (client.resumeAuthorize host config succeeded call).1 := by
  cases call with
  | validation user startingDiff => exact h.resumeAuthorizeValidation host user startingDiff
  | reply =>
    simp only [StratumV1Client.resumeAuthorize, resumeAuthorizeReply]
    split
    · exact ⟨h.target, h.floor⟩
    · exact h.keep (keepsDifficulty_maybeInitStratum _ _) (keepsSuggestion_maybeInitStratum _ _)

/-- A suspended submission or suggestion that goes on. -/
theorem SessionInv.resume (h : SessionInv client) (host : Externals)
    (service : StratumV1JobsService) (succeeded : Bool) (answer : Option String)
    (call : Suspended) :
    SessionInv (client.resume host config service succeeded answer call).1 := by
  by_cases hsuggests : ∃ suggestedDifficulty, call = .suggestValidation suggestedDifficulty
  · obtain ⟨suggestedDifficulty, rfl⟩ := hsuggests
    exact ⟨rfl, reachesFloor_clampDifficulty config (some suggestedDifficulty)⟩
  · have hcall : ∀ suggestedDifficulty, call ≠ .suggestValidation suggestedDifficulty :=
      fun suggestedDifficulty heq => hsuggests ⟨suggestedDifficulty, heq⟩
    have hresumes : let resumed := client.resume host config service succeeded answer call
        Resumes host config client call resumed.1 resumed.2.1 resumed.2.2 := resumes ..
    rcases hresumes.difficulty with hkeeps | ⟨suggestedDifficulty, heq, -⟩
    · exact h.keep hkeeps (keepsSuggestion_resume host config service succeeded answer hcall)
    · exact absurd heq (hcall suggestedDifficulty)

end

/-! ### The invariant -/

section
variable {host : Externals} {config : Sv1Config} {world : SessionWorld}

/-- Every connection has the invariant. -/
def SessionsInv (clients : ℕ → Option StratumV1Client) : Prop :=
  ∀ id client, clients id = some client → SessionInv client

theorem SessionsInv.setClient {pool : Sv1World} (h : SessionsInv pool.clients) (id : ℕ)
    {client : StratumV1Client} (hclient : SessionInv client) :
    SessionsInv (pool.setClient id client).clients := by
  intro id' client' hclient'
  by_cases hid : id' = id
  · simp only [Sv1World.setClient, if_pos hid] at hclient'
    obtain rfl := Option.some.inj hclient'
    exact hclient
  · simp only [Sv1World.setClient, if_neg hid] at hclient'
    exact h id' client' hclient'

variable {awaits : AwaitWorld}

/-- An input of the pool keeps the invariant: the difficulty moves only where the timer ticks. -/
theorem SessionsInv.poolStep (h : SessionsInv awaits.pool.clients) {input : Sv1Input}
    (hauthorize : ∀ id user startingDiff, input ≠ .authorize id user startingDiff)
    (hsubmit : ∀ id params result fault, input ≠ .submit id params result fault)
    (hsuggest : ∀ id difficulty, input ≠ .suggestDifficulty id difficulty) :
    SessionsInv (sv1Step host config awaits.pool input).1.clients := by
  intro c client' hclient'
  have hdifficulty : ClientRel (MovesDifficulty host config awaits (.begin input) c)
      (awaits.pool.clients c) ((sv1Step host config awaits.pool input).1.clients c) :=
    sv1Step_difficulty host config hsubmit hsuggest c
  have hsuggestion := sv1Step_suggestion host config awaits.pool hauthorize hsubmit hsuggest c
  rw [hclient'] at hdifficulty hsuggestion
  cases hclient : awaits.pool.clients c with
  | none =>
    rw [hclient] at hdifficulty
    cases hdifficulty
    exact sessionInv_initial _ _
  | some client =>
    rw [hclient] at hdifficulty hsuggestion
    cases hsuggestion with | step hkept =>
    cases hdifficulty with | step hmoves =>
    rcases hmoves with hkeeps | ⟨difficulty, hset, hsets⟩
    · exact (h c client hclient).keep hkeeps hkept
    · refine ⟨by rw [hsets.target, hsets.session], ?_⟩
      rw [hsets.session, hkept]
      cases input with
      | authorize id user startingDiff => exact absurd rfl (hauthorize id user startingDiff)
      | checkDifficulty id suggested now =>
        simp only [setsDifficulty] at hset
        split at hset
        · rename_i ticked hticked
          obtain ⟨difficulty', hretargeted, heq⟩ := Option.map_eq_some_iff.mp hset
          obtain ⟨rfl, rfl⟩ := Prod.mk.inj heq
          obtain rfl : client = ticked := Option.some.inj (hclient.symm.trans hticked)
          exact reachesFloor_retargetedDifficulty hretargeted
        · cases hset
      | _ => cases hset

theorem SessionsInv.beginSubmit (h : SessionsInv awaits.pool.clients) (id : ℕ)
    (params : List JsonValue) : SessionsInv (awaits.beginSubmit id params).pool.clients := by
  unfold AwaitWorld.beginSubmit
  split
  · rename_i client hclient
    split
    · exact h
    · split
      · -- only the socket ends
        exact h.setClient id ((h id client hclient).keep ⟨rfl, rfl⟩ rfl)
      · exact h
  · exact h

theorem SessionsInv.beginSuggestDifficulty (h : SessionsInv awaits.pool.clients) (id : ℕ)
    (suggestedDifficulty : ℚ) :
    SessionsInv (awaits.beginSuggestDifficulty id suggestedDifficulty).pool.clients := by
  unfold AwaitWorld.beginSuggestDifficulty
  split
  · split
    · exact h
    · exact h
  · exact h

/-- A step of the pool in which no authorization begins. -/
theorem SessionsInv.awaitStep (h : SessionsInv awaits.pool.clients) {input : AwaitInput}
    (hauthorize : ∀ id user startingDiff, input ≠ .begin (.authorize id user startingDiff)) :
    SessionsInv (awaitStep host config awaits input).1.pool.clients := by
  cases input with
  | begin input =>
    cases input with
    | authorize id user startingDiff => exact absurd rfl (hauthorize id user startingDiff)
    | submit id params result fault => exact h.beginSubmit id params
    | suggestDifficulty id difficulty => exact h.beginSuggestDifficulty id difficulty
    | _ =>
      simp only [Sv1.awaitStep]
      exact h.poolStep (by simp) (by simp) (by simp)
  | resume id k succeeded answer =>
    simp only [Sv1.awaitStep, AwaitWorld.resume]
    split
    · rename_i client call hclient hcall
      exact h.setClient id ((h id client hclient).resume host _ succeeded answer call)
    · exact h

/-- One step of the sessions keeps the invariant. -/
theorem SessionsInv.step (h : SessionsInv world.clients) (input : SessionInput) :
    SessionsInv (sessionStep host config world input).1.clients := by
  cases input with
  | awaits input =>
    by_cases hauthorizes : ∃ id user startingDiff,
        input = .begin (.authorize id user startingDiff)
    · obtain ⟨id, user, startingDiff, rfl⟩ := hauthorizes
      simp only [sessionStep, SessionWorld.beginAuthorize]
      split
      · split
        · exact h
        · exact h
      · exact h
    · have hauthorize : ∀ id user startingDiff,
          input ≠ .begin (.authorize id user startingDiff) :=
        fun id user startingDiff heq => hauthorizes ⟨id, user, startingDiff, heq⟩
      have hstep : SessionsInv (Sv1.awaitStep host config world.awaits input).1.pool.clients :=
        SessionsInv.awaitStep h hauthorize
      have hsame : (sessionStep host config world (.awaits input)).1.clients =
          (Sv1.awaitStep host config world.awaits input).1.pool.clients := by
        unfold sessionStep
        split
        · rename_i id user startingDiff heq
          exact absurd heq (by simpa using hauthorize id user startingDiff)
        · rename_i heq
          obtain rfl := SessionInput.awaits.inj heq
          rfl
        · rename_i heq
          cases heq
      rw [hsame]
      exact hstep
  | resumeAuthorize id k succeeded =>
    simp only [sessionStep, SessionWorld.resumeAuthorize]
    split
    · rename_i client call hclient hcall
      exact SessionsInv.setClient h id ((h id client hclient).resumeAuthorize host succeeded call)
    · exact h

variable (host config)

/-- Every run keeps the invariant. -/
theorem sessionsInv_final (inputs : List SessionInput) :
    SessionsInv ((sessionMachine host config).final .initial inputs).clients := by
  have hstep : ∀ (world : SessionWorld) (history : List (ℕ × Sv1Event)) (input : SessionInput),
      SessionsInv world.clients → True →
      SessionsInv ((sessionMachine host config).step world input).1.clients :=
    fun _ _ input hinv _ => hinv.step input
  have hstart : SessionsInv SessionWorld.initial.clients := fun _ _ hclient => nomatch hclient
  exact (sessionMachine host config).history_invariant hstep hstart
    ((sessionMachine host config).along_of_forall (fun _ _ _ => trivial) .initial [] inputs)

end

namespace Sv1Sample

/-- `A` suggests a difficulty while its authorization is validated, and then logs in with a
higher one. The timer ticks twice, far below the suggestion and above it. -/
def suggestRun : List SessionInput :=
  [.awaits (.begin (.connect 0 .solo .sv1)), .awaits (.begin (.subscribe 0 "abcdef01")),
    .awaits (.begin (.authorize 0 "A.rig" (some 500000))),
    .awaits (.begin (.suggestDifficulty 0 200000)), .awaits (.resume 0 0 true none),
    .resumeAuthorize 0 0 true, .awaits (.resume 0 0 true none), .resumeAuthorize 0 0 true,
    .awaits (.begin (.subscribeTemplates 0)),
    .awaits (.begin (.checkDifficulty 0 (some 1) 1700000060000)),
    .awaits (.begin (.checkDifficulty 0 (some 300000) 1700000120000))]

/-- The suggestion and the difficulty of `A`. -/
def floorOfA (inputs : List SessionInput) : Option (Option ℚ × Option ℚ) :=
  (((sessionMachine host config).final .initial inputs).clients 0).map fun client =>
    (client.clientSuggestedDifficulty, client.sessionDifficulty)

-- the authorization came too late to raise the difficulty, and the first tick does not lower it
example : floorOfA (suggestRun.take 10) = some (some 200000, some 200000) := by decide +kernel

end Sv1Sample

end PublicPool.Proofs
