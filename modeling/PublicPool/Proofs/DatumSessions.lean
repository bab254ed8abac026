import PublicPool.Datum.Service

/-!
# `PublicPool.Proofs.DatumSessions`: what a step does to a session

Every property of DATUM sessions over runs rests on one inversion: `session_step` lists the ways in
which a client can have a session after a step. The session was there before and the step left it
alone, the client connected, or the step handled a message of the client. What a submission leaves of
the session is `cachePow` of the job it was judged by, and of that job the judgement changes only the
outputs it is bound to (`judgePow_binds`).
-/

set_option autoImplicit false

namespace PublicPool.Proofs

open Datum
open Lib (Machine)

section
variable (host : Externals) (config : DatumConfig) (payout : PayoutConfig)

/-! ### Submissions -/

/-- The job that a submission is judged by. -/
def takenJob (state : DatumClientState) (pow : DatumPowSubmit) : DatumJobCache :=
  (maybeRequestDatumJobValidation pow.jobId (updateDatumJobCache state pow)).1

/-- The judgement of a submission. -/
def judged (latestTemplate : JobTemplate) (providerTemplate : Option TemplateProviderTemplate)
    (state : DatumClientState) (pow : DatumPowSubmit) : PowVerdict × DatumJobCache :=
  judgePow host config latestTemplate providerTemplate state pow (takenJob state pow)

variable (latestTemplate : JobTemplate) (providerTemplate : Option TemplateProviderTemplate)
  (state : DatumClientState) (pow : DatumPowSubmit) (datumJob : DatumJobCache)

/-- A complete job is refused and stays as it is, or it passes the payout check and is bound as the
check says. -/
theorem judgeCompleteJob_cases (coinbase : CoinbasePair) (prevBlockHash nBits : Bytes)
    (merkleBranches : List Bytes) (targetByteIndex : ℕ) :
    ((∀ validation, (judgeCompleteJob host config latestTemplate providerTemplate state pow datumJob
        coinbase prevBlockHash nBits merkleBranches targetByteIndex).1 ≠ .accepted validation) ∧
      (judgeCompleteJob host config latestTemplate providerTemplate state pow datumJob coinbase
        prevBlockHash nBits merkleBranches targetByteIndex).2 = datumJob) ∨
      ∃ payoutValidation,
        validateDatumCoinbasePayoutContext host config coinbase pow latestTemplate datumJob state
          = payoutValidation ∧
        (payoutValidation = .valid ∨ ∃ context, payoutValidation = .validFor context) ∧
        (judgeCompleteJob host config latestTemplate providerTemplate state pow datumJob coinbase
          prevBlockHash nBits merkleBranches targetByteIndex).2
          = bindContext datumJob payoutValidation := by
  have hrefused {verdict : PowVerdict} (h : ∀ validation, verdict ≠ .accepted validation) :
      (∀ validation, (verdict, datumJob).1 ≠ .accepted validation) ∧
        (verdict, datumJob).2 = datumJob := ⟨h, rfl⟩
  simp only [judgeCompleteJob]
  split
  · exact Or.inl (hrefused fun _ => PowVerdict.noConfusion)
  · split
    · exact Or.inl (hrefused fun _ => PowVerdict.noConfusion)
    · generalize validateDatumCoinbasePayoutContext host config coinbase pow latestTemplate datumJob
        state = payoutValidation
      cases payoutValidation with
      | threw => exact Or.inl (hrefused fun _ => PowVerdict.noConfusion)
      | invalid => exact Or.inl (hrefused fun _ => PowVerdict.noConfusion)
      | valid | validFor =>
        refine Or.inr ⟨_, rfl, by simp, ?_⟩
        -- what is left judges the header, with the job bound already
        dsimp only
        split
        · rfl
        · split
          · rfl
          · split
            · rfl
            · rfl

/-- A submission is refused and its job stays as it is, or its coinbase passes the payout check and
the job is bound as the check says. -/
theorem judgePow_cases :
    ((∀ validation, (judgePow host config latestTemplate providerTemplate state pow datumJob).1
        ≠ .accepted validation) ∧
      (judgePow host config latestTemplate providerTemplate state pow datumJob).2 = datumJob) ∨
      ∃ coinbase payoutValidation, getDatumCoinbase datumJob pow = some coinbase ∧
        validateDatumCoinbasePayoutContext host config coinbase pow latestTemplate datumJob state
          = payoutValidation ∧
        (payoutValidation = .valid ∨ ∃ context, payoutValidation = .validFor context) ∧
        (judgePow host config latestTemplate providerTemplate state pow datumJob).2
          = bindContext datumJob payoutValidation := by
  unfold judgePow
  split
  case h_2 => exact Or.inl ⟨fun _ => PowVerdict.noConfusion, rfl⟩
  case h_1 coinbase _ _ _ hcoinbase _ _ _ =>
    split
    · exact Or.inl ⟨fun _ => PowVerdict.noConfusion, rfl⟩
    · rcases judgeCompleteJob_cases host config latestTemplate providerTemplate state pow datumJob
        coinbase _ _ _ _ with hrefused | ⟨payoutValidation, hvalidation, hpassed, hbound⟩
      · exact Or.inl hrefused
      · exact Or.inr ⟨coinbase, payoutValidation, hcoinbase, hvalidation, hpassed, hbound⟩

/-- A job is judged as it is, or it is bound to an answer of the session that its coinbase pays. -/
theorem judgePow_binds :
    (judgePow host config latestTemplate providerTemplate state pow datumJob).2 = datumJob ∨
      ∃ coinbase context, getDatumCoinbase datumJob pow = some coinbase ∧
        validateDatumCoinbasePayoutContext host config coinbase pow latestTemplate datumJob state
          = .validFor context ∧
        (judgePow host config latestTemplate providerTemplate state pow datumJob).2
          = bindContext datumJob (.validFor context) := by
  rcases judgePow_cases host config latestTemplate providerTemplate state pow datumJob with
    ⟨-, hsame⟩ | ⟨coinbase, payoutValidation, hcoinbase, hvalidation, hpassed, hbound⟩
  · exact Or.inl hsame
  · rcases hpassed with rfl | ⟨context, rfl⟩
    · -- the coinbase pays the outputs that the job is held to already
      exact Or.inl hbound
    · exact Or.inr ⟨coinbase, context, hcoinbase, hvalidation, hbound⟩

variable {latestTemplate : JobTemplate} {providerTemplate : Option TemplateProviderTemplate}
  {state state' : DatumClientState} {pow : DatumPowSubmit} {world : DatumWorld} {client : ℕ}

/-- A submission that is accepted has a coinbase that passed the payout check, and its job is bound
as the check says. -/
theorem judgePow_accepted {datumJob : DatumJobCache} {validation : ShareValidationResult}
    (h : (judgePow host config latestTemplate providerTemplate state pow datumJob).1
      = .accepted validation) :
    ∃ coinbase payoutValidation, getDatumCoinbase datumJob pow = some coinbase ∧
      validateDatumCoinbasePayoutContext host config coinbase pow latestTemplate datumJob state
        = payoutValidation ∧
      (payoutValidation = .valid ∨ ∃ context, payoutValidation = .validFor context) ∧
      (judgePow host config latestTemplate providerTemplate state pow datumJob).2
        = bindContext datumJob payoutValidation := by
  rcases judgePow_cases host config latestTemplate providerTemplate state pow datumJob with
    ⟨hrefused, -⟩ | hpassed
  · exact absurd h (hrefused validation)
  · exact hpassed

/-- Whether the job of a submission gets into the cache: its user has an address, and the row of the
client can be stored. -/
def takesPow (state : DatumClientState) (pow : DatumPowSubmit) (fault : Option PowFault) : Bool :=
  isValidAddress host (parseUserIdentity normalizeAddress pow.username).address &&
    !(fault = some .insertClient ∧ !state.hasClientEntity)

/-- The session after a submission has the job of the submission, or the submission was not taken. -/
theorem session_handlePowSubmit {db : Database} {fault : Option PowFault}
    (h : (handlePowSubmit host config payout db latestTemplate providerTemplate state pow fault).1
      = some state') :
    (takesPow host state pow fault = false ∧ state' = state) ∨
      (takesPow host state pow fault = true ∧
        state' = cachePow state pow (parseUserIdentity normalizeAddress pow.username)
          (judged host config latestTemplate providerTemplate state pow).2) := by
  simp only [handlePowSubmit] at h
  split at h
  · rename_i hinvalid
    left
    have htakes : takesPow host state pow fault = false := by
      rw [Bool.not_eq_true'] at hinvalid
      rw [takesPow, hinvalid, Bool.false_and]
    split at h
    · cases h
    · exact ⟨htakes, (Option.some.inj h).symm⟩
  · rename_i hvalid
    right
    split at h
    · cases h
    · rename_i hstored
      have htakes : takesPow host state pow fault = true := by
        rw [Bool.not_eq_true', Bool.not_eq_false] at hvalid
        rw [takesPow, hvalid, Bool.true_and, Bool.not_eq_true', decide_eq_false_iff_not]
        exact hstored
      refine ⟨htakes, ?_⟩
      split at h
      · split at h
        · cases h
        · exact (Option.some.inj h).symm
      · cases h
      · split at h
        · cases h
        · exact (Option.some.inj h).symm

/-! ### Steps -/

/-- Whether an input is one for the session of a client: a connection, a submission that is taken or
a validation response. -/
def ForSession (world : DatumWorld) (client : ℕ) : DatumInput → Prop
  | .connect other _ _ => client = other
  | .powSubmit other pow fault =>
    client = other ∧ world.latestTemplate.isSome ∧
      ∃ state, world.sessions client = some state ∧ takesPow host state pow fault = true
  | .jobValidation other _ => client = other
  | _ => False

/-- How a client comes to have a session after a step. -/
inductive SessionStep (world : DatumWorld) (client : ℕ) : DatumInput → DatumClientState → Prop
  | kept {input : DatumInput} {state : DatumClientState}
      (hsession : world.sessions client = some state) (hother : ¬ForSession host world client input) :
      SessionStep world client input state
  | opened (sessionId : String) (payoutMode : PayoutMode) :
      SessionStep world client (.connect client sessionId payoutMode)
        (.initial sessionId payoutMode)
  | fetched {state state' : DatumClientState} {latestTemplate : JobTemplate} {rewardValue : ℕ}
      (hsession : world.sessions client = some state)
      (htemplate : world.latestTemplate = some latestTemplate)
      (hfetch : (handleCoinbaserFetch host config latestTemplate state rewardValue).1
        = some state') :
      SessionStep world client (.coinbaserFetch client rewardValue) state'
  | submitted {state : DatumClientState} {latestTemplate : JobTemplate} {pow : DatumPowSubmit}
      {fault : Option PowFault} (hsession : world.sessions client = some state)
      (htemplate : world.latestTemplate = some latestTemplate)
      (htakes : takesPow host state pow fault = true) :
      SessionStep world client (.powSubmit client pow fault)
        (cachePow state pow (parseUserIdentity normalizeAddress pow.username)
          (judged host config latestTemplate world.providerTemplate state pow).2)
  | answered {state : DatumClientState} {response : DatumJobValidationResponse}
      (hsession : world.sessions client = some state) :
      SessionStep world client (.jobValidation client response)
        (handleJobValidationResponse host state response).1

theorem sessions_setSession (world : DatumWorld) (client other : ℕ)
    (state : Option DatumClientState) :
    (world.setSession client state).sessions other
      = if other = client then state else world.sessions other := rfl

theorem session_step {input : DatumInput}
    (h : (datumStep host config payout world input).1.sessions client = some state') :
    SessionStep host config world client input state' := by
  cases input with
  | connect other sessionId payoutMode =>
    simp only [datumStep, sessions_setSession] at h
    split at h
    · rename_i hclient
      obtain rfl := hclient
      obtain rfl := Option.some.inj h
      exact .opened sessionId payoutMode
    · rename_i hclient
      exact .kept h hclient
  | disconnect other =>
    simp only [datumStep, sessions_setSession] at h
    split at h
    · cases h
    · exact .kept h id
  | template latestTemplate providerTemplate => exact .kept h id
  | rollups batches summaries => exact .kept h id
  | createSnapshot input => exact .kept h id
  | coinbaserFetch other rewardValue =>
    simp only [datumStep] at h
    split at h
    · rename_i state latestTemplate hsession htemplate
      rw [sessions_setSession] at h
      split at h
      · rename_i hclient
        obtain rfl := hclient
        exact .fetched hsession htemplate h
      · exact .kept h id
    · exact .kept h id
  | powSubmit other pow fault =>
    simp only [datumStep] at h
    split at h
    · rename_i state latestTemplate hsession htemplate
      replace h : (if client = other then (handlePowSubmit host config payout world.database
        latestTemplate world.providerTemplate state pow fault).1 else world.sessions client)
          = some state' := h
      split at h
      · rename_i hclient
        obtain rfl := hclient
        rcases session_handlePowSubmit host config payout h with ⟨htakes, rfl⟩ | ⟨htakes, rfl⟩
        · refine .kept hsession ?_
          rintro ⟨-, -, state, hstate, htaken⟩
          obtain rfl := Option.some.inj (hsession.symm.trans hstate)
          rw [htakes] at htaken
          cases htaken
        · exact .submitted hsession htemplate htakes
      · rename_i hclient
        exact .kept h fun hfor => hclient hfor.1
    · -- there is no session or no template yet
      rename_i hnone
      refine .kept h ?_
      rintro ⟨rfl, htemplate, state, hstate, -⟩
      obtain ⟨latestTemplate, htemplate⟩ := Option.isSome_iff_exists.mp htemplate
      exact hnone state latestTemplate hstate htemplate
  | jobValidation other response =>
    simp only [datumStep] at h
    split at h
    · rename_i state hsession
      rw [sessions_setSession] at h
      split at h
      · rename_i hclient
        obtain rfl := hclient
        obtain rfl := Option.some.inj h
        exact .answered hsession
      · rename_i hclient
        exact .kept h hclient
    · rename_i hnone
      refine .kept h ?_
      intro hclient
      obtain rfl : client = other := hclient
      rw [hnone] at h
      cases h

/-- The invariant rule for sessions: what every way to a session keeps holds of every session of a
run. The invariant may look back at the inputs. -/
theorem sessions_invariant (Inv : List DatumInput → ℕ → DatumClientState → Prop)
    (hstart : ∀ client, world.sessions client = none) (hstep : ∀ before input client state',
      (∀ state, ((datumMachine host config payout).final world before).sessions client = some state →
        Inv before client state) →
      SessionStep host config ((datumMachine host config payout).final world before) client input
        state' → Inv (before ++ [input]) client state') (inputs : List DatumInput)
    (h : ((datumMachine host config payout).final world inputs).sessions client = some state) :
    Inv inputs client state := by
  induction inputs using List.reverseRecOn generalizing client state with
  | nil =>
    rw [Machine.final_nil, hstart] at h
    cases h
  | append_singleton before input ih =>
    rw [Machine.final_append] at h
    exact hstep before input client state (fun _ hsession => ih hsession)
      (session_step host config payout h)

/-! ### Coinbaser ids -/

/-- The ids of a session's answers fit one byte. -/
theorem nextCoinbaserId_le (hstart : ∀ client, world.sessions client = none)
    (inputs : List DatumInput)
    (h : ((datumMachine host config payout).final world inputs).sessions client = some state) :
    state.nextCoinbaserId ≤ 254 := by
  refine sessions_invariant host config payout (fun _ _ state => state.nextCoinbaserId ≤ 254) hstart
    ?_ inputs h
  intro before input client state' ih hcase
  cases hcase with
  | kept hsession _ => exact ih _ hsession
  | opened => exact (by decide : 1 ≤ 254)
  | @submitted state _ _ _ hsession _ _ =>
    show state.nextCoinbaserId ≤ 254
    exact ih _ hsession
  | @answered state response hsession =>
    have hsame : (handleJobValidationResponse host state response).1.nextCoinbaserId
        = state.nextCoinbaserId := by
      unfold handleJobValidationResponse
      split <;> rfl
    rw [hsame]
    exact ih _ hsession
  | @fetched state _ latestTemplate rewardValue hsession _ hfetch =>
    have hle := ih _ hsession
    simp only [handleCoinbaserFetch] at hfetch
    split at hfetch
    · cases hfetch
    · cases hfetch
    · split at hfetch
      · obtain rfl := Option.some.inj hfetch
        show (if 254 ≤ state.nextCoinbaserId then 1 else state.nextCoinbaserId + 1) ≤ 254
        split <;> omega
      · cases hfetch

end

end PublicPool.Proofs
