import PublicPool.Sv2.TemplateDistribution

/-!
# `PublicPool.Proofs.Sv2.ServedTemplates`: where the templates of the server come from

The template distribution server keeps the templates that the pool has published, in the template
provider and with the connections that were served them. It makes no template of its own. So what
is true of every published template, in the form that the provider gives it, is true of every
template that is ever looked up: `TdpServes.step` says so of one step.
-/

set_option autoImplicit false

namespace PublicPool.Proofs

open Sv2

/-- What is true of a job template whatever id the provider gives it. -/
def AsProvided (P : TemplateProviderTemplate → Prop) (jobTemplate : JobTemplate) : Prop :=
  ∀ templateId, P (.ofJobTemplate templateId jobTemplate)

section
variable {P : TemplateProviderTemplate → Prop}

/-! ### The provider -/

/-- The provider keeps templates of one kind only. -/
def KeepsOnly (P : TemplateProviderTemplate → Prop) (templates : TemplateProviderService) : Prop :=
  ∀ templateId kept, templates.templates templateId = some kept → P kept.template

theorem keepsOnly_initial (retentionMs : ℕ) : KeepsOnly P (.initial retentionMs) :=
  fun _ _ hkept => by cases hkept

variable {templates : TemplateProviderService} {templateId : ℕ}
  {template : TemplateProviderTemplate} {connection : TdpConnection}

theorem KeepsOnly.cleanup (h : KeepsOnly P templates) (now : ℕ) :
    KeepsOnly P (templates.cleanup now) :=
  fun templateId kept hkept => h templateId kept (Option.filter_eq_some_iff.mp hkept).1

variable {jobTemplate : JobTemplate} {now id : ℕ} {world : TdpWorld}

theorem KeepsOnly.upsert (h : KeepsOnly P templates) (host : Externals)
    (hP : AsProvided P jobTemplate) (now : ℕ) :
    KeepsOnly P (templates.upsert host jobTemplate now) := by
  unfold TemplateProviderService.upsert
  dsimp only
  split
  · exact h.cleanup now
  · intro templateId kept hkept
    dsimp only at hkept
    split at hkept
    · cases hkept
      exact hP _
    · exact h.cleanup now templateId kept hkept

theorem KeepsOnly.getTemplate (h : KeepsOnly P templates)
    (hget : templates.getTemplate templateId now = some template) : P template := by
  obtain ⟨kept, hkept, rfl⟩ := Option.map_eq_some_iff.mp hget
  exact h.cleanup now templateId kept hkept

/-! ### The template distribution server -/

/-- The templates of the server and of its connections are of one kind. -/
structure TdpServes (P : TemplateProviderTemplate → Prop) (world : TdpWorld) : Prop where
  templates : KeepsOnly P world.templates
  latest : ∀ jobTemplate ∈ world.latestTemplate, AsProvided P jobTemplate
  served : ∀ id, ∀ connection ∈ world.connections id,
    ∀ templateId, ∀ template ∈ connection.servedTemplates templateId, P template

theorem tdpServes_initial (retentionMs : ℕ) : TdpServes P (.initial retentionMs) where
  templates := keepsOnly_initial retentionMs
  latest _ hlatest := by cases hlatest
  served _ _ hconnection := by cases hconnection

/-- The template that a connection asks for. -/
theorem TdpServes.getServedOrProviderTemplate (h : TdpServes P world)
    (hconnection : world.connections id = some connection)
    (hget : connection.getServedOrProviderTemplate world.templates templateId now = some template) :
    P template := by
  rcases Option.or_eq_some_iff.mp hget with hserved | ⟨-, hkept⟩
  · exact h.served id connection hconnection templateId template hserved
  · exact h.templates.getTemplate hkept

theorem TdpServes.setConnection (h : TdpServes P world)
    (hconnection : ∀ templateId, ∀ template ∈ connection.servedTemplates templateId, P template) :
    TdpServes P (world.setConnection id connection) where
  templates := h.templates
  latest := h.latest
  served id' connection' hmem := by
    simp only [TdpWorld.setConnection] at hmem
    split at hmem
    · cases hmem
      exact hconnection
    · exact h.served id' connection' hmem

theorem serveTemplate_served
    (h : ∀ templateId, ∀ template ∈ connection.servedTemplates templateId, P template)
    (htemplate : P template) :
    ∀ templateId', ∀ template' ∈
      (connection.serveTemplate templateId template).servedTemplates templateId', P template' := by
  intro templateId' template' hmem
  simp only [TdpConnection.serveTemplate] at hmem
  split at hmem
  · cases hmem
    exact htemplate
  · exact h templateId' template' hmem

theorem cachedTemplate_asProvided {host : Externals} (hP : AsProvided P jobTemplate)
    {cached : ℕ × TemplateProviderTemplate}
    (h : TdpWorld.cachedTemplate host jobTemplate = some cached) : P cached.2 := by
  obtain ⟨_, -, rfl⟩ := Option.map_eq_some_iff.mp h
  exact hP _

variable {host : Externals} {config : TdpConfig}

/-- Every step serves published templates. -/
theorem TdpServes.step {world : TdpWorld} (h : TdpServes P world) {input : TdpInput}
    (hpublished : ∀ jobTemplate now, input = .template jobTemplate now → AsProvided P jobTemplate) :
    TdpServes P (tdpStep host config world input).1 := by
  cases input with
  | connect id payoutMode =>
    simp only [tdpStep]
    split
    · exact h.setConnection fun _ _ hserved => by cases hserved
    · exact h
  | disconnect id =>
    simp only [tdpStep]
    split
    · exact h
    · rename_i connection hconnection
      exact h.setConnection (h.served id connection hconnection)
  | template jobTemplate now =>
    have hP := hpublished jobTemplate now rfl
    refine ⟨h.templates.upsert host hP now, fun _ hlatest => Option.some.inj hlatest ▸ hP, ?_⟩
    intro id connection' hconnection'
    obtain ⟨connection, hconnection, rfl⟩ := Option.map_eq_some_iff.mp hconnection'
    have hserved := h.served id connection hconnection
    split
    · rename_i templateId template hcached
      split
      · exact serveTemplate_served hserved (cachedTemplate_asProvided hP hcached)
      · exact hserved
    · exact hserved
  | coinbaseOutputConstraints id now =>
    simp only [tdpStep]
    split
    · exact h
    · rename_i connection hconnection
      have hserved := h.served id connection hconnection
      unfold TdpWorld.subscribe
      split
      · exact h
      · dsimp only
        split
        · exact h.setConnection hserved
        · rename_i jobTemplate hlatest
          have hP := h.latest jobTemplate hlatest
          have hkept : TdpServes P
              { world with templates := world.templates.upsert host jobTemplate now } :=
            ⟨h.templates.upsert host hP now, h.latest, h.served⟩
          split
          · exact hkept.setConnection hserved
          · rename_i templateId template hcached
            exact hkept.setConnection
              (serveTemplate_served hserved (cachedTemplate_asProvided hP hcached))
  | requestTransactionData id templateId now =>
    simp only [tdpStep]
    split
    · exact h
    · rename_i connection hconnection
      unfold TdpWorld.requestTransactionData
      split
      · exact h
      · rename_i template hget
        exact h.setConnection (serveTemplate_served (h.served id connection hconnection)
          (h.getServedOrProviderTemplate hconnection hget))
  | submitSolution id solution now result fails =>
    simp only [tdpStep]
    split
    · exact h
    · rename_i connection hconnection
      have hserved := h.served id connection hconnection
      unfold TdpWorld.submitSolution TdpConnection.afterSolution
      dsimp only
      split
      · exact h.setConnection hserved
      · exact h.setConnection hserved
      · exact h.setConnection hserved

/-- A call of a solution comes from the step that handles it. -/
theorem mem_step_submitted {world : TdpWorld} {input : TdpInput} {id : ℕ}
    {solution : Sv2TdpSubmitSolution} {template : TemplateProviderTemplate} {call : SubmitCall}
    (h : (id, .submitted solution template call) ∈ (tdpStep host config world input).2) :
    ∃ connection now result fails block blockHex solutionKey,
      world.connections id = some connection ∧
        connection.judgeSubmitSolution host config world.templates solution now
          = .accepted template block blockHex solutionKey ∧
        call ∈ (reportBlock (connection.tdpFoundBlock config template solution.templateId.toNat
          blockHex) result).calls fails := by
  cases input with
  | connect id' payoutMode =>
    simp only [tdpStep] at h
    split at h <;> cases h
  | disconnect id' =>
    simp only [tdpStep] at h
    split at h <;> cases h
  | template jobTemplate now => cases h
  | coinbaseOutputConstraints id' now =>
    simp only [tdpStep] at h
    split at h
    · cases h
    · obtain ⟨event, hevent, heq⟩ := List.mem_map.mp h
      cases heq
      unfold TdpWorld.subscribe at hevent
      split at hevent
      · cases hevent
      · dsimp only at hevent
        split at hevent
        · cases hevent
        · split at hevent
          · cases hevent
          · cases List.mem_singleton.mp hevent
  | requestTransactionData id' templateId now =>
    simp only [tdpStep] at h
    split at h
    · cases h
    · obtain ⟨event, hevent, heq⟩ := List.mem_map.mp h
      cases heq
      unfold TdpWorld.requestTransactionData at hevent
      split at hevent <;> cases List.mem_singleton.mp hevent
  | submitSolution id' solution' now result fails =>
    simp only [tdpStep] at h
    split at h
    · cases h
    · rename_i connection hconnection
      obtain ⟨event, hevent, heq⟩ := List.mem_map.mp h
      cases heq
      unfold TdpWorld.submitSolution at hevent
      dsimp only at hevent
      split at hevent
      · cases List.mem_singleton.mp hevent
      · rename_i template' block blockHex solutionKey hverdict
        obtain ⟨call', hcall, heq⟩ := List.mem_map.mp hevent
        cases heq
        rw [TdpConnection.handleSubmitSolution, hverdict] at hcall
        exact ⟨connection, now, result, fails, block, blockHex, solutionKey, hconnection, hverdict,
          hcall⟩
      · cases hevent

end

end PublicPool.Proofs
