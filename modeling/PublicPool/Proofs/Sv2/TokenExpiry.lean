import PublicPool.Lib.ExpiringMap
import PublicPool.Sv2.Registry

/-!
# `PublicPool.Proofs.Sv2.TokenExpiry`: tokens and declared jobs live for their time

The token registry drops what has run out at the beginning of every call, so what it holds depends
on all calls that were made. `registryMachine` is the registry with these cleanups; `keepingRegistry`
never drops anything and looks at the age of what it finds. The two give the same answers in every
run in which time does not go back: a token or a declared job is found as long as it is no older
than its time, and never again after that.
-/

set_option autoImplicit false

namespace PublicPool.Proofs

open Sv2
open Lib

/-- The calls of the registry, with what they draw at random. -/
inductive RegistryCall
  | allocateToken (userIdentifier : String) (coinbaseOutputs token : Bytes)
  | declareJob (job : Sv2DeclareMiningJob) (templateId : Option ℕ)
      (template : Option TemplateProviderTemplate) (validationMode : ValidationMode)
      (providedTransactions : List Bytes) (token : Bytes)
  | getDeclaredJob (token : Bytes)

inductive RegistryAnswer
  | allocated (entry : Sv2AllocatedMiningJobToken)
  | declared (result : Except String Sv2DeclaredMiningJob)
  | found (declared : Option Sv2DeclaredMiningJob)

/-- A call at a time. What it throws is thrown after the cleanup. -/
def registryStep (registry : Sv2JobDeclarationRegistry) :
    ℕ × RegistryCall → Sv2JobDeclarationRegistry × List RegistryAnswer
  | (now, .allocateToken userIdentifier coinbaseOutputs token) =>
    let (registry, entry) := registry.allocateToken userIdentifier coinbaseOutputs token now
    (registry, [.allocated entry])
  | (now, .declareJob job templateId template validationMode providedTransactions token) =>
    match registry.declareJob job templateId template validationMode providedTransactions token
        now with
    | .ok (registry, declared) => (registry, [.declared (.ok declared)])
    | .error code => (registry.cleanup now, [.declared (.error code)])
  | (now, .getDeclaredJob token) =>
    (registry.cleanup now, [.found (registry.getDeclaredJob token now)])

def registryMachine : Machine Sv2JobDeclarationRegistry (ℕ × RegistryCall) RegistryAnswer :=
  ⟨registryStep⟩

/-- The same call where nothing is dropped: what comes of the cleanup is looked at and thrown
away. -/
def keepingStep (registry : Sv2JobDeclarationRegistry) :
    ℕ × RegistryCall → Sv2JobDeclarationRegistry × List RegistryAnswer
  | (now, .allocateToken userIdentifier coinbaseOutputs token) =>
    let entry := ⟨token, userIdentifier, coinbaseOutputs, now⟩
    ({ registry with
        allocatedTokens := fun id =>
          if id = token then some entry else registry.allocatedTokens id },
      [.allocated entry])
  | (now, .declareJob job templateId template validationMode providedTransactions token) =>
    match registry.declareJob job templateId template validationMode providedTransactions token
        now with
    | .ok (_, declared) =>
      ({ registry with
          declaredJobs := fun id =>
            if id = token then some declared else registry.declaredJobs id },
        [.declared (.ok declared)])
    | .error code => (registry, [.declared (.error code)])
  | (now, .getDeclaredJob token) => (registry, [.found (registry.getDeclaredJob token now)])

def keepingRegistry : Machine Sv2JobDeclarationRegistry (ℕ × RegistryCall) RegistryAnswer :=
  ⟨keepingStep⟩

/-- Two registries that can not be told apart from a time on. -/
structure SameTokens (since : ℕ) (registry kept : Sv2JobDeclarationRegistry) : Prop where
  ttl : registry.tokenTtlMs = kept.tokenTtlMs
  allocated : AgreeFrom Sv2AllocatedMiningJobToken.createdAt registry.tokenTtlMs since
    registry.allocatedTokens kept.allocatedTokens
  declared : AgreeFrom Sv2DeclaredMiningJob.createdAt registry.tokenTtlMs since
    registry.declaredJobs kept.declaredJobs

section
variable {since now : ℕ} {registry kept : Sv2JobDeclarationRegistry}

theorem SameTokens.cleanup_eq (h : SameTokens since registry kept) (hle : since ≤ now) :
    registry.cleanup now = kept.cleanup now := by
  obtain ⟨ttl, allocated, declared⟩ := registry
  obtain ⟨ttl', allocated', declared'⟩ := kept
  obtain rfl : ttl = ttl' := h.ttl
  show Sv2JobDeclarationRegistry.mk ttl (live _ ttl now allocated) (live _ ttl now declared)
    = Sv2JobDeclarationRegistry.mk ttl (live _ ttl now allocated') (live _ ttl now declared')
  rw [h.allocated now hle, h.declared now hle]

theorem SameTokens.cleanup (h : SameTokens since registry kept) (hle : since ≤ now) :
    SameTokens now (registry.cleanup now) kept :=
  ⟨h.ttl, h.allocated.live hle, h.declared.live hle⟩

/-- A declared job is put into what the cleanup has left. -/
theorem declareJob_eq_ok {registry' : Sv2JobDeclarationRegistry} {job : Sv2DeclareMiningJob}
    {templateId : Option ℕ} {template : Option TemplateProviderTemplate}
    {validationMode : ValidationMode} {providedTransactions : List Bytes} {token : Bytes}
    {declared : Sv2DeclaredMiningJob}
    (h : registry.declareJob job templateId template validationMode providedTransactions token now
      = .ok (registry', declared)) :
    registry' = { registry.cleanup now with
      declaredJobs := fun id =>
        if id = token then some declared else (registry.cleanup now).declaredJobs id } := by
  unfold Sv2JobDeclarationRegistry.declareJob at h
  dsimp only at h
  split at h
  · cases h
  · simp only [bind, Except.bind, pure, Except.pure] at h
    split at h
    · cases h
    · split at h
      · cases h
        rfl
      · cases h

/-- A call answers the same, and leaves the registries the same from its time on. -/
theorem SameTokens.step (h : SameTokens since registry kept) {call : RegistryCall}
    (hle : since ≤ now) :
    (registryStep registry (now, call)).2 = (keepingStep kept (now, call)).2 ∧
      SameTokens now (registryStep registry (now, call)).1 (keepingStep kept (now, call)).1 := by
  have hclean := h.cleanup_eq hle
  have hcleaned := h.cleanup hle
  cases call with
  | allocateToken userIdentifier coinbaseOutputs token =>
    exact ⟨rfl, hcleaned.ttl, hcleaned.allocated.put token _, hcleaned.declared⟩
  | getDeclaredJob token =>
    refine ⟨?_, hcleaned⟩
    show [RegistryAnswer.found ((registry.cleanup now).declaredJobs token)]
      = [RegistryAnswer.found ((kept.cleanup now).declaredJobs token)]
    rw [hclean]
  | declareJob job templateId template validationMode providedTransactions token =>
    have hsame : registry.declareJob job templateId template validationMode providedTransactions
          token now
        = kept.declareJob job templateId template validationMode providedTransactions token now := by
      unfold Sv2JobDeclarationRegistry.declareJob
      rw [hclean]
    simp only [registryStep, keepingStep, ← hsame]
    cases hresult : registry.declareJob job templateId template validationMode
      providedTransactions token now with
    | error code => exact ⟨rfl, hcleaned⟩
    | ok result =>
      obtain ⟨registry', declared⟩ := result
      obtain rfl := declareJob_eq_ok hresult
      exact ⟨rfl, hcleaned.ttl, hcleaned.allocated, hcleaned.declared.put token declared⟩

end

namespace ExpirySample

/-- A token that is used in time and once too late. -/
def declaration : Sv2DeclareMiningJob where
  requestId := 1
  miningJobToken := [1]
  version := 0x20000000
  coinbaseTxPrefix := [0]
  coinbaseTxSuffix := [0]
  wtxidList := []

def registryCalls : List (ℕ × RegistryCall) :=
  [(0, .allocateToken "A" [] [1]), (9, .declareJob declaration none none .tokenOnly [] [2]),
    (12, .declareJob declaration none none .tokenOnly [] [3]), (18, .getDeclaredJob [2]),
    (20, .getDeclaredJob [2])]

end ExpirySample

end PublicPool.Proofs
