import PublicPool.Accounting
import PublicPool.Mining.Job

/-!
# `PublicPool.Mining.JobsService`: the jobs of all connections

The model of the state of `services/stratum-v1-jobs.service.ts`. The service numbers templates
and jobs with two counters that never go back, and keeps them under the hexadecimal text of
their numbers. A template that clears jobs drops everything older; any other template drops what
is older than five minutes.

Every connection of the pool adds its jobs here and looks up jobs here, its own or not.
`Numbered` is the invariant that makes an id stand for one job only.
-/

set_option autoImplicit false

namespace PublicPool

/-- `StratumV1JobsService`. `latestTemplate` is what `newMiningJob$` last emitted, which it
replays to late subscribers. -/
structure StratumV1JobsService where
  latestJobId : ℕ
  latestJobTemplateId : ℕ
  jobs : String → Option MiningJob
  blocks : String → Option JobTemplate
  latestTemplate : Option JobTemplate

namespace StratumV1JobsService

/-- The service when it starts. -/
def initial : StratumV1JobsService where
  latestJobId := 1
  latestJobTemplateId := 1
  jobs _ := none
  blocks _ := none
  latestTemplate := none

/-- Five minutes, in milliseconds. -/
def maxAge : ℕ := 1000 * 60 * 5

/-- A template with its number and creation time. -/
def numberTemplate (service : StratumV1JobsService) (template : JobTemplate) (now : ℕ) :
    JobTemplate :=
  { template with
    blockData :=
      { template.blockData with
        id := Js.toString16 service.latestJobTemplateId
        creation := now } }

/-- What `newMiningJob$` does with a template before it emits it. -/
def publish (service : StratumV1JobsService) (template : JobTemplate) (now : ℕ) :
    StratumV1JobsService :=
  let data := service.numberTemplate template now
  let blocks : String → Option JobTemplate :=
    if data.blockData.clearJobs then fun _ => none
    else fun id => (service.blocks id).filter fun block => now - block.blockData.creation ≤ maxAge
  let jobs : String → Option MiningJob :=
    if data.blockData.clearJobs then fun _ => none
    else fun id => (service.jobs id).filter fun job => now - job.creation ≤ maxAge
  { service with
    latestJobTemplateId := service.latestJobTemplateId + 1
    jobs
    blocks := fun id => if id = data.blockData.id then some data else blocks id
    latestTemplate := some data }

def getJobTemplateById (service : StratumV1JobsService) (id : String) : Option JobTemplate :=
  service.blocks id

def getJobById (service : StratumV1JobsService) (id : String) : Option MiningJob :=
  service.jobs id

/-- The id of the next job. -/
def getNextId (service : StratumV1JobsService) : String := Js.toString16 service.latestJobId

def addJob (service : StratumV1JobsService) (job : MiningJob) : StratumV1JobsService :=
  { service with
    jobs := fun id => if id = job.jobId then some job else service.jobs id
    latestJobId := service.latestJobId + 1 }

end StratumV1JobsService

/-! ### Numbers and their text -/

namespace Js

/-- The number that hexadecimal digits stand for. -/
def readHex (digits : List Char) : ℕ :=
  digits.foldl (fun n c => 16 * n + (hexDigit? c).getD 0) 0

theorem hexDigit?_digitChar {d : ℕ} (h : d < 16) : hexDigit? d.digitChar = some d := by
  revert d
  decide

theorem readHex_toDigits (n : ℕ) : readHex (Nat.toDigits 16 n) = n := by
  induction n using Nat.strongRecOn with
  | ind n ih =>
    by_cases hn : n < 16
    · rw [Nat.toDigits_of_lt_base hn]
      simp [readHex, hexDigit?_digitChar hn]
    · have hlast := hexDigit?_digitChar (Nat.mod_lt n (by omega : 16 > 0))
      have hfront := ih (n / 16) (by omega)
      rw [Nat.toDigits_of_base_le (by omega) (by omega), readHex, List.foldl_append]
      rw [readHex] at hfront
      simp only [hfront, List.foldl_cons, List.foldl_nil, hlast, Option.getD_some]
      omega

theorem toString16_inj {a b : ℕ} : toString16 a = toString16 b ↔ a = b := by
  constructor
  · intro h
    have hdigits := congrArg (fun s => readHex s.toList) h
    simpa [toString16, readHex_toDigits] using hdigits
  · intro h
    rw [h]

end Js

namespace StratumV1JobsService

/-- Every live job and template has the text of a number that was given out, under which it is
kept. -/
structure Numbered (service : StratumV1JobsService) : Prop where
  job : ∀ {id job}, service.jobs id = some job →
    job.jobId = id ∧ ∃ n < service.latestJobId, id = Js.toString16 n
  block : ∀ {id template}, service.blocks id = some template →
    template.blockData.id = id ∧ ∃ n < service.latestJobTemplateId, id = Js.toString16 n

theorem numbered_initial : initial.Numbered where
  job h := by cases h
  block h := by cases h

section
variable {service : StratumV1JobsService} {template : JobTemplate} {now : ℕ} {id : String}
  {job : MiningJob}

/-- A published template only removes jobs. -/
theorem jobs_publish (h : (service.publish template now).jobs id = some job) :
    service.jobs id = some job ∧ (service.numberTemplate template now).blockData.clearJobs
      = false := by
  simp only [publish] at h
  split at h
  · cases h
  · rename_i hclear
    exact ⟨(Option.filter_eq_some_iff.mp h).1, by simpa using hclear⟩

/-- A published template adds itself and otherwise only removes templates. -/
theorem blocks_publish {block : JobTemplate}
    (h : (service.publish template now).blocks id = some block) :
    (id = Js.toString16 service.latestJobTemplateId ∧
        block = service.numberTemplate template now) ∨ service.blocks id = some block := by
  simp only [publish] at h
  split at h
  · rename_i hid
    cases h
    exact Or.inl ⟨hid, rfl⟩
  · right
    split at h
    · cases h
    · exact (Option.filter_eq_some_iff.mp h).1

theorem Numbered.publish (h : service.Numbered) (template : JobTemplate) (now : ℕ) :
    (service.publish template now).Numbered where
  job hjob := h.job (jobs_publish hjob).1
  block hblock := by
    rcases blocks_publish hblock with ⟨hid, rfl⟩ | hblock
    · exact ⟨hid.symm, service.latestJobTemplateId, Nat.lt_succ_self _, hid⟩
    · obtain ⟨hid, n, hlt, hn⟩ := h.block hblock
      exact ⟨hid, n, Nat.lt_succ_of_lt hlt, hn⟩

/-- A job under the next id is the one new job. -/
theorem jobs_addJob {job' : MiningJob} (h : (service.addJob job).jobs id = some job') :
    (id = job.jobId ∧ job' = job) ∨ (id ≠ job.jobId ∧ service.jobs id = some job') := by
  simp only [addJob] at h
  split at h
  · rename_i hid
    cases h
    exact Or.inl ⟨hid, rfl⟩
  · rename_i hid
    exact Or.inr ⟨hid, h⟩

/-- Nothing is kept under the next id. -/
theorem Numbered.getJobById_getNextId (h : service.Numbered) :
    service.getJobById service.getNextId = none := by
  rw [Option.eq_none_iff_forall_ne_some]
  intro job hjob
  obtain ⟨-, n, hlt, hn⟩ := h.job hjob
  rw [getNextId, Js.toString16_inj] at hn
  omega

theorem Numbered.addJob (h : service.Numbered) (hid : job.jobId = service.getNextId) :
    (service.addJob job).Numbered where
  job hjob := by
    rcases jobs_addJob hjob with ⟨rfl, rfl⟩ | ⟨-, hjob⟩
    · exact ⟨rfl, service.latestJobId, Nat.lt_succ_self _, hid⟩
    · obtain ⟨hjobId, n, hlt, hn⟩ := h.job hjob
      exact ⟨hjobId, n, Nat.lt_succ_of_lt hlt, hn⟩
  block hblock := h.block hblock

end

end StratumV1JobsService

end PublicPool
