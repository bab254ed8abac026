import PublicPool.Lib.Runs

/-!
# `PublicPool.Lib.ExpiringMap`: maps whose entries run out

Every entry of a map has the time at which it was made and is good for a while. `live` is what the
map has at a time. A store drops the entries that have run out whenever it happens to be used, so
what it holds depends on who has used it and when; but two maps that `AgreeFrom` a time on can not
be told apart by looking at live entries, and dropping what has run out keeps a map in agreement
with one from which nothing is ever dropped (`AgreeFrom.live`).

`history_eq_of_timed` turns this into a fact about runs, for inputs whose times do not go back.
-/

set_option autoImplicit false

namespace PublicPool.Lib

section
variable {κ α : Type*} (createdAt : α → ℕ) (ttl : ℕ)

/-- What a map has at a time. -/
def live (now : ℕ) (entries : κ → Option α) (key : κ) : Option α :=
  (entries key).filter fun entry => decide (now ≤ createdAt entry + ttl)

/-- Whoever looks from a time on finds the same in both maps. -/
def AgreeFrom (since : ℕ) (entries entries' : κ → Option α) : Prop :=
  ∀ now, since ≤ now → live createdAt ttl now entries = live createdAt ttl now entries'

variable {createdAt ttl} {since now : ℕ} {entries entries' : κ → Option α}

/-- What has run out at a time has run out later. -/
theorem live_live (h : since ≤ now) :
    live createdAt ttl now (live createdAt ttl since entries) = live createdAt ttl now entries := by
  funext key
  rw [live, live, live, Option.filter_filter]
  congr 1
  funext entry
  rw [← Bool.decide_and]
  exact decide_eq_decide.mpr ⟨And.right, fun hnow => ⟨Nat.le_trans h hnow, hnow⟩⟩

/-- Dropping what has run out can not be seen later. -/
theorem AgreeFrom.live (h : AgreeFrom createdAt ttl since entries entries') (hle : since ≤ now) :
    AgreeFrom createdAt ttl now (live createdAt ttl now entries) entries' :=
  fun later hlater => (live_live hlater).trans (h later (Nat.le_trans hle hlater))

/-- The same entry may be put into both maps. -/
theorem AgreeFrom.put [DecidableEq κ] (h : AgreeFrom createdAt ttl since entries entries')
    (key : κ) (entry : α) :
    AgreeFrom createdAt ttl since (fun other => if other = key then some entry else entries other)
      (fun other => if other = key then some entry else entries' other) := by
  intro later hlater
  funext other
  unfold Lib.live
  by_cases hkey : other = key
  · simp only [if_pos hkey]
  · simp only [if_neg hkey]
    exact congrFun (h later hlater) other

end

/-- Two machines whose states stay related, from the time of one input to that of the next, emit
the same events. -/
theorem history_eq_of_timed {σ σ' ι ε : Type*} {m : Machine σ ι ε} {m' : Machine σ' ι ε}
    {time : ι → ℕ} {R : ℕ → σ → σ' → Prop}
    (hstep : ∀ since s s' i, R since s s' → since ≤ time i →
      (m.step s i).2 = (m'.step s' i).2 ∧ R (time i) (m.step s i).1 (m'.step s' i).1)
    {since : ℕ} {s : σ} {s' : σ'} {inputs : List ι} (h : R since s s')
    (htimes : (since :: inputs.map time).Pairwise (· ≤ ·)) :
    m.history s inputs = m'.history s' inputs := by
  induction inputs generalizing since s s' with
  | nil => rfl
  | cons i inputs ih =>
    obtain ⟨hfirst, hrest⟩ := List.pairwise_cons.mp htimes
    obtain ⟨hevents, hnext⟩ := hstep since s s' i h (hfirst _ List.mem_cons_self)
    rw [Machine.history_cons, Machine.history_cons, hevents, ih hnext hrest]

end PublicPool.Lib
