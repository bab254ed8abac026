import Mathlib
import PublicPool.Lib.BestOf
import PublicPool.ShareAccounting.HighScore

/-!
# `PublicPool.Proofs.HighScore`: the high scores are the best that were offered

The upsert of a high score keeps the better of two records (`upsertHighScore_eq`), so a refresh is a
`Lib.keepBest` over the two rows of each of its records. After any number of refreshes the table is
that of all their records, whatever was there in between.
-/

set_option autoImplicit false

namespace PublicPool.Proofs

open ShareAccounting
open Lib (keepBest foldl_keepBest Machine)

/-- Records replace each other by difficulty, and then by time. -/
def score (record : HighScoreRecord) : ℚ ×ₗ ℤ :=
  toLex (record.submissionDifficulty, record.acceptedAt)

/-- The records that a refresh offers, unless it does not get the lock or fails. -/
def offered (lookbackDays : ℕ) (input : RefreshInput) : List HighScoreRecord :=
  if input.locked && !input.fails then
    [HighScorePayoutMode.all, .only .solo, .only .pplns].flatMap (dailyRecords lookbackDays input)
  else []

/-- The two upserts of a record. -/
def bothRows (record : HighScoreRecord) : List HighScoreRecord := [record, record.forAllTime]

section
variable {lookbackDays : ℕ} {table : HighScoreTable}

/-- The condition of the upsert is the order of the scores. -/
theorem upsertHighScore_eq (table : HighScoreTable) (record : HighScoreRecord) :
    (upsertHighScore table record).1
      = keepBest HighScoreRecord.toHighScoreKey score table record := by
  funext key
  unfold upsertHighScore keepBest
  by_cases hkey : key = record.toHighScoreKey
  · subst hkey
    cases hkept : table record.toHighScoreKey with
    | none => simp
    | some kept =>
      have hlt : score kept < score record ↔
          kept.submissionDifficulty < record.submissionDifficulty ∨
            record.submissionDifficulty = kept.submissionDifficulty ∧
              kept.acceptedAt < record.acceptedAt := by
        rw [score, score, Prod.Lex.toLex_lt_toLex, eq_comm]
      simp only [Option.mem_def, Option.some.injEq, forall_eq', true_and, hlt]
      split
      · exact if_pos rfl
      · exact hkept
  · rw [if_neg fun h => hkey h.1]
    split
    · exact if_neg hkey
    · split
      · exact if_neg hkey
      · rfl

/-- A refresh keeps the best of what it offers. -/
theorem refreshHighScores_eq (table : HighScoreTable) (input : RefreshInput) :
    (refreshHighScores lookbackDays table input).1
      = ((offered lookbackDays input).flatMap bothRows).foldl
          (keepBest HighScoreRecord.toHighScoreKey score) table := by
  have hloop : ∀ (records : List HighScoreRecord) (state : HighScoreTable × ℕ),
      (records.foldl refreshRecord state).1
        = (records.flatMap bothRows).foldl (keepBest HighScoreRecord.toHighScoreKey score)
            state.1 := by
    intro records
    induction records with
    | nil => exact fun _ => rfl
    | cons record records ih =>
      intro state
      rw [List.foldl_cons, ih, List.flatMap_cons, List.foldl_append]
      congr 1
      show (upsertHighScore (upsertHighScore state.1 record).1 record.forAllTime).1 = _
      rw [upsertHighScore_eq, upsertHighScore_eq]
      rfl
  unfold refreshHighScores offered
  cases input.fails with
  | true => simp
  | false =>
    cases input.locked with
    | false => simp
    | true => exact hloop _ (table, 0)

theorem final_highScoreMachine (inputs : List RefreshInput) :
    (highScoreMachine lookbackDays).final table inputs
      = ((inputs.flatMap (offered lookbackDays)).flatMap bothRows).foldl
          (keepBest HighScoreRecord.toHighScoreKey score) table := by
  induction inputs generalizing table with
  | nil => rfl
  | cons input inputs ih =>
    rw [Machine.final_cons, ih, List.flatMap_cons, List.flatMap_append, List.foldl_append]
    congr 1
    exact refreshHighScores_eq table input

theorem scope_offered {input : RefreshInput} :
    ∀ record ∈ offered lookbackDays input, record.scope = .daily := by
  intro record hrecord
  unfold offered at hrecord
  split at hrecord
  · obtain ⟨mode, -, hdaily⟩ := List.mem_flatMap.mp hrecord
    obtain ⟨candidate, -, rfl⟩ := List.mem_map.mp hdaily
    rfl
  · cases hrecord

/-- Of the two rows of a record, the first is for its day and the second for all time. -/
theorem filter_bothRows {records : List HighScoreRecord} (mode : HighScorePayoutMode) (date : ℤ)
    (h : ∀ record ∈ records, record.scope = .daily) :
    (records.flatMap bothRows).filter (fun record => record.toHighScoreKey = ⟨.daily, mode, date⟩)
        = records.filter (fun record => record.payoutMode = mode ∧ record.bucketDate = date) ∧
      (records.flatMap bothRows).filter
          (fun record => record.toHighScoreKey = ⟨.allTime, mode, allTimeBucketDate⟩)
        = (records.filter fun record => record.payoutMode = mode).map (·.forAllTime) := by
  induction records with
  | nil => exact ⟨rfl, rfl⟩
  | cons record records ih =>
    obtain ⟨hscope, hrest⟩ := List.forall_mem_cons.mp h
    obtain ⟨hdaily, hall⟩ := ih hrest
    obtain ⟨⟨scope, payoutMode, bucketDate⟩, _⟩ := record
    obtain rfl : scope = .daily := hscope
    rw [List.flatMap_cons, List.filter_append, List.filter_append, hdaily, hall]
    constructor
    · by_cases hkey : payoutMode = mode ∧ bucketDate = date
      · simp [bothRows, HighScoreRecord.forAllTime, hkey]
      · simp [bothRows, HighScoreRecord.forAllTime, hkey]
    · by_cases hmode : payoutMode = mode
      · simp [bothRows, HighScoreRecord.forAllTime, hmode]
      · simp [bothRows, HighScoreRecord.forAllTime, hmode]

end

/-- In every state that refreshes lead to, whatever their queries see and whether they get the lock
or fail, the row of a day is the best record that was offered for the day, and that of all time the
best of all days. The first to be offered stays among equals. -/
theorem high_scores_are_best (lookbackDays : ℕ) (inputs : List RefreshInput)
    (mode : HighScorePayoutMode) (date : ℤ) :
    let table := (highScoreMachine lookbackDays).final (fun _ => none) inputs
    let records := inputs.flatMap (offered lookbackDays)
    table ⟨.daily, mode, date⟩ = (records.filter fun record =>
        record.payoutMode = mode ∧ record.bucketDate = date).argmax score ∧
      table ⟨.allTime, mode, allTimeBucketDate⟩
        = ((records.filter fun record => record.payoutMode = mode).map
            (·.forAllTime)).argmax score := by
  intro table records
  have hscope : ∀ record ∈ records, record.scope = .daily := by
    intro record hrecord
    obtain ⟨input, -, hmem⟩ := List.mem_flatMap.mp hrecord
    exact scope_offered record hmem
  obtain ⟨hdaily, hall⟩ := filter_bothRows mode date hscope
  have htable : table = _ := final_highScoreMachine inputs
  rw [htable, foldl_keepBest, foldl_keepBest, hdaily, hall]
  exact ⟨rfl, rfl⟩

end PublicPool.Proofs
