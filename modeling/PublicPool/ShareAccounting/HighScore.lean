import PublicPool.ShareAccounting.Rollup

/-!
# `PublicPool.ShareAccounting.HighScore`: the best shares of each day and of all time

The model of `ORM/share-accounting/share-high-score.service.ts`. A refresh finds the best bucket of
each recent day in `accepted_share_block_10m`, looks up the best share of the bucket, and offers it
to two rows of `accepted_share_high_score`: that of its day and that of all time. It does so for all
payout modes together and for each of them.

A refresh is one transaction under READ COMMITTED: each query sees what is committed when it starts.
Only the table of the scores is the transaction's own, for the advisory lock keeps other refreshes
out. Times are in microseconds, dates are days since 1970, and the session runs in UTC.
-/

set_option autoImplicit false

namespace PublicPool.ShareAccounting

open Lib (Machine)

/-- `HighScorePayoutMode`. -/
inductive HighScorePayoutMode
  | all
  | only (payoutMode : PayoutMode)
  deriving DecidableEq

/-- `modeFilter`. -/
def HighScorePayoutMode.admits (mode : HighScorePayoutMode) (payoutMode : PayoutMode) : Bool :=
  match mode with
  | .all => true
  | .only wanted => payoutMode = wanted

/-- A row of `accepted_share_block_10m`, with the columns that are read. -/
structure ShareBlockBucket where
  bucket : ℤ
  payoutMode : PayoutMode
  blockHeight : ℤ
  bestSubmissionDifficulty : Option ℚ

def dayMicros : ℤ := 86400000000

def bucketMicros : ℤ := 600000000

structure HighScoreCandidate where
  bucketDate : ℤ
  bucket : ℤ
  blockHeight : ℤ
  bestSubmissionDifficulty : ℚ

inductive HighScoreScope
  | allTime
  | daily
  deriving DecidableEq

/-- The columns of the unique index of `accepted_share_high_score`. -/
structure HighScoreKey where
  scope : HighScoreScope
  payoutMode : HighScorePayoutMode
  bucketDate : ℤ
  deriving DecidableEq

/-- `HighScoreRecord`. It has always a time: that of its share or that of its bucket. -/
structure HighScoreRecord extends HighScoreKey where
  submissionDifficulty : ℚ
  acceptedAt : ℤ
  bucket : ℤ
  blockHeight : ℤ
  address : Option String
  clientName : Option String
  protocol : Option ShareProtocol

/-- `ALL_TIME_BUCKET_DATE`. -/
def allTimeBucketDate : ℤ := 0

abbrev HighScoreTable := HighScoreKey → Option HighScoreRecord

/-- What a refresh finds: whether it gets the lock, whether one of its queries fails, and what each
of them sees. -/
structure RefreshInput where
  locked : Bool
  fails : Bool
  now : ℤ
  buckets : HighScorePayoutMode → List ShareBlockBucket
  shares : HighScorePayoutMode → HighScoreCandidate → List AcceptedShare

/-- `HighScoreRefreshResult`. -/
structure HighScoreRefreshResult where
  processed : Bool
  updatedRows : ℕ

/-- A row of `candidate_rows`. -/
def candidateRow (lookbackDays : ℕ) (now : ℤ) (mode : HighScorePayoutMode)
    (row : ShareBlockBucket) : Option HighScoreCandidate :=
  match row.bestSubmissionDifficulty with
  | none => none
  | some best =>
    if now - lookbackDays * dayMicros ≤ row.bucket ∧ 0 < best ∧ mode.admits row.payoutMode then
      some ⟨row.bucket / dayMicros, row.bucket, row.blockHeight, best⟩
    else none

/-- `loadDailyCandidates`: of each date the row that is first by difficulty and then by time. -/
def loadDailyCandidates (lookbackDays : ℕ) (now : ℤ) (mode : HighScorePayoutMode)
    (buckets : List ShareBlockBucket) : List HighScoreCandidate :=
  let rows := buckets.filterMap (candidateRow lookbackDays now mode)
  ((rows.map (·.bucketDate)).dedup.mergeSort).filterMap fun date =>
    ((rows.filter fun row => row.bucketDate = date).mergeSort fun a b =>
      b.bestSubmissionDifficulty < a.bestSubmissionDifficulty ∨
        b.bestSubmissionDifficulty = a.bestSubmissionDifficulty ∧ b.bucket ≤ a.bucket).head?

/-- `loadExactHighScore`. -/
def loadExactHighScore (candidate : HighScoreCandidate) (mode : HighScorePayoutMode)
    (shares : List AcceptedShare) : Option AcceptedShare :=
  ((shares.filter fun share =>
    candidate.bucket ≤ share.acceptedAt ∧ share.acceptedAt < candidate.bucket + bucketMicros ∧
      share.blockHeight = candidate.blockHeight ∧ mode.admits share.payoutMode).mergeSort fun a b =>
    b.submissionDifficulty < a.submissionDifficulty ∨
      b.submissionDifficulty = a.submissionDifficulty ∧ b.acceptedAt ≤ a.acceptedAt).head?

/-- `toRecord`. -/
def toRecord (scope : HighScoreScope) (mode : HighScorePayoutMode) (bucketDate : ℤ)
    (candidate : HighScoreCandidate) (exact : Option AcceptedShare) : HighScoreRecord where
  scope := scope
  payoutMode := mode
  bucketDate := bucketDate
  submissionDifficulty := (exact.map (·.submissionDifficulty)).getD
    candidate.bestSubmissionDifficulty
  acceptedAt := (exact.map (·.acceptedAt)).getD candidate.bucket
  bucket := candidate.bucket
  blockHeight := (exact.map (·.blockHeight)).getD candidate.blockHeight
  address := exact.map (·.address)
  clientName := exact.map (·.clientName)
  protocol := exact.map (·.protocol)

/-- `upsertHighScore`, with the number of rows it returns. -/
def upsertHighScore (table : HighScoreTable) (record : HighScoreRecord) : HighScoreTable × ℕ :=
  let replaced : HighScoreTable := fun key =>
    if key = record.toHighScoreKey then some record else table key
  match table record.toHighScoreKey with
  | none => (replaced, 1)
  | some kept =>
    if kept.submissionDifficulty < record.submissionDifficulty ∨
        record.submissionDifficulty = kept.submissionDifficulty ∧
          kept.acceptedAt < record.acceptedAt then (replaced, 1)
    else (table, 0)

/-- The record again, for the row of all time. -/
def HighScoreRecord.forAllTime (record : HighScoreRecord) : HighScoreRecord :=
  { record with scope := .allTime, bucketDate := allTimeBucketDate }

/-- The records that a refresh comes to for a mode, in their order. -/
def dailyRecords (lookbackDays : ℕ) (input : RefreshInput) (mode : HighScorePayoutMode) :
    List HighScoreRecord :=
  (loadDailyCandidates lookbackDays input.now mode (input.buckets mode)).map fun candidate =>
    toRecord .daily mode candidate.bucketDate candidate
      (loadExactHighScore candidate mode (input.shares mode candidate))

/-- The body of the loop of `refreshForPayoutMode`. -/
def refreshRecord (state : HighScoreTable × ℕ) (record : HighScoreRecord) : HighScoreTable × ℕ :=
  let (table, daily) := upsertHighScore state.1 record
  let (table, allTime) := upsertHighScore table record.forAllTime
  (table, state.2 + daily + allTime)

/-- `refreshHighScores`. An error rolls the transaction back. -/
def refreshHighScores (lookbackDays : ℕ) (table : HighScoreTable) (input : RefreshInput) :
    HighScoreTable × List HighScoreRefreshResult :=
  if input.fails then (table, [])
  else if !input.locked then (table, [⟨false, 0⟩])
  else
    let (table, updatedRows) := ([.all, .only .solo, .only .pplns].flatMap
      (dailyRecords lookbackDays input)).foldl refreshRecord (table, 0)
    (table, [⟨true, updatedRows⟩])

/-- The refreshes, one after the other. -/
def highScoreMachine (lookbackDays : ℕ) :
    Machine HighScoreTable RefreshInput HighScoreRefreshResult :=
  ⟨refreshHighScores lookbackDays⟩

end PublicPool.ShareAccounting
