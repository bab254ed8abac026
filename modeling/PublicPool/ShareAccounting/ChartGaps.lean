import PublicPool.Lib.IsoDate
import PublicPool.Lib.WhileLoop
import Mathlib.Data.Rat.Defs

/-!
# `PublicPool.ShareAccounting.ChartGaps`: zero points between the rows of a chart

`fillBucketGaps` of `ORM/client-statistics/client-statistics.service.ts`, on rows of any type with
a label. A time is a number of milliseconds, and `none` where it is `NaN`.

Both loops over missing buckets have a bound on their rounds, and the result is `none` where the
bound does not suffice.
-/

set_option autoImplicit false

namespace PublicPool.ClientStatisticsService

open Lib

/-- `CHART_BUCKET_MS`. -/
def chartBucketMs : ℤ := 600000

/-- `a < b`, where `NaN` is less than nothing and nothing is less than it. -/
def lessThan : Option ℤ → Option ℤ → Bool
  | some a, some b => a < b
  | _, _ => false

section Fill

variable {T : Type} (label : T → String) (makeZeroPoint : String → T) (fuel : ℕ)

/-- `while (expectedMs < untilMs)` push a zero point and go on to the next bucket. -/
def pushZeroPoints (untilMs : Option ℤ) (state : List T × Option ℤ) :
    Option (List T × Option ℤ) :=
  whileLoop (fun state => lessThan state.2 untilMs)
    (fun (filled, expectedMs) =>
      (filled ++ [makeZeroPoint (IsoDate.toISOString (expectedMs.getD 0))],
        expectedMs.map (· + chartBucketMs)))
    fuel state

/-- The zero points in front of a row, and the row. -/
def pushRow (state : List T × Option ℤ) (row : T) : Option (List T × Option ℤ) := do
  let rowMs := IsoDate.getTime (label row)
  let (filled, _) ← pushZeroPoints makeZeroPoint fuel rowMs state
  return (filled ++ [row], rowMs.map (· + chartBucketMs))

def fillBucketGaps (rows : List T) (now : ℤ) : Option (List T) :=
  match rows with
  | [] => some []
  | first :: _ => do
    let fillUntilMs := now / chartBucketMs * chartBucketMs
    let state ← rows.foldlM (pushRow label makeZeroPoint fuel)
      ([], IsoDate.getTime (label first))
    let (filled, _) ← pushZeroPoints makeZeroPoint fuel (some fillUntilMs) state
    return filled

end Fill

/-! ### Points -/

/-- A point of `getAcceptedShareChartData`. -/
structure ChartPoint where
  label : String
  data : String
  shares : ℚ
  acceptedCount : ℕ
  deriving DecidableEq

def ChartPoint.zero (label : String) : ChartPoint where
  label := label
  data := "0"
  shares := 0
  acceptedCount := 0

end PublicPool.ClientStatisticsService
