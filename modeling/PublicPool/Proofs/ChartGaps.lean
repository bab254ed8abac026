import PublicPool.ShareAccounting.ChartGaps
import Mathlib.Tactic.Ring

/-!
# `PublicPool.Proofs.ChartGaps`: a chart has a point for every bucket

`fillBucketGaps_grid`: rows whose times are buckets of ten minutes, in order, are filled to the
whole grid from the first row to the last one, or to the last bucket that is over if it is later.
Where a row has the time, it is that row, and elsewhere a zero point with the text of the time.

Each of the two loops pushes the zero points of a part of the grid (`pushZeroPoints_eq`). The parts
in front of the rows, the rows and the part behind them are put together by `bucketGrid_add`.
-/

set_option autoImplicit false

namespace PublicPool.ClientStatisticsService

open Lib

/-! ### Grids -/

/-- `n` buckets in a row. -/
def bucketGrid (first : ℤ) (n : ℕ) : List ℤ :=
  (List.range n).map fun i : ℕ => first + i * chartBucketMs

/-- The buckets from the first one to the last one. -/
def bucketsBetween (first last : ℤ) : List ℤ :=
  bucketGrid first ((last - first) / chartBucketMs + 1).toNat

theorem bucketGrid_add (first : ℤ) (m n : ℕ) :
    bucketGrid first (m + n) = bucketGrid first m ++ bucketGrid (first + m * chartBucketMs) n := by
  rw [bucketGrid, List.range_add, List.map_append, List.map_map]
  congr 1
  refine List.map_congr_left fun i _ => ?_
  simp only [Function.comp_apply]
  push_cast
  ring

theorem bucketGrid_one (first : ℤ) : bucketGrid first 1 = [first] := by
  simp [bucketGrid]

theorem mem_bucketGrid {first time : ℤ} {n : ℕ} (h : time ∈ bucketGrid first n) :
    first ≤ time ∧ time < first + n * chartBucketMs := by
  obtain ⟨i, hi, rfl⟩ := List.mem_map.mp h
  have hi := List.mem_range.mp hi
  simp only [chartBucketMs]
  omega

theorem mem_bucketsBetween {first last time : ℤ} (h : time ∈ bucketsBetween first last)
    (_ : first ≤ last) : first ≤ time ∧ time ≤ last := by
  obtain ⟨i, hi, rfl⟩ := List.mem_map.mp h
  have hi := List.mem_range.mp hi
  rw [chartBucketMs] at hi ⊢
  omega

section Fill

variable {T : Type} {label : T → String} {makeZeroPoint : String → T} {fuel : ℕ}

/-- The zero point of a time. -/
def zeroAt (makeZeroPoint : String → T) (time : ℤ) : T := makeZeroPoint (IsoDate.toISOString time)

/-- The row with a time, or the zero point of it. -/
def pointAt (label : T → String) (makeZeroPoint : String → T) (rows : List T) (time : ℤ) : T :=
  (rows.find? fun row => IsoDate.getTime (label row) = some time).getD (zeroAt makeZeroPoint time)

/-- The rows have these times. -/
def HaveTimes (label : T → String) (rows : List T) (times : List ℤ) : Prop :=
  rows.map (fun row => IsoDate.getTime (label row)) = times.map some

/-! ### The loops -/

variable (makeZeroPoint) in
/-- The buckets before the bound are pushed, as many as there are. -/
theorem pushZeroPoints_eq (filled : List T) {expected untilMs : ℤ}
    (haligned : chartBucketMs ∣ untilMs - expected)
    (hfuel : ((untilMs - expected) / chartBucketMs).toNat ≤ fuel) :
    pushZeroPoints makeZeroPoint fuel (some untilMs) (filled, some expected) =
      some (filled ++ (bucketGrid expected ((untilMs - expected) / chartBucketMs).toNat).map
          (zeroAt makeZeroPoint),
        some (expected + ((untilMs - expected) / chartBucketMs).toNat * chartBucketMs)) := by
  obtain ⟨buckets, hbuckets⟩ := haligned
  have hcount : (untilMs - expected) / chartBucketMs = buckets := by
    rw [hbuckets, Int.mul_ediv_cancel_left _ (by decide)]
  rw [hcount] at hfuel ⊢
  -- After `k` rounds the first `k` buckets are pushed.
  let Inv := fun state : List T × Option ℤ => ∃ k ≤ buckets.toNat,
    state = (filled ++ (bucketGrid expected k).map (zeroAt makeZeroPoint),
      some (expected + k * chartBucketMs))
  let left := fun state : List T × Option ℤ => buckets.toNat + filled.length - state.1.length
  have hlength : ∀ k, (filled ++ (bucketGrid expected k).map (zeroAt makeZeroPoint)).length =
      filled.length + k := by
    intro k
    simp [bucketGrid]
  have hround : ∀ state, Inv state → lessThan state.2 (some untilMs) = true →
      Inv (state.1 ++ [makeZeroPoint (IsoDate.toISOString (state.2.getD 0))],
        state.2.map (· + chartBucketMs)) ∧
      left (state.1 ++ [makeZeroPoint (IsoDate.toISOString (state.2.getD 0))],
        state.2.map (· + chartBucketMs)) < left state := by
    rintro state ⟨k, hk, rfl⟩ htest
    have hbefore : expected + k * chartBucketMs < untilMs := of_decide_eq_true htest
    have hless : k < buckets.toNat := by
      rw [chartBucketMs] at hbuckets hbefore
      omega
    have hnext : filled ++ (bucketGrid expected k).map (zeroAt makeZeroPoint) ++
        [zeroAt makeZeroPoint (expected + k * chartBucketMs)] =
          filled ++ (bucketGrid expected (k + 1)).map (zeroAt makeZeroPoint) := by
      rw [bucketGrid_add, bucketGrid_one, List.map_append, List.append_assoc, List.map_singleton]
    refine ⟨⟨k + 1, hless, ?_⟩, ?_⟩
    · refine Prod.ext hnext (congrArg some ?_)
      push_cast
      ring
    · show buckets.toNat + filled.length - (_ ++ [_]).length < _ - (filled ++ _).length
      rw [List.length_append, hlength, List.length_singleton]
      omega
  have hstart : Inv (filled, some expected) := ⟨0, Nat.zero_le _, by simp [bucketGrid]⟩
  have hless : left (filled, some expected) ≤ fuel := by
    show buckets.toNat + filled.length - filled.length ≤ fuel
    omega
  obtain ⟨state, hrun, ⟨k, hk, rfl⟩, htest⟩ := whileLoop_rule Inv left hround fuel _ hless hstart
  have hend : ¬ expected + k * chartBucketMs < untilMs := of_decide_eq_false htest
  have hall : k = buckets.toNat := by
    rw [chartBucketMs] at hbuckets hend
    omega
  rw [← hall]
  exact hrun

/-! ### Points -/

variable {row : T} {rows : List T} {times : List ℤ} {time : ℤ}

theorem haveTimes_cons :
    HaveTimes label (row :: rows) times ↔ ∃ time rest, times = time :: rest ∧
      IsoDate.getTime (label row) = some time ∧ HaveTimes label rows rest := by
  cases times with
  | nil => simp [HaveTimes]
  | cons time rest => simp [HaveTimes, and_assoc]

/-- Where no row has the time, there is a zero point. -/
theorem pointAt_of_notMem (h : HaveTimes label rows times) (hnone : time ∉ times) :
    pointAt label makeZeroPoint rows time = zeroAt makeZeroPoint time := by
  have hfind : rows.find? (fun row => IsoDate.getTime (label row) = some time) = none := by
    refine List.find?_eq_none.mpr fun row hrow hfound => hnone ?_
    have hmem : IsoDate.getTime (label row) ∈ times.map some := by
      rw [← h]
      exact List.mem_map_of_mem hrow
    rw [of_decide_eq_true hfound] at hmem
    obtain ⟨time', hmem, heq⟩ := List.mem_map.mp hmem
    rwa [← Option.some.inj heq]
  rw [pointAt, hfind]
  rfl

theorem pointAt_cons_self (h : IsoDate.getTime (label row) = some time) :
    pointAt label makeZeroPoint (row :: rows) time = row := by
  rw [pointAt, List.find?_cons_of_pos (by simpa using h)]
  rfl

theorem pointAt_cons_of_ne {other : ℤ} (h : IsoDate.getTime (label row) = some time)
    (hne : time ≠ other) :
    pointAt label makeZeroPoint (row :: rows) other = pointAt label makeZeroPoint rows other := by
  rw [pointAt, pointAt, List.find?_cons_of_neg (by simpa [h] using hne)]

variable (makeZeroPoint) in
/-- The points in front of a row, the row, and those behind it. -/
theorem map_pointAt_cons {row : T} {rows : List T} {time : ℤ} {rest : List ℤ}
    (h : HaveTimes label (row :: rows) (time :: rest)) (hsorted : ∀ other ∈ rest, time < other)
    {expected : ℤ} {k : ℕ} (hreach : expected + k * chartBucketMs = time) (n : ℕ) :
    (bucketGrid expected (k + 1 + n)).map (pointAt label makeZeroPoint (row :: rows)) =
      (bucketGrid expected k).map (zeroAt makeZeroPoint) ++
        row :: (bucketGrid (time + chartBucketMs) n).map (pointAt label makeZeroPoint rows) := by
  obtain ⟨time', rest', heq, htime, -⟩ := haveTimes_cons.mp h
  obtain ⟨rfl, rfl⟩ := List.cons.inj heq
  have hnext : expected + (k + 1 : ℕ) * chartBucketMs = time + chartBucketMs := by
    rw [← hreach]
    push_cast
    ring
  have hbefore : (bucketGrid expected k).map (pointAt label makeZeroPoint (row :: rows)) =
      (bucketGrid expected k).map (zeroAt makeZeroPoint) := by
    refine List.map_congr_left fun other hother => pointAt_of_notMem h fun hmem => ?_
    have hless := (mem_bucketGrid hother).2
    rcases List.mem_cons.mp hmem with rfl | hmem
    · omega
    · have hlater := hsorted other hmem
      omega
  have hbehind : (bucketGrid (time + chartBucketMs) n).map
      (pointAt label makeZeroPoint (row :: rows)) =
        (bucketGrid (time + chartBucketMs) n).map (pointAt label makeZeroPoint rows) := by
    refine List.map_congr_left fun other hother => pointAt_cons_of_ne htime ?_
    have hle := (mem_bucketGrid hother).1
    rw [chartBucketMs] at hle
    omega
  rw [bucketGrid_add, bucketGrid_add, hnext, hreach, bucketGrid_one, List.map_append,
    List.map_append, hbefore, hbehind, List.map_singleton, pointAt_cons_self htime,
    List.append_assoc]
  rfl

variable (makeZeroPoint) in
/-- The loop over rows that come in order, from a bucket that is not behind the first one. It
stops at the bucket behind the last row. -/
theorem foldlM_pushRow {rows : List T} {times : List ℤ} (h : HaveTimes label rows times)
    (hsorted : times.Pairwise (· < ·)) {expected : ℤ}
    (haligned : ∀ time ∈ times, chartBucketMs ∣ time - expected ∧ expected ≤ time ∧
      ((time - expected) / chartBucketMs).toNat ≤ fuel) (filled : List T) :
    ∃ n : ℕ, rows.foldlM (pushRow label makeZeroPoint fuel) (filled, some expected) =
        some (filled ++ (bucketGrid expected n).map (pointAt label makeZeroPoint rows),
          some (expected + n * chartBucketMs)) ∧
      expected + n * chartBucketMs = (times.getLast?.map (· + chartBucketMs)).getD expected ∧
      rows.Sublist ((bucketGrid expected n).map (pointAt label makeZeroPoint rows)) := by
  induction rows generalizing times expected filled with
  | nil =>
    have hnil : times = [] := by simpa [HaveTimes] using h.symm
    subst hnil
    exact ⟨0, by simp [bucketGrid], by simp, List.nil_sublist _⟩
  | cons row rows ih =>
    obtain ⟨time, rest, rfl, htime, hrest⟩ := haveTimes_cons.mp h
    obtain ⟨hfirst, hsorted⟩ := List.pairwise_cons.mp hsorted
    obtain ⟨⟨hdvd, hle, hfuel⟩, haligned⟩ := List.forall_mem_cons.mp haligned
    obtain ⟨buckets, hbuckets⟩ := id hdvd
    have hcount : (time - expected) / chartBucketMs = buckets := by
      rw [hbuckets, Int.mul_ediv_cancel_left _ (by decide)]
    -- The zero points in front of the row reach up to it.
    have hreach : expected + (buckets.toNat : ℤ) * chartBucketMs = time := by
      rw [chartBucketMs] at hbuckets ⊢
      omega
    have hrow : pushRow label makeZeroPoint fuel (filled, some expected) row =
        some (filled ++ (bucketGrid expected buckets.toNat).map (zeroAt makeZeroPoint) ++ [row],
          some (time + chartBucketMs)) := by
      have hzeros := pushZeroPoints_eq makeZeroPoint filled hdvd hfuel
      rw [pushRow, htime, hzeros, hcount]
      rfl
    -- The rows that come after it are one bucket later at least.
    have haligned' : ∀ other ∈ rest, chartBucketMs ∣ other - (time + chartBucketMs) ∧
        time + chartBucketMs ≤ other ∧
        ((other - (time + chartBucketMs)) / chartBucketMs).toNat ≤ fuel := by
      intro other hother
      obtain ⟨⟨steps, hsteps⟩, -, hbound⟩ := haligned other hother
      have hlater := hfirst other hother
      rw [chartBucketMs] at hbuckets hsteps hbound ⊢
      refine ⟨⟨steps - buckets - 1, by omega⟩, by omega, by omega⟩
    obtain ⟨n, hrun, hend, hsub⟩ := ih hrest hsorted haligned'
      (filled ++ (bucketGrid expected buckets.toNat).map (zeroAt makeZeroPoint) ++ [row])
    have hpoints := map_pointAt_cons makeZeroPoint h hfirst hreach n
    have hbehind : expected + ((buckets.toNat + 1 + n : ℕ) : ℤ) * chartBucketMs =
        time + chartBucketMs + n * chartBucketMs := by
      rw [← hreach]
      push_cast
      ring
    refine ⟨buckets.toNat + 1 + n, ?_, ?_, ?_⟩
    · rw [List.foldlM_cons, hrow]
      show rows.foldlM (pushRow label makeZeroPoint fuel) _ = _
      rw [hrun, hpoints, hbehind]
      simp only [List.append_assoc, List.singleton_append]
    · rw [hbehind, hend, List.getLast?_cons]
      cases rest.getLast? with
      | none => rfl
      | some last => rfl
    · rw [hpoints]
      exact (hsub.cons_cons row).trans (List.sublist_append_right _ _)

/-! ### The chart -/

/-- The last bucket that is over. -/
def lastCompleted (now : ℤ) : ℤ := now / chartBucketMs * chartBucketMs - chartBucketMs

theorem last_mem (first : ℤ) (rest : List ℤ) : rest.getLast?.getD first ∈ first :: rest := by
  cases hget : rest.getLast? with
  | none => exact List.mem_cons_self
  | some time => exact List.mem_cons_of_mem first (List.mem_of_getLast? hget)

/-- No time is behind the last one. -/
theorem le_last {first : ℤ} {rest : List ℤ} (hsorted : (first :: rest).Pairwise (· < ·)) :
    ∀ time ∈ first :: rest, time ≤ rest.getLast?.getD first := by
  induction rest generalizing first with
  | nil => simp
  | cons second rest ih =>
    obtain ⟨hfirst, hrest⟩ := List.pairwise_cons.mp hsorted
    have hlast := ih hrest
    rw [List.getLast?_cons, Option.getD_some]
    intro time hmem
    rcases List.mem_cons.mp hmem with rfl | hmem
    · exact (hfirst second List.mem_cons_self).le.trans (hlast second List.mem_cons_self)
    · exact hlast time hmem

variable (makeZeroPoint) in
/-- With enough rounds, rows in order are filled to the grid from the first one to the last one or
to the last bucket that is over, if it is later. -/
theorem fillBucketGaps_eq {rows : List T} {first : ℤ} {rest : List ℤ}
    (h : HaveTimes label rows (first :: rest)) (hsorted : (first :: rest).Pairwise (· < ·))
    (haligned : ∀ time ∈ first :: rest, chartBucketMs ∣ time) (now : ℤ) :
    ∃ rounds, ∀ fuel ≥ rounds, ∃ filled,
      fillBucketGaps label makeZeroPoint fuel rows now = some filled ∧ rows.Sublist filled ∧
        filled = (bucketsBetween first (max (rest.getLast?.getD first) (lastCompleted now))).map
          (pointAt label makeZeroPoint rows) := by
  obtain ⟨row, rows, rfl⟩ : ∃ row rest, rows = row :: rest := by
    cases rows with
    | nil => simp [HaveTimes] at h
    | cons row rows => exact ⟨row, rows, rfl⟩
  obtain ⟨first', rest', heq, hfirst, -⟩ := haveTimes_cons.mp h
  obtain ⟨rfl, rfl⟩ := List.cons.inj heq
  have hlast := le_last hsorted
  have hlastMem := last_mem first rest
  generalize hlastEq : rest.getLast?.getD first = last at hlast hlastMem
  obtain ⟨lastIndex, hlastIndex⟩ := haligned last hlastMem
  obtain ⟨firstIndex, hfirstIndex⟩ := haligned first List.mem_cons_self
  let fillUntilMs := now / chartBucketMs * chartBucketMs
  refine ⟨((last - first) / chartBucketMs).toNat +
    ((fillUntilMs - (last + chartBucketMs)) / chartBucketMs).toNat, fun fuel hfuel => ?_⟩
  have hsteps : ∀ time ∈ first :: rest, chartBucketMs ∣ time - first ∧ first ≤ time ∧
      ((time - first) / chartBucketMs).toNat ≤ fuel := by
    intro time hmem
    have hle := hlast time hmem
    have hge : first ≤ time := by
      rcases List.mem_cons.mp hmem with rfl | hmem
      · exact le_rfl
      · exact ((List.pairwise_cons.mp hsorted).1 time hmem).le
    refine ⟨Int.dvd_sub (haligned time hmem) (haligned first List.mem_cons_self), hge, ?_⟩
    rw [chartBucketMs] at hfuel ⊢
    omega
  obtain ⟨n, hrun, hend, hsub⟩ := foldlM_pushRow (T := T) makeZeroPoint h hsorted hsteps []
  have hreach : first + n * chartBucketMs = last + chartBucketMs := by
    rw [hend, List.getLast?_cons, hlastEq]
    rfl
  rw [hreach, List.nil_append] at hrun
  -- Behind the last row there are zero points only.
  have hdvd : chartBucketMs ∣ fillUntilMs - (last + chartBucketMs) :=
    ⟨now / chartBucketMs - lastIndex - 1, by
      rw [hlastIndex]
      ring⟩
  have hrounds : ((fillUntilMs - (last + chartBucketMs)) / chartBucketMs).toNat ≤ fuel := by omega
  have htrail := pushZeroPoints_eq makeZeroPoint
    ((bucketGrid first n).map (pointAt label makeZeroPoint (row :: rows))) hdvd hrounds
  generalize hm : ((fillUntilMs - (last + chartBucketMs)) / chartBucketMs).toNat = m at htrail
  have hbehind : (bucketGrid (last + chartBucketMs) m).map (zeroAt makeZeroPoint) =
      (bucketGrid (last + chartBucketMs) m).map (pointAt label makeZeroPoint (row :: rows)) := by
    refine List.map_congr_left fun time htime => (pointAt_of_notMem h fun hmem => ?_).symm
    have hle := hlast time hmem
    have hge := (mem_bucketGrid htime).1
    rw [chartBucketMs] at hge
    omega
  have hgrid : bucketsBetween first (max last (lastCompleted now)) = bucketGrid first (n + m) := by
    have hcount : ((max last (lastCompleted now) - first) / chartBucketMs + 1).toNat = n + m := by
      simp only [lastCompleted, fillUntilMs, chartBucketMs] at *
      omega
    rw [bucketsBetween, hcount]
  refine ⟨(bucketGrid first (n + m)).map (pointAt label makeZeroPoint (row :: rows)), ?_, ?_, ?_⟩
  · rw [bucketGrid_add, List.map_append, hreach, ← hbehind, fillBucketGaps, hfirst]
    show (List.foldlM _ _ _ >>= _) = _
    rw [hrun]
    show (pushZeroPoints makeZeroPoint fuel (some fillUntilMs) _ >>= _) = _
    rw [htrail]
    rfl
  · rw [bucketGrid_add, List.map_append]
    exact hsub.trans (List.sublist_append_left _ _)
  · rw [hgrid]

theorem HaveTimes.isTime {rows : List T} {times : List ℤ} (h : HaveTimes label rows times)
    {time : ℤ} (hmem : time ∈ times) : IsoDate.IsTime time := by
  have hsome : some time ∈ rows.map fun row => IsoDate.getTime (label row) := by
    rw [h]
    exact List.mem_map_of_mem hmem
  obtain ⟨row, -, htime⟩ := List.mem_map.mp hsome
  exact IsoDate.isTime_of_getTime htime

/-- The points of a part of the grid have its times, if a zero point has the label that it was
made with. -/
theorem haveTimes_map_pointAt (rows : List T) (hlabel : ∀ text, label (makeZeroPoint text) = text)
    {grid : List ℤ} (hgrid : ∀ time ∈ grid, IsoDate.IsTime time) :
    HaveTimes label (grid.map (pointAt label makeZeroPoint rows)) grid := by
  rw [HaveTimes, List.map_map]
  refine List.map_congr_left fun time hmem => ?_
  rw [Function.comp_apply, pointAt]
  cases hfind : rows.find? fun row => IsoDate.getTime (label row) = some time with
  | none =>
    rw [Option.getD_none, zeroAt, hlabel]
    exact IsoDate.getTime_toISOString (hgrid time hmem)
  | some row =>
    have hfound := List.find?_some hfind
    exact of_decide_eq_true hfound

/-- Rows whose times are buckets, in order: with enough rounds the loops end, no row is lost or
changes its place, and there is a point for every bucket from the first row to the last one or to
the last bucket that is over. -/
theorem fillBucketGaps_grid (label : T → String) (makeZeroPoint : String → T) {rows : List T}
    {times : List ℤ} (h : HaveTimes label rows times) (hsorted : times.Pairwise (· < ·))
    (haligned : ∀ time ∈ times, chartBucketMs ∣ time) (now : ℤ) :
    ∃ rounds, ∀ fuel ≥ rounds, ∃ filled,
      fillBucketGaps label makeZeroPoint fuel rows now = some filled ∧
        (rows = [] → filled = []) ∧ rows.Sublist filled ∧
          ∀ first rest, times = first :: rest → ∀ grid,
            grid = bucketsBetween first (max (rest.getLast?.getD first) (lastCompleted now)) →
              filled = grid.map (pointAt label makeZeroPoint rows) ∧
                (IsoDate.IsTime now → (∀ text, label (makeZeroPoint text) = text) →
                  HaveTimes label filled grid) := by
  cases times with
  | nil =>
    have hnil : rows = [] := by simpa [HaveTimes] using h
    subst hnil
    exact ⟨0, fun fuel _ => ⟨[], rfl, fun _ => rfl, List.nil_sublist _,
      fun first rest heq => by cases heq⟩⟩
  | cons first rest =>
    obtain ⟨rounds, hrounds⟩ := fillBucketGaps_eq makeZeroPoint h hsorted haligned now
    refine ⟨rounds, fun fuel hfuel => ?_⟩
    obtain ⟨filled, hrun, hsub, hfilled⟩ := hrounds fuel hfuel
    refine ⟨filled, hrun, ?_, hsub, ?_⟩
    · rintro rfl
      simp [HaveTimes] at h
    · rintro first' rest' heq grid rfl
      obtain ⟨rfl, rfl⟩ := List.cons.inj heq
      refine ⟨hfilled, fun hnow hlabel => ?_⟩
      rw [hfilled]
      refine haveTimes_map_pointAt rows hlabel fun time hmem => ?_
      obtain ⟨hlow, -⟩ := h.isTime List.mem_cons_self
      obtain ⟨-, hhigh⟩ := h.isTime (last_mem first rest)
      have hfirst := le_last hsorted first List.mem_cons_self
      obtain ⟨hge, hle⟩ := mem_bucketsBetween hmem (by omega)
      obtain ⟨-, hnow⟩ := hnow
      rw [lastCompleted, chartBucketMs] at hle
      exact ⟨by omega, by omega⟩

end Fill

/-- Two rows with two buckets between them, and one behind them that is over: at five minutes past
nine the points are those of 8:20, 8:30, 8:40 and 8:50. -/
theorem fillBucketGaps_grid_sample :
    ∃ rounds, ∀ fuel ≥ rounds, ∃ filled,
      fillBucketGaps ChartPoint.label ChartPoint.zero fuel
          [⟨IsoDate.toISOString 1784017200000, "35791394133", 5000, 1⟩,
            ⟨IsoDate.toISOString 1784019000000, "50107951787", 7000, 1⟩] 1784019900000 =
        some filled ∧
      HaveTimes ChartPoint.label filled
        [1784017200000, 1784017800000, 1784018400000, 1784019000000] := by
  have hfirst := IsoDate.getTime_toISOString
    (show IsoDate.IsTime 1784017200000 by decide)
  have hsecond := IsoDate.getTime_toISOString
    (show IsoDate.IsTime 1784019000000 by decide)
  have htimes : HaveTimes ChartPoint.label
      [⟨IsoDate.toISOString 1784017200000, "35791394133", 5000, 1⟩,
        ⟨IsoDate.toISOString 1784019000000, "50107951787", 7000, 1⟩]
      [1784017200000, 1784019000000] := by
    simp [HaveTimes, hfirst, hsecond]
  obtain ⟨rounds, hrounds⟩ := fillBucketGaps_grid ChartPoint.label ChartPoint.zero htimes
    (by decide) (by decide) 1784019900000
  refine ⟨rounds, fun fuel hfuel => ?_⟩
  obtain ⟨filled, hrun, -, -, hgrid⟩ := hrounds fuel hfuel
  exact ⟨filled, hrun, (hgrid _ _ rfl _ (by decide)).2 (by decide) fun _ => rfl⟩

example : fillBucketGaps ChartPoint.label ChartPoint.zero 5
    [⟨"2026-07-14T08:50:00.000Z", "50107951787", 7000, 1⟩] 1784021100000 =
    some [⟨"2026-07-14T08:50:00.000Z", "50107951787", 7000, 1⟩,
      .zero "2026-07-14T09:00:00.000Z", .zero "2026-07-14T09:10:00.000Z"] := by
  decide +kernel

end PublicPool.ClientStatisticsService
