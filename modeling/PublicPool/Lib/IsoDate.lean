import Mathlib

/-!
# `PublicPool.Lib.IsoDate`: times and their ISO texts

A time is a number of milliseconds since the start of 1970, in UTC and without leap seconds. Its
text has the year with four digits, or a sign and six digits, and ends in milliseconds and a `Z`.

Days are counted in years that begin in March, so that the day a leap year adds is the last one.
`daysOfCivil_civilOfDays` and `getTime_toISOString` say that a date and a text determine the day
and the time.
-/

set_option autoImplicit false

namespace PublicPool.Lib.IsoDate

/-! ### Days -/

/-- A date, with January as month one. -/
structure Civil where
  year : ℤ
  month : ℤ
  day : ℤ
  deriving DecidableEq

/-- The days from the first of March of the year zero to the start of 1970. -/
def epochDays : ℤ := 719468

/-- The year that begins in March, and the day in it, of a day since the start of 1970. -/
def marchYearOfDays (days : ℤ) : ℤ × ℤ :=
  let shifted := days + epochDays
  let era := shifted / 146097
  let dayOfEra := shifted % 146097
  -- The last century of an era, and the last year of four, have one day more.
  let century := min (dayOfEra / 36524) 3
  let dayOfCentury := dayOfEra - 36524 * century
  let fourYears := dayOfCentury / 1461
  let dayOfFour := dayOfCentury % 1461
  let yearOfFour := min (dayOfFour / 365) 3
  (400 * era + 100 * century + 4 * fourYears + yearOfFour, dayOfFour - 365 * yearOfFour)

/-- The date of a day since the start of 1970. -/
def civilOfDays (days : ℤ) : Civil :=
  let (year, dayOfYear) := marchYearOfDays days
  let monthFromMarch := (5 * dayOfYear + 2) / 153
  let day := dayOfYear - (153 * monthFromMarch + 2) / 5 + 1
  if monthFromMarch < 10 then { year, month := monthFromMarch + 3, day }
  else { year := year + 1, month := monthFromMarch - 9, day }

/-- The day of a date. -/
def daysOfCivil (date : Civil) : ℤ :=
  let year := if date.month ≤ 2 then date.year - 1 else date.year
  let monthFromMarch := if date.month ≤ 2 then date.month + 9 else date.month - 3
  let dayOfYear := (153 * monthFromMarch + 2) / 5 + date.day - 1
  365 * year + year / 4 - year / 100 + year / 400 + dayOfYear - epochDays

/-- The days before a year are those of its years and of the leap days among them. -/
theorem marchYearOfDays_spec (days : ℤ) :
    0 ≤ (marchYearOfDays days).2 ∧ (marchYearOfDays days).2 ≤ 365 ∧
      365 * (marchYearOfDays days).1 + (marchYearOfDays days).1 / 4 -
        (marchYearOfDays days).1 / 100 + (marchYearOfDays days).1 / 400 +
          (marchYearOfDays days).2 = days + epochDays := by
  simp only [marchYearOfDays]
  generalize days + epochDays = shifted
  have hera := Int.mul_ediv_add_emod shifted 146097
  have hnonneg := Int.emod_nonneg shifted (show (146097 : ℤ) ≠ 0 by decide)
  have hlt := Int.emod_lt_of_pos shifted (show (0 : ℤ) < 146097 by decide)
  generalize shifted / 146097 = era at *
  generalize shifted % 146097 = dayOfEra at *
  generalize hcentury : min (dayOfEra / 36524) 3 = century
  generalize hdayOfCentury : dayOfEra - 36524 * century = dayOfCentury
  have hfour := Int.mul_ediv_add_emod dayOfCentury 1461
  generalize hfourYears : dayOfCentury / 1461 = fourYears at *
  generalize hdayOfFour : dayOfCentury % 1461 = dayOfFour at *
  generalize hyearOfFour : min (dayOfFour / 365) 3 = yearOfFour
  have hcenturyBounds : 0 ≤ century ∧ century ≤ 3 := by omega
  have hcenturyDays : 0 ≤ dayOfCentury ∧ dayOfCentury ≤ 36524 := by omega
  have hfourBounds : 0 ≤ fourYears ∧ fourYears ≤ 24 ∧ 0 ≤ dayOfFour ∧ dayOfFour ≤ 1460 := by omega
  generalize hyear : 400 * era + 100 * century + 4 * fourYears + yearOfFour = year
  have hleap : year / 4 = 100 * era + 25 * century + fourYears ∧
      year / 100 = 4 * era + century ∧ year / 400 = era := by omega
  exact ⟨by omega, by omega, by omega⟩

theorem daysOfCivil_civilOfDays (days : ℤ) : daysOfCivil (civilOfDays days) = days := by
  obtain ⟨hfirst, hlast, hdays⟩ := marchYearOfDays_spec days
  simp only [civilOfDays]
  generalize (marchYearOfDays days).1 = year at *
  generalize (marchYearOfDays days).2 = dayOfYear at *
  have hmonth : 0 ≤ (5 * dayOfYear + 2) / 153 ∧ (5 * dayOfYear + 2) / 153 ≤ 11 := by omega
  generalize (5 * dayOfYear + 2) / 153 = monthFromMarch at *
  split
  · have hlate : ¬ monthFromMarch + 3 ≤ 2 := by omega
    simp only [daysOfCivil, if_neg hlate]
    omega
  · have hearly : monthFromMarch - 9 ≤ 2 := by omega
    have hback : year + 1 - 1 = year := by omega
    simp only [daysOfCivil, if_pos hearly, hback]
    omega

/-- The month and the day of a date are numbers of two digits. -/
structure Civil.TwoDigits (date : Civil) : Prop where
  month_nonneg : 0 ≤ date.month
  month_lt : date.month < 100
  day_nonneg : 0 ≤ date.day
  day_lt : date.day < 100

theorem twoDigits_civilOfDays (days : ℤ) : (civilOfDays days).TwoDigits := by
  obtain ⟨hfirst, hlast, -⟩ := marchYearOfDays_spec days
  simp only [civilOfDays]
  split
  · refine ⟨?_, ?_, ?_, ?_⟩ <;> dsimp only <;> omega
  · refine ⟨?_, ?_, ?_, ?_⟩ <;> dsimp only <;> omega

/-- The year of a day that is not too far has six digits at most. -/
theorem year_civilOfDays {days : ℤ} (hlow : -10 ^ 8 ≤ days) (hhigh : days ≤ 10 ^ 8) :
    -10 ^ 6 < (civilOfDays days).year ∧ (civilOfDays days).year < 10 ^ 6 := by
  obtain ⟨hfirst, hlast, hdays⟩ := marchYearOfDays_spec days
  rw [epochDays] at hdays
  simp only [civilOfDays]
  split
  · dsimp only
    omega
  · dsimp only
    omega

/-! ### Texts -/

def digit (n : ℕ) : Char := Char.ofNat (48 + n % 10)

/-- The last decimal digits of a number. -/
def digits : ℕ → ℕ → List Char
  | 0, _ => []
  | width + 1, n => digits width (n / 10) ++ [digit n]

/-- The number of a text of digits. -/
def number (text : List Char) : ℕ := text.foldl (fun n c => 10 * n + (c.toNat - 48)) 0

theorem toNat_digit (n : ℕ) : (digit n).toNat = 48 + n % 10 := by
  have hall : ∀ d < 10, (Char.ofNat (48 + d)).toNat = 48 + d := by decide
  exact hall (n % 10) (Nat.mod_lt n (by decide))

theorem number_digits (width n : ℕ) : number (digits width n) = n % 10 ^ width := by
  induction width generalizing n with
  | zero => exact (Nat.mod_one n).symm
  | succ width ih =>
    have hlast : number (digits (width + 1) n) = 10 * number (digits width (n / 10)) + n % 10 := by
      show (digits width (n / 10) ++ [digit n]).foldl _ 0 = _
      rw [List.foldl_append, List.foldl_cons, List.foldl_nil, toNat_digit]
      show 10 * number (digits width (n / 10)) + _ = _
      omega
    rw [hlast, ih, Nat.pow_succ', Nat.mod_mul]
    omega

def isoYear (year : ℤ) : List Char :=
  if 0 ≤ year ∧ year ≤ 9999 then digits 4 year.toNat
  else (if year < 0 then '-' else '+') :: digits 6 year.natAbs

/-- The milliseconds of a day. -/
def dayMs : ℤ := 86400000

/-- The text behind the year: the month, the day and the time of the day. -/
def isoRest (month day ms : ℕ) : List Char :=
  '-' :: (digits 2 month ++ '-' :: (digits 2 day ++ 'T' :: (digits 2 (ms / 3600000) ++
    ':' :: (digits 2 (ms / 60000 % 60) ++ ':' :: (digits 2 (ms / 1000 % 60) ++
      '.' :: (digits 3 (ms % 1000) ++ ['Z']))))))

/-- The text of a time. -/
def toISOString (time : ℤ) : String :=
  let date := civilOfDays (time / dayMs)
  String.ofList
    (isoYear date.year ++ isoRest date.month.toNat date.day.toNat (time % dayMs).toNat)

/-- The year that a text starts with, and what comes behind it. -/
def splitYear (text : List Char) : ℤ × List Char :=
  if text.head? = some '-' then (-number ((text.drop 1).take 6), text.drop 7)
  else if text.head? = some '+' then (number ((text.drop 1).take 6), text.drop 7)
  else (number (text.take 4), text.drop 4)

/-- The time that the digits of a text say, wherever they stand. -/
def timeOfDigits (text : List Char) : ℤ :=
  let (year, rest) := splitYear text
  let part := fun start length => number ((rest.drop start).take length)
  daysOfCivil { year, month := part 1 2, day := part 4 2 } * dayMs +
    (part 7 2 * 3600000 + part 10 2 * 60000 + part 13 2 * 1000 + part 16 3 : ℕ)

/-- The times there are: a hundred million days before and after the start of 1970. -/
def IsTime (time : ℤ) : Prop := -8640000000000000 ≤ time ∧ time ≤ 8640000000000000

instance (time : ℤ) : Decidable (IsTime time) := inferInstanceAs (Decidable (_ ∧ _))

/-- The time whose text it is, or none. -/
def getTime (text : String) : Option ℤ :=
  let time := timeOfDigits text.toList
  if IsTime time ∧ toISOString time = text then some time else none

theorem length_digits (width n : ℕ) : (digits width n).length = width := by
  induction width generalizing n with
  | zero => rfl
  | succ width ih =>
    show (digits width (n / 10) ++ [digit n]).length = width + 1
    rw [List.length_append, ih, List.length_singleton]

/-- The sign tells a year of six digits from one of four. -/
theorem splitYear_isoYear {year : ℤ} (hlow : -10 ^ 6 < year) (hhigh : year < 10 ^ 6)
    (rest : List Char) : splitYear (isoYear year ++ rest) = (year, rest) := by
  have hsix : ∀ sign : Char,
      ((sign :: digits 6 year.natAbs ++ rest).drop 1).take 6 = digits 6 year.natAbs ∧
        (sign :: digits 6 year.natAbs ++ rest).drop 7 = rest := fun sign =>
    ⟨List.take_left' (length_digits 6 _), List.drop_left' (by
      rw [List.length_cons, length_digits])⟩
  have hnumber : (number (digits 6 year.natAbs) : ℤ) = year.natAbs := by
    rw [number_digits, Nat.mod_eq_of_lt (by omega)]
  rw [isoYear]
  split
  · rename_i hfour
    -- A digit is no sign.
    have hdigit : ∀ d < 10, ¬ some (Char.ofNat (48 + d)) = some '-' ∧
        ¬ some (Char.ofNat (48 + d)) = some '+' := by decide
    have hhead : (digits 4 year.toNat ++ rest).head? =
        some (Char.ofNat (48 + year.toNat / 10 / 10 / 10 % 10)) := rfl
    obtain ⟨hminus, hplus⟩ := hdigit (year.toNat / 10 / 10 / 10 % 10) (Nat.mod_lt _ (by decide))
    have hyear : (number (digits 4 year.toNat) : ℤ) = year := by
      rw [number_digits, Nat.mod_eq_of_lt (by omega)]
      omega
    rw [splitYear, hhead, if_neg hminus, if_neg hplus, List.take_left' (length_digits 4 _),
      List.drop_left' (length_digits 4 _), hyear]
  · rename_i hlong
    split
    · rename_i hneg
      have hminus : ('-' :: digits 6 year.natAbs ++ rest).head? = some '-' := rfl
      rw [splitYear, if_pos hminus, (hsix '-').1, (hsix '-').2, hnumber]
      congr 1
      omega
    · rename_i hpos
      have hplus : ('+' :: digits 6 year.natAbs ++ rest).head? = some '+' := rfl
      have hminus : ¬ some '+' = some '-' := by decide
      rw [splitYear, hplus, if_neg hminus, if_pos rfl, (hsix '+').1, (hsix '+').2, hnumber]
      congr 1
      omega

/-- The parts stand where they are read. -/
theorem parts_isoRest (month day ms : ℕ) :
    ((isoRest month day ms).drop 1).take 2 = digits 2 month ∧
      ((isoRest month day ms).drop 4).take 2 = digits 2 day ∧
      ((isoRest month day ms).drop 7).take 2 = digits 2 (ms / 3600000) ∧
      ((isoRest month day ms).drop 10).take 2 = digits 2 (ms / 60000 % 60) ∧
      ((isoRest month day ms).drop 13).take 2 = digits 2 (ms / 1000 % 60) ∧
      ((isoRest month day ms).drop 16).take 3 = digits 3 (ms % 1000) :=
  ⟨rfl, rfl, rfl, rfl, rfl, rfl⟩

/-- The digits of a text say its date and its time of the day. -/
theorem timeOfDigits_text {year : ℤ} (hlow : -10 ^ 6 < year) (hhigh : year < 10 ^ 6)
    {month day ms : ℕ} (hmonth : month < 100) (hday : day < 100) (hms : ms < 86400000) :
    timeOfDigits (isoYear year ++ isoRest month day ms) =
      daysOfCivil { year, month, day } * dayMs + ms := by
  obtain ⟨h1, h2, h3, h4, h5, h6⟩ := parts_isoRest month day ms
  have htime : ms / 3600000 % 100 * 3600000 + ms / 60000 % 60 % 100 * 60000 +
      ms / 1000 % 60 % 100 * 1000 + ms % 1000 % 1000 = ms := by omega
  simp only [timeOfDigits, splitYear_isoYear hlow hhigh, h1, h2, h3, h4, h5, h6, number_digits,
    Nat.reducePow, Nat.mod_eq_of_lt hmonth, Nat.mod_eq_of_lt hday, htime]

/-- A time is read back from its text. -/
theorem getTime_toISOString {time : ℤ} (h : IsTime time) :
    getTime (toISOString time) = some time := by
  have hsplit := Int.mul_ediv_add_emod time dayMs
  have hms := Int.emod_nonneg time (show dayMs ≠ 0 by decide)
  have hmslt := Int.emod_lt_of_pos time (show 0 < dayMs by decide)
  obtain ⟨hlow, hhigh⟩ := id h
  have hback : timeOfDigits (toISOString time).toList = time := by
    obtain ⟨hmonth, hmonthlt, hday, hdaylt⟩ := twoDigits_civilOfDays (time / dayMs)
    have hdays : -10 ^ 8 ≤ time / dayMs ∧ time / dayMs ≤ 10 ^ 8 := by
      rw [dayMs]
      omega
    obtain ⟨hyear, hyearlt⟩ := year_civilOfDays hdays.1 hdays.2
    have hdate := daysOfCivil_civilOfDays (time / dayMs)
    rw [toISOString, String.toList_ofList]
    generalize civilOfDays (time / dayMs) = date at *
    generalize time % dayMs = ms at *
    have hmslt : ms < 86400000 := hmslt
    rw [timeOfDigits_text hyear hyearlt (by omega) (by omega) (by omega),
      Int.toNat_of_nonneg hmonth, Int.toNat_of_nonneg hday, Int.toNat_of_nonneg hms, hdate,
      Int.mul_comm]
    exact hsplit
  rw [getTime, hback, if_pos ⟨h, rfl⟩]

theorem isTime_of_getTime {text : String} {time : ℤ} (h : getTime text = some time) :
    IsTime time := by
  simp only [getTime] at h
  split at h
  · rename_i hvalid
    cases h
    exact hvalid.1
  · cases h

end PublicPool.Lib.IsoDate
