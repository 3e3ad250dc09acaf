/-
  The proleptic Gregorian calendar.

  A date is counted as days from the first of January 1970.  Years are taken
  to start in March, so that the leap day is the last day of its year; then
  every cycle of 400, 100, 4 and 1 years has one fixed length, and the months
  follow one linear rule.

  Main statements: `dayNumber_date`, a day number is that of its date, and
  `date_valid`, that date exists.
-/

namespace Bearer.Calendar

/-- A date: year, month and day of the month. -/
structure Date where
  year : Int
  month : Nat
  day : Nat
  deriving DecidableEq, Repr

/-- Days from 1 March of year 0 to 1 January 1970. -/
def epochOffset : Int := 719468

/-- Days in 400 years. -/
def daysPerEra : Nat := 146097

/-- Whether the year has a leap day. -/
def isLeap (year : Int) : Bool := year % 4 = 0 && (year % 100 ≠ 0 || year % 400 = 0)

/-- The number of days of a month. -/
def daysInMonth (year : Int) (month : Nat) : Nat :=
  match month with
  | 2 => if isLeap year then 29 else 28
  | 4 | 6 | 9 | 11 => 30
  | _ => 31

/-- Whether the calendar has the date. -/
def Date.Valid (d : Date) : Prop :=
  1 ≤ d.month ∧ d.month ≤ 12 ∧ 1 ≤ d.day ∧ d.day ≤ daysInMonth d.year d.month

instance (d : Date) : Decidable d.Valid := by unfold Date.Valid; infer_instance

/-- The place of a month in a year that starts in March. -/
def monthFromMarch (month : Nat) : Nat := (month + 9) % 12

/-- Days from 1 March to the first of the month that stands at `place` after March. -/
def daysBeforeMonth (place : Nat) : Nat := (153 * place + 2) / 5

/-- Days from 1 January 1970 to the date, negative before. -/
def dayNumber (d : Date) : Int :=
  let year := if d.month ≤ 2 then d.year - 1 else d.year
  let inEra := (year % 400).toNat
  let dayOfYear := daysBeforeMonth (monthFromMarch d.month) + (d.day - 1)
  let dayOfEra := inEra * 365 + inEra / 4 - inEra / 100 + dayOfYear
  year / 400 * daysPerEra + dayOfEra - epochOffset

/-- The year of an era and the day of that year, from the day of the era. -/
def yearOfEra (dayOfEra : Nat) : Nat × Nat :=
  -- The last century and the last year of a cycle may have a day more, hence the bounds.
  let century := min (dayOfEra / 36524) 3
  let inCentury := dayOfEra - century * 36524
  let quad := inCentury / 1461
  let inQuad := inCentury - quad * 1461
  let year := min (inQuad / 365) 3
  (century * 100 + quad * 4 + year, inQuad - year * 365)

/-- The place of the month after March, from the day of a year that starts in March. -/
def monthOfDay (dayOfYear : Nat) : Nat := (5 * dayOfYear + 2) / 153

/-- The date that lies `n` days after 1 January 1970. -/
def date (n : Int) : Date :=
  let fromMarch := n + epochOffset
  let (yearInEra, dayOfYear) := yearOfEra (fromMarch % daysPerEra).toNat
  let place := monthOfDay dayOfYear
  let month := if place < 10 then place + 3 else place - 9
  let marchYear := fromMarch / daysPerEra * 400 + yearInEra
  -- January and February end a year that started in March.
  { year := if month ≤ 2 then marchYear + 1 else marchYear
    month := month
    day := dayOfYear - daysBeforeMonth place + 1 }

/-! ## A day number is that of its date -/

theorem yearOfEra_bounds {n : Nat} (h : n < daysPerEra) :
    (yearOfEra n).1 < 400 ∧ (yearOfEra n).2 < 366 := by
  unfold daysPerEra at h
  simp only [yearOfEra]
  omega

theorem yearOfEra_sum {n : Nat} (h : n < daysPerEra) :
    (yearOfEra n).1 * 365 + (yearOfEra n).1 / 4 - (yearOfEra n).1 / 100 + (yearOfEra n).2 = n := by
  unfold daysPerEra at h
  simp only [yearOfEra]
  generalize hc : min (n / 36524) 3 = c
  generalize hq : (n - c * 36524) / 1461 = q
  generalize hb : min ((n - c * 36524 - q * 1461) / 365) 3 = b
  have hquad : q ≤ 24 := by omega
  have hyear : b ≤ 3 := by omega
  have h4 : (c * 100 + q * 4 + b) / 4 = c * 25 + q := by omega
  have h100 : (c * 100 + q * 4 + b) / 100 = c := by omega
  rw [h4, h100]
  omega

theorem monthOfDay_bounds {n : Nat} (h : n < 366) :
    monthOfDay n < 12 ∧ daysBeforeMonth (monthOfDay n) ≤ n := by
  simp only [monthOfDay, daysBeforeMonth]
  omega

theorem dayNumber_date (n : Int) : dayNumber (date n) = n := by
  have hr : 0 ≤ (n + epochOffset) % daysPerEra ∧ (n + epochOffset) % daysPerEra < daysPerEra := by
    unfold daysPerEra; omega
  have hlt : ((n + epochOffset) % daysPerEra).toNat < daysPerEra := by omega
  have hb := yearOfEra_bounds hlt
  have hs := yearOfEra_sum hlt
  have hm := monthOfDay_bounds hb.2
  have hdiv := Int.mul_ediv_add_emod (n + epochOffset) daysPerEra
  generalize hy : (yearOfEra ((n + epochOffset) % daysPerEra).toNat).1 = y at *
  generalize hd : (yearOfEra ((n + epochOffset) % daysPerEra).toNat).2 = d at *
  have hyear : (if (date n).month ≤ 2 then (date n).year - 1 else (date n).year) =
      (n + epochOffset) / daysPerEra * 400 + y := by
    simp only [date, hy, hd]
    split <;> split <;> omega
  have hplace : monthFromMarch (date n).month = monthOfDay d := by
    simp only [date, hd, monthFromMarch]
    split <;> omega
  have hday : daysBeforeMonth (monthOfDay d) + ((date n).day - 1) = d := by
    simp only [date, hd]
    omega
  simp only [dayNumber, hyear, hplace, hday]
  have h1 : ((n + epochOffset) / daysPerEra * 400 + (y : Int)) % 400 = y := by omega
  have h2 : ((n + epochOffset) / daysPerEra * 400 + (y : Int)) / 400 =
      (n + epochOffset) / daysPerEra := by omega
  rw [h1, h2, Int.toNat_natCast, hs]
  rw [Int.mul_comm]
  omega

/-! ## The date of a day number exists -/

/-- A year counted from March has a 366th day only if it ends in a leap year. -/
theorem leap_of_yearOfEra {n : Nat} (h : n < daysPerEra) (hd : 365 ≤ (yearOfEra n).2) :
    ((yearOfEra n).1 + 1) % 4 = 0 ∧
      (((yearOfEra n).1 + 1) % 100 ≠ 0 ∨ ((yearOfEra n).1 + 1) % 400 = 0) := by
  unfold daysPerEra at h
  simp only [yearOfEra] at hd ⊢
  generalize hc : min (n / 36524) 3 = c at *
  generalize hq : (n - c * 36524) / 1461 = q at *
  generalize hb : min ((n - c * 36524 - q * 1461) / 365) 3 = b at *
  have hyear : b = 3 := by omega
  subst hyear
  by_cases hcent : c = 3
  · subst hcent
    omega
  · have : q < 24 := by omega
    omega

theorem date_valid (n : Int) : (date n).Valid := by
  have hr : 0 ≤ (n + epochOffset) % daysPerEra ∧ (n + epochOffset) % daysPerEra < daysPerEra := by
    unfold daysPerEra; omega
  have hlt : ((n + epochOffset) % daysPerEra).toNat < daysPerEra := by omega
  have hb := yearOfEra_bounds hlt
  have hl := leap_of_yearOfEra hlt
  have hm := monthOfDay_bounds hb.2
  generalize hy : (yearOfEra ((n + epochOffset) % daysPerEra).toNat).1 = y at *
  generalize hd : (yearOfEra ((n + epochOffset) % daysPerEra).toNat).2 = d at *
  simp only [Date.Valid, date, hy, hd]
  have hplace : monthOfDay d = (5 * d + 2) / 153 := rfl
  have hbefore : daysBeforeMonth (monthOfDay d) = (153 * ((5 * d + 2) / 153) + 2) / 5 := rfl
  generalize hp : monthOfDay d = p at *
  rw [hbefore, ← hplace]
  have hp12 : p < 12 := hm.1
  refine ⟨by split <;> omega, by split <;> omega, by omega, ?_⟩
  by_cases hfeb : p = 11
  · subst hfeb
    simp only [daysInMonth, isLeap, show ¬ (11 : Nat) < 10 by omega, if_false,
      show ((11 : Nat) - 9 ≤ 2) by omega, if_true]
    by_cases hlong : 365 ≤ d
    · have hcond := hl hlong
      have hleap : (((n + epochOffset) / (daysPerEra : Int) * 400 + (y : Int) + 1) % 4 = 0 &&
          (((n + epochOffset) / (daysPerEra : Int) * 400 + (y : Int) + 1) % 100 ≠ 0 ||
          ((n + epochOffset) / (daysPerEra : Int) * 400 + (y : Int) + 1) % 400 = 0)) = true := by
        simp only [Bool.and_eq_true, Bool.or_eq_true, decide_eq_true_eq]
        omega
      rw [if_pos hleap]
      omega
    · split <;> omega
  · have hcases : p = 0 ∨ p = 1 ∨ p = 2 ∨ p = 3 ∨ p = 4 ∨ p = 5 ∨ p = 6 ∨ p = 7 ∨ p = 8 ∨ p = 9 ∨
        p = 10 := by omega
    rcases hcases with rfl | rfl | rfl | rfl | rfl | rfl | rfl | rfl | rfl | rfl | rfl <;>
      simp [daysInMonth] <;> omega

end Bearer.Calendar
