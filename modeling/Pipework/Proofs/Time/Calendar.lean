import Pipework.Time.Calendar

/-!
# Days and dates

Every number of days has a date, which exists in the calendar and lies that number of days after 1
January 1970. The calendar counts in years from March on, so that a leap day is the last day of its
year: `daysBefore` says where these years start, and `Date.sinceMarch` names their days.
-/

namespace Pipework.Time

/-! ## Years -/

/-- Days from 1 March of the year 0 to 1 March of another year. -/
def daysBefore (year : Int) : Int := 365 * year + year / 4 - year / 100 + year / 400

/-- The year of a day in its era, as `Date.ofDays` finds it. -/
def yearOfEra (d : Int) : Int := (d - d / 1460 + d / 36524 - d / 146096) / 365

theorem daysBefore_succ (year : Int) :
    daysBefore (year + 1) = daysBefore year + if isLeapYear (year + 1) then 366 else 365 := by
  simp only [daysBefore, isLeapYear, Bool.and_eq_true, Bool.or_eq_true, decide_eq_true_eq,
    bne_iff_ne]
  split <;> omega

theorem daysBefore_add_eras (year era : Int) :
    daysBefore (year + era * 400) = daysBefore year + era * 146097 := by
  simp only [daysBefore]
  omega

section Century

/-! A day of an era lies in a century, there in a cycle of four years, and there in a year. The last
cycle of a century has no leap day, except in the last century. -/

variable {century cycle day : Int} (hcentury : 0 ≤ century ∧ century ≤ 3)
  (hcycle : 0 ≤ cycle ∧ cycle ≤ 24)
include hcentury hcycle

theorem daysBefore_century {year : Int} (hyear : 0 ≤ year ∧ year ≤ 3) :
    daysBefore (100 * century + 4 * cycle + year)
      = 36524 * century + 1461 * cycle + 365 * year := by
  have h4 : (100 * century + 4 * cycle + year) / 4 = 25 * century + cycle := by omega
  have h100 : (100 * century + 4 * cycle + year) / 100 = century := by omega
  have h400 : (100 * century + 4 * cycle + year) / 400 = 0 := by omega
  rw [daysBefore, h4, h100, h400]
  omega

variable (hday : 0 ≤ day ∧ day ≤ 1460) (hlast : cycle = 24 → day ≤ 1459)
include hday hlast

theorem yearOfEra_century : yearOfEra (36524 * century + 1461 * cycle + day)
    = 100 * century + 4 * cycle + if day = 1460 then 3 else day / 365 := by
  have h36524 : (36524 * century + 1461 * cycle + day) / 36524 = century := by omega
  have h146096 : (36524 * century + 1461 * cycle + day) / 146096 = 0 := by omega
  rw [yearOfEra, h36524, h146096]
  split <;> omega

theorem mem_yearOfEra_century :
    let d := 36524 * century + 1461 * cycle + day
    0 ≤ yearOfEra d ∧ daysBefore (yearOfEra d) ≤ d ∧ d < daysBefore (yearOfEra d + 1) := by
  intro d
  have hyear := yearOfEra_century hcentury hcycle hday hlast
  by_cases hleap : day = 1460
  · rw [if_pos hleap] at hyear
    have hlong : isLeapYear (100 * century + 4 * cycle + 3 + 1) = true := by
      simp [isLeapYear]
      omega
    rw [hyear, daysBefore_succ, hlong, if_pos rfl,
      daysBefore_century hcentury hcycle (by decide)]
    omega
  · rw [if_neg hleap] at hyear
    rw [hyear, daysBefore_succ, daysBefore_century hcentury hcycle (by omega)]
    split <;> omega

end Century

/-- The year that is found for a day of an era is the one that the day lies in. -/
theorem mem_yearOfEra {d : Int} (h0 : 0 ≤ d) (h1 : d < 146097) :
    0 ≤ yearOfEra d ∧ daysBefore (yearOfEra d) ≤ d ∧ d < daysBefore (yearOfEra d + 1) := by
  by_cases hlast : d = 146096
  · subst hlast
    decide
  · have hd : 36524 * (d / 36524) + 1461 * (d % 36524 / 1461) + d % 36524 % 1461 = d := by omega
    have hmem := @mem_yearOfEra_century (d / 36524) (d % 36524 / 1461) (d % 36524 % 1461)
      (by omega) (by omega) (by omega) (by omega)
    rwa [hd] at hmem

theorem yearOfEra_lt {d : Int} (h0 : 0 ≤ d) (h1 : d < 146097) : yearOfEra d < 400 := by
  have hfirst := (mem_yearOfEra h0 h1).2.1
  rw [daysBefore] at hfirst
  omega

/-! ## Months -/

/-- A day of a month, where years start in March and months and days are counted from 0. -/
def Date.sinceMarch (year month day : Int) : Date :=
  let number := (if month < 10 then month + 3 else month - 9).toNat
  ⟨year + (if number ≤ 2 then 1 else 0), number, (day + 1).toNat⟩

/-- Days from 1 March to the first of a month. -/
def monthStart (month : Int) : Int := (153 * month + 2) / 5

section Month

variable {year month day : Int} (hmonth : 0 ≤ month ∧ month ≤ 11) (hday : 0 ≤ day)
include hmonth hday

theorem toDays_sinceMarch : (Date.sinceMarch year month day).toDays
    = daysBefore year + (monthStart month + day) - 719468 := by
  simp only [Date.sinceMarch, Date.toDays, daysBefore, monthStart]
  by_cases hold : month < 10
  · have hnumber : ¬ (month + 3).toNat ≤ 2 := by omega
    simp only [hold, hnumber, if_true, if_false]
    omega
  · have hnumber : (month - 9).toNat ≤ 2 := by omega
    simp only [hold, hnumber, if_true, if_false]
    omega

theorem isValid_sinceMarch (hlast : monthStart month + day < monthStart (month + 1))
    (hyear : monthStart month + day < if isLeapYear (year + 1) then 366 else 365) :
    (Date.sinceMarch year month day).isValid = true := by
  simp only [monthStart] at hlast hyear
  obtain ⟨hfirst, hbound⟩ := hmonth
  -- Only February is as long as its year allows.
  rcases Int.lt_or_eq_of_le hbound with hbound | rfl
  · clear hyear
    obtain rfl | rfl | rfl | rfl | rfl | rfl | rfl | rfl | rfl | rfl | rfl : month = 0 ∨ month = 1
        ∨ month = 2 ∨ month = 3 ∨ month = 4 ∨ month = 5 ∨ month = 6 ∨ month = 7 ∨ month = 8
        ∨ month = 9 ∨ month = 10 := by omega
    all_goals simp [Date.sinceMarch, Date.isValid, daysInMonth]; omega
  · simp [Date.sinceMarch, Date.isValid, daysInMonth]
    grind

end Month

/-! ## Dates -/

/-- The date of a number of days is found by its year, its month and its day. -/
theorem exists_sinceMarch_ofDays (n : Int) :
    ∃ year month day, Date.ofDays n = Date.sinceMarch year month day
      ∧ (0 ≤ month ∧ month ≤ 11) ∧ 0 ≤ day
      ∧ monthStart month + day < monthStart (month + 1)
      ∧ daysBefore year + (monthStart month + day) = n + 719468
      ∧ n + 719468 < daysBefore (year + 1) := by
  obtain ⟨era, hera⟩ : ∃ era, era = (n + 719468) / 146097 := ⟨_, rfl⟩
  obtain ⟨d, hd⟩ : ∃ d, d = (n + 719468) % 146097 := ⟨_, rfl⟩
  obtain ⟨y, hy⟩ : ∃ y, y = yearOfEra d := ⟨_, rfl⟩
  obtain ⟨hfirst, hlow, hhigh⟩ := mem_yearOfEra (d := d) (by omega) (by omega)
  have hlt : yearOfEra d < 400 := yearOfEra_lt (by omega) (by omega)
  rw [← hy] at hfirst hlow hhigh hlt
  have hbefore : daysBefore y = 365 * y + y / 4 - y / 100 := by
    rw [daysBefore]
    omega
  have hlength : daysBefore (y + 1) ≤ daysBefore y + 366 := by
    rw [daysBefore_succ]
    split <;> omega
  have hnext : daysBefore (y + era * 400 + 1) = daysBefore (y + 1) + era * 146097 := by
    rw [← daysBefore_add_eras, Int.add_right_comm]
  refine ⟨y + era * 400, (5 * (d - daysBefore y) + 2) / 153,
    d - daysBefore y - monthStart ((5 * (d - daysBefore y) + 2) / 153), ?_, ?_⟩
  · rw [hbefore, hera, hy, hd]
    rfl
  · rw [hnext, daysBefore_add_eras]
    simp only [monthStart]
    omega

@[simp] theorem toDays_ofDays (n : Int) : (Date.ofDays n).toDays = n := by
  obtain ⟨year, month, day, heq, hmonth, hday, -, hn, -⟩ := exists_sinceMarch_ofDays n
  rw [heq, toDays_sinceMarch hmonth hday]
  omega

@[simp] theorem isValid_ofDays (n : Int) : (Date.ofDays n).isValid = true := by
  obtain ⟨year, month, day, heq, hmonth, hday, hlast, hn, hyear⟩ := exists_sinceMarch_ofDays n
  rw [daysBefore_succ] at hyear
  rw [heq]
  exact isValid_sinceMarch hmonth hday hlast (by omega)

theorem le_of_isValid {d : Date} (h : d.isValid = true) : d.month ≤ 12 ∧ d.day ≤ 31 := by
  simp only [Date.isValid, Bool.and_eq_true, decide_eq_true_eq] at h
  have hlength : daysInMonth d.year d.month ≤ 31 := by
    unfold daysInMonth
    grind
  omega

end Pipework.Time
