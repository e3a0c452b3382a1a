import VoipBill.Lib.Calendar

/-!
# Days and months of a time

The time arithmetic of `common.cpp`.  `gmtime_r` and `timegm` are the calendar
conversions of the C library; the broken-down fields that no caller reads
(`tm_wday`, `tm_yday`, `tm_isdst`) are left out.

The bounds that counters with a monthly window rest on are `getTmonth_le` and
`le_getTmonthEnd`: a time lies inside the month that is computed for it,
whatever the time zone offset.
-/

namespace VoipBill

open Lib.Calendar

/-- Broken-down time: `tmMon` counts from 0 and `tmYear` from 1900. -/
structure Tm where
  tmSec : Int
  tmMin : Int
  tmHour : Int
  tmMday : Int
  tmMon : Int
  tmYear : Int
deriving DecidableEq, Repr

def gmtimeR (t : Int) : Tm :=
  let civil := civilOfDays (t / 86400)
  let second := t % 86400
  { tmSec := second % 60
    tmMin := second / 60 % 60
    tmHour := second / 3600
    tmMday := civil.day
    tmMon := civil.month - 1
    tmYear := civil.year - 1900 }

def timegm (tm : Tm) : Int :=
  86400 * daysOfCivil ⟨tm.tmYear + 1900, tm.tmMon + 1, tm.tmMday⟩ +
    3600 * tm.tmHour + 60 * tm.tmMin + tm.tmSec

def getTday (timestamp timezoneOffset : Int) : Int :=
  let timeinfo := gmtimeR (timestamp + 3600 * timezoneOffset)
  timegm { timeinfo with tmHour := 0, tmMin := 0, tmSec := 0 } - 3600 * timezoneOffset

def getTmonth (timestamp timezoneOffset : Int) : Int :=
  let timeinfo := gmtimeR (timestamp + 3600 * timezoneOffset)
  timegm { timeinfo with tmHour := 0, tmMin := 0, tmSec := 0, tmMday := 1 } -
    3600 * timezoneOffset

def getTmonthEnd (timestamp timezoneOffset : Int) : Int :=
  let timeinfo := gmtimeR (timestamp + 3600 * timezoneOffset)
  let timeinfo := { timeinfo with tmHour := 0, tmMin := 0, tmSec := 0, tmMday := 1 }
  let tmMon := timeinfo.tmMon + 1
  let timeinfo :=
    if tmMon = 12 then { timeinfo with tmMon := 0, tmYear := timeinfo.tmYear + 1 }
    else { timeinfo with tmMon := tmMon }
  timegm timeinfo - 1 - 3600 * timezoneOffset

/-- The precision of a fresh `stringstream`, in significant digits. -/
def streamDigits : Nat := 6

/-- The time that the text of `string_time` stands for: times after the year 5000
become its first day, years before 1900 and after 4900 the first day of 1900. -/
def stringTime (dt : Int) : Int :=
  if 95649120000 < dt then 95617584000
  else if (gmtimeR dt).tmYear < 0 ∨ 3000 < (gmtimeR dt).tmYear then -2208988800
  else dt

/-- The first second of the day that the text of `string_date` stands for, with the same
substitutes. -/
def stringDate (dt : Int) : Int :=
  if 95649120000 < dt then 95617584000
  else if (gmtimeR dt).tmYear < 0 ∨ 3000 < (gmtimeR dt).tmYear then -2208988800
  else timegm { gmtimeR dt with tmHour := 0, tmMin := 0, tmSec := 0 }

/-- `timegm` undoes `gmtime_r`. -/
theorem timegm_gmtimeR (t : Int) : timegm (gmtimeR t) = t := by
  have hdays : daysOfCivil
      ⟨(civilOfDays (t / 86400)).year - 1900 + 1900,
        (civilOfDays (t / 86400)).month - 1 + 1, (civilOfDays (t / 86400)).day⟩ =
      t / 86400 := by
    rw [Int.sub_add_cancel, Int.sub_add_cancel]
    exact daysOfCivil_civilOfDays (t / 86400)
  simp only [timegm, gmtimeR, hdays]
  omega

/-- The first day of the month a day lies in. -/
theorem daysOfCivil_first (z : Int) :
    daysOfCivil ⟨(civilOfDays z).year, (civilOfDays z).month, 1⟩ =
      z - ((civilOfDays z).day - 1) := by
  have hdays : daysOfCivil
      ⟨(civilOfDays z).year, (civilOfDays z).month, (civilOfDays z).day⟩ = z :=
    daysOfCivil_civilOfDays z
  rw [daysOfCivil_day] at hdays
  omega

/-- The start of the month as the start of the first day of the month. -/
theorem getTmonth_eq (t z : Int) :
    getTmonth t z =
      86400 * ((t + 3600 * z) / 86400 - ((civilOfDays ((t + 3600 * z) / 86400)).day - 1)) -
        3600 * z := by
  simp only [getTmonth, timegm, gmtimeR, Int.sub_add_cancel, daysOfCivil_first]
  omega

theorem getTmonth_le (t z : Int) : getTmonth t z ≤ t := by
  have hpos := civilOfDays_day_pos ((t + 3600 * z) / 86400)
  rw [getTmonth_eq]
  omega

/-- The end of the month as the second before the next month begins. -/
theorem getTmonthEnd_eq (t z : Int) :
    getTmonthEnd t z =
      86400 * daysOfCivil (nextMonth (civilOfDays ((t + 3600 * z) / 86400))) - 1 -
        3600 * z := by
  generalize hc : civilOfDays ((t + 3600 * z) / 86400) = civil
  simp only [getTmonthEnd, gmtimeR, nextMonth, hc, Int.sub_add_cancel]
  split
  · rw [show civil.year - 1900 + 1 = civil.year + 1 - 1900 by omega]
    simp [timegm]
  · simp [timegm]

theorem le_getTmonthEnd (t z : Int) : t ≤ getTmonthEnd t z := by
  have hlt := lt_daysOfCivil_nextMonth ((t + 3600 * z) / 86400)
  rw [getTmonthEnd_eq]
  omega

/-- The start of the day. -/
theorem getTday_eq (t z : Int) :
    getTday t z = 86400 * ((t + 3600 * z) / 86400) - 3600 * z := by
  have hdays := daysOfCivil_civilOfDays ((t + 3600 * z) / 86400)
  simp only [getTday, timegm, gmtimeR, Int.sub_add_cancel, hdays]
  omega

/-- A month starts with a day. -/
theorem getTday_of_getTmonth {t : Int} (h : getTmonth t 0 = t) : getTday t 0 = t := by
  rw [getTmonth_eq] at h
  rw [getTday_eq]
  omega

/-- Times up to the year 4000 lie before 5001. -/
theorem lt_of_tmYear_le {t : Int} (h : (gmtimeR t).tmYear ≤ 2100) : t < 95649120000 := by
  have hlt := lt_daysOfMarch_nextYear (t / 86400)
  have hyear : (marchOfDays (t / 86400)).year ≤ (civilOfDays (t / 86400)).year := by
    simp only [civilOfDays]
    split_ifs <;> omega
  have hcivil : (civilOfDays (t / 86400)).year - 1900 ≤ 2100 := h
  simp only [daysOfMarch, epochShift] at hlt
  omega

/-- Between 1970 and 4000 the text of a time stands for it. -/
theorem stringTime_eq_self {t : Int} (hlo : 70 ≤ (gmtimeR t).tmYear)
    (hhi : (gmtimeR t).tmYear ≤ 2100) : stringTime t = t := by
  have hlt := lt_of_tmYear_le hhi
  rw [stringTime, if_neg (by omega), if_neg (by omega)]

/-- Between 1970 and 4000 the text of a date stands for the start of the day. -/
theorem stringDate_eq_getTday {t : Int} (hlo : 70 ≤ (gmtimeR t).tmYear)
    (hhi : (gmtimeR t).tmYear ≤ 2100) : stringDate t = getTday t 0 := by
  have hlt := lt_of_tmYear_le hhi
  rw [stringDate, if_neg (by omega), if_neg (by omega)]
  simp [getTday]

example : getTmonth 1709210096 3 = 1706734800 := by decide
example : getTmonthEnd 1709210096 3 = 1709240399 := by decide

end VoipBill
