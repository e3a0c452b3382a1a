import VoipBill.Lib.Significant
import VoipBill.Model.Common
import VoipBill.Model.Records

/-!
# Saving and loading an account counter

`prepareSaveQuery` writes a row of `billing.stats_account` as text and `load` reads it
back.  The dates go through `string_date` and `string_time` and come back as
`extract(epoch ..)`; the sums are written to a string stream and read by `atof`.

A string stream writes six significant digits.  So the dates of a counter survive, and
a sum does exactly when it has no more digits than that.
-/

namespace VoipBill

open Lib

/-- What the columns of `billing.stats_account` hold: a date as the second it starts
with, a sum as the decimal number that was written. -/
structure StatsAccountRow where
  accountId : Int
  amountMonth : Int
  sumMonth : ℚ
  amountDay : Int
  sumDay : ℚ
  sumMnDay : ℚ
  amountDate : Int
  sum : ℚ
deriving DecidableEq, Repr

namespace StatsAccountManager

/-- The values `prepareSaveQuery` writes for a counter. -/
def prepareSaveRow (stats : StatsAccount) : StatsAccountRow where
  accountId := stats.accountId
  amountMonth := stringDate stats.amountMonth
  sumMonth := toSignificant streamDigits stats.sumMonth
  amountDay := stringDate stats.amountDay
  sumDay := toSignificant streamDigits stats.sumDay
  sumMnDay := toSignificant streamDigits stats.sumMnDay
  amountDate := stringTime stats.amountDate
  sum := toSignificant streamDigits stats.sum

/-- The counter `load` makes of a row. -/
def loadRow (row : StatsAccountRow) : StatsAccount where
  accountId := row.accountId
  amountMonth := row.amountMonth
  sumMonth := row.sumMonth
  amountDay := row.amountDay
  sumDay := row.sumDay
  sumMnDay := row.sumMnDay
  amountDate := row.amountDate
  sum := row.sum

/-- The time lies in the years 1970 to 4000. -/
def InYears (t : Int) : Prop := 70 ≤ (gmtimeR t).tmYear ∧ (gmtimeR t).tmYear ≤ 2100

/-- The dates of a counter are UTC day and month starts between 1970 and 4000. -/
structure DatesOk (stats : StatsAccount) : Prop where
  month : getTmonth stats.amountMonth 0 = stats.amountMonth
  monthYears : InYears stats.amountMonth
  day : getTday stats.amountDay 0 = stats.amountDay
  dayYears : InYears stats.amountDay
  date : getTday stats.amountDate 0 = stats.amountDate
  dateYears : InYears stats.amountDate

/-- Every sum has at most six significant digits. -/
structure SumsShort (stats : StatsAccount) : Prop where
  sumMonth : HasDigits streamDigits stats.sumMonth
  sumDay : HasDigits streamDigits stats.sumDay
  sumMnDay : HasDigits streamDigits stats.sumMnDay
  sum : HasDigits streamDigits stats.sum

/-- Dates survive the save. -/
theorem loadRow_prepareSaveRow (stats : StatsAccount) (h : DatesOk stats) :
    loadRow (prepareSaveRow stats) =
      { stats with
        sumMonth := toSignificant streamDigits stats.sumMonth
        sumDay := toSignificant streamDigits stats.sumDay
        sumMnDay := toSignificant streamDigits stats.sumMnDay
        sum := toSignificant streamDigits stats.sum } := by
  have hmonth : stringDate stats.amountMonth = stats.amountMonth := by
    rw [stringDate_eq_getTday h.monthYears.1 h.monthYears.2]
    exact getTday_of_getTmonth h.month
  have hday : stringDate stats.amountDay = stats.amountDay := by
    rw [stringDate_eq_getTday h.dayYears.1 h.dayYears.2]
    exact h.day
  have hdate : stringTime stats.amountDate = stats.amountDate :=
    stringTime_eq_self h.dateYears.1 h.dateYears.2
  simp only [loadRow, prepareSaveRow, hmonth, hday, hdate]

/-- **A counter survives a save and a load** exactly when each of its sums has at most
six significant digits. -/
theorem account_survives_iff (stats : StatsAccount) (hdates : DatesOk stats) :
    loadRow (prepareSaveRow stats) = stats ↔ SumsShort stats := by
  rw [loadRow_prepareSaveRow stats hdates]
  constructor
  · intro h
    obtain ⟨id, sum, sumDay, sumMnDay, sumMonth, day, month, date⟩ := stats
    simp only [StatsAccount.mk.injEq, true_and, and_true] at h
    obtain ⟨hsum, hday, hmnDay, hmonth⟩ := h
    exact {
      sumMonth := (toSignificant_eq_self_iff _ _).mp hmonth
      sumDay := (toSignificant_eq_self_iff _ _).mp hday
      sumMnDay := (toSignificant_eq_self_iff _ _).mp hmnDay
      sum := (toSignificant_eq_self_iff _ _).mp hsum }
  · intro h
    rw [(toSignificant_eq_self_iff _ _).mpr h.sumMonth, (toSignificant_eq_self_iff _ _).mpr h.sumDay,
      (toSignificant_eq_self_iff _ _).mpr h.sumMnDay, (toSignificant_eq_self_iff _ _).mpr h.sum]

/-- Counters of 2016-08-01 with a balance of 1234.5. -/
def shortBalance : StatsAccount :=
  { accountId := 7, sum := -1234.5, amountDay := 1470009600, amountMonth := 1470009600,
    amountDate := 1470009600 }

theorem dates_shortBalance : DatesOk shortBalance := by
  constructor
  case monthYears => exact ⟨by decide +kernel, by decide +kernel⟩
  case dayYears => exact ⟨by decide +kernel, by decide +kernel⟩
  case dateYears => exact ⟨by decide +kernel, by decide +kernel⟩
  all_goals decide +kernel

theorem shortBalance_survives : loadRow (prepareSaveRow shortBalance) = shortBalance := by
  refine (account_survives_iff shortBalance dates_shortBalance).mpr ?_
  constructor
  case sum => exact ⟨-12345, -1, by decide, by norm_num [shortBalance]⟩
  all_goals exact ⟨0, 0, by decide, by norm_num [shortBalance]⟩

/-- A balance of 12345.6789 is loaded as 12345.7. -/
theorem long_balance_is_rounded :
    let stats := { shortBalance with sum := -12345.6789 }
    stats.sum * 10 ^ 4 = -123456789 ∧ DatesOk stats ∧
      loadRow (prepareSaveRow stats) = { stats with sum := -12345.7 } ∧
      loadRow (prepareSaveRow stats) ≠ stats := by
  refine ⟨by norm_num, ?_, by decide +kernel, by decide +kernel⟩
  exact { dates_shortBalance with }

end StatsAccountManager
end VoipBill
