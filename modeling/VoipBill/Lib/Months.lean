import VoipBill.Lib.Calendar

/-!
# Months as intervals of days

Months are numbered through: month `n` is month `n % 12 + 1` of the year `n / 12`.

* `monthFirst_add_le`: a month has 28 days or more, so the first days ascend;
* `monthNumber_lt_iff`: a day is in a month before `n` exactly when it is before the first
  day of `n`;
* `monthNumber_eq_iff`, `year_lt_iff`: the days of a month and of a year.
-/

namespace VoipBill
namespace Lib
namespace Calendar

/-- The number of the month of a day. -/
def monthNumber (z : Int) : Int := 12 * (civilOfDays z).year + (civilOfDays z).month - 1

/-- The first day of a month. -/
def monthFirst (n : Int) : Int := daysOfCivil ⟨n / 12, n % 12 + 1, 1⟩

/-- Days before the first of a month, as the March year counts them. -/
theorem monthFirst_eq (y m : Int) (hm : 0 ≤ m) (hm' : m ≤ 11) :
    monthFirst (12 * y + m) =
      if m ≤ 1 then daysOfMarch ⟨y - 1, monthStart (m + 10)⟩
      else daysOfMarch ⟨y, monthStart (m - 2)⟩ := by
  have hyear : (12 * y + m) / 12 = y := by omega
  have hmonth : (12 * y + m) % 12 = m := by omega
  rw [monthFirst, hyear, hmonth]
  split
  case isTrue h =>
    rw [daysOfCivil_of_le (by omega) (by omega), Int.add_sub_cancel, add_assoc]
    norm_num
  case isFalse h =>
    rw [daysOfCivil_of_gt (by omega) (by omega), Int.add_sub_cancel]
    congr 3
    omega

/-- A month has at least 28 days. -/
theorem monthFirst_add_le (n : Int) : monthFirst n + 28 ≤ monthFirst (n + 1) := by
  obtain ⟨y, m, hm, hm', rfl⟩ : ∃ y m : Int, 0 ≤ m ∧ m ≤ 11 ∧ n = 12 * y + m :=
    ⟨n / 12, n % 12, by omega, by omega, by omega⟩
  rw [monthFirst_eq y m hm hm']
  by_cases hlast : m = 11
  · -- December is followed by January of the next year
    rw [hlast, show 12 * y + 11 + 1 = 12 * (y + 1) + 0 by ring,
      monthFirst_eq (y + 1) 0 (by norm_num) (by norm_num)]
    simp only [daysOfMarch, monthStart]
    norm_num
    omega
  · rw [add_assoc, monthFirst_eq y (m + 1) (by omega) (by omega)]
    simp only [daysOfMarch, monthStart]
    split_ifs <;> omega

theorem monthFirst_strictMono : StrictMono monthFirst :=
  strictMono_int_of_lt_succ fun n => by
    have hle := monthFirst_add_le n
    omega

/-- The first day of the month of a day. -/
theorem monthFirst_monthNumber (z : Int) :
    monthFirst (monthNumber z) = z - ((civilOfDays z).day - 1) := by
  have hmonth := civilOfDays_month_bounds z
  have hyear : monthNumber z / 12 = (civilOfDays z).year := by
    unfold monthNumber
    omega
  have hindex : monthNumber z % 12 + 1 = (civilOfDays z).month := by
    unfold monthNumber
    omega
  have hdays : daysOfCivil ⟨(civilOfDays z).year, (civilOfDays z).month, (civilOfDays z).day⟩ = z :=
    daysOfCivil_civilOfDays z
  rw [daysOfCivil_day] at hdays
  rw [monthFirst, hyear, hindex]
  omega

/-- The first day of the next month. -/
theorem monthFirst_succ_monthNumber (z : Int) :
    monthFirst (monthNumber z + 1) = daysOfCivil (nextMonth (civilOfDays z)) := by
  have hmonth := civilOfDays_month_bounds z
  rw [monthFirst, nextMonth]
  split
  case isTrue h =>
    have hyear : (monthNumber z + 1) / 12 = (civilOfDays z).year + 1 := by
      unfold monthNumber
      omega
    have hindex : (monthNumber z + 1) % 12 + 1 = 1 := by
      unfold monthNumber
      omega
    rw [hyear, hindex]
  case isFalse h =>
    have hyear : (monthNumber z + 1) / 12 = (civilOfDays z).year := by
      unfold monthNumber
      omega
    have hindex : (monthNumber z + 1) % 12 + 1 = (civilOfDays z).month + 1 := by
      unfold monthNumber
      omega
    rw [hyear, hindex]

/-- **Order of months.**  The month of a day is before another one exactly when the day is. -/
theorem monthNumber_lt_iff {z n : Int} : monthNumber z < n ↔ z < monthFirst n := by
  constructor
  · intro h
    calc z < monthFirst (monthNumber z + 1) := by
          rw [monthFirst_succ_monthNumber]
          exact lt_daysOfCivil_nextMonth z
      _ ≤ monthFirst n := monthFirst_strictMono.monotone (by omega)
  · intro h
    by_contra hle
    have hmono := monthFirst_strictMono.monotone (not_lt.mp hle)
    have hpos := civilOfDays_day_pos z
    rw [monthFirst_monthNumber] at hmono
    omega

/-- The days of a month. -/
theorem monthNumber_eq_iff {z n : Int} :
    monthNumber z = n ↔ monthFirst n ≤ z ∧ z < monthFirst (n + 1) := by
  have hlow := @monthNumber_lt_iff z n
  have hhigh := @monthNumber_lt_iff z (n + 1)
  omega

/-- The days before a year. -/
theorem year_lt_iff {z y : Int} : (civilOfDays z).year < y ↔ z < monthFirst (12 * y) := by
  have hmonth := civilOfDays_month_bounds z
  rw [← monthNumber_lt_iff, monthNumber]
  omega

end Calendar
end Lib
end VoipBill
