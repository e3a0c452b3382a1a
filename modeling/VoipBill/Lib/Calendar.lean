import Mathlib.Tactic

/-!
# The proleptic Gregorian calendar

Days are counted from 1970-01-01.  A date is computed in two stages: first the
year that starts in March and the day inside it (`MarchDate`), so that the leap
day is the last day of a year, then the month and the day of the month.

The lemmas kept here are those that bound a time by the month it lies in:

* `daysOfCivil_civilOfDays`: the date of a day determines the day;
* `civilOfDays_day_pos`: days of a month are counted from 1;
* `lt_daysOfCivil_nextMonth`: a day lies before the first of the next month.
-/

namespace VoipBill
namespace Lib
namespace Calendar

/-- A date in years that start on the first of March. -/
structure MarchDate where
  year : Int
  day : Int
deriving DecidableEq, Repr

/-- 719468 days lie between 0000-03-01 and 1970-01-01. -/
def epochShift : Int := 719468

/-- Day number of a date given by March year and day of that year. -/
def daysOfMarch (m : MarchDate) : Int :=
  365 * m.year + m.year / 4 - m.year / 100 + m.year / 400 + m.day - epochShift

/-- March year and day of the year of a day number. -/
def marchOfDays (z : Int) : MarchDate :=
  let d := z + epochShift
  let r400 := d % 146097
  let n100 := min (r400 / 36524) 3
  let r100 := r400 - 36524 * n100
  let r4 := r100 % 1461
  let n1 := min (r4 / 365) 3
  { year := 400 * (d / 146097) + 100 * n100 + 4 * (r100 / 1461) + n1
    day := r4 - 365 * n1 }

/-- A civil date; months run from 1 to 12. -/
structure Civil where
  year : Int
  month : Int
  day : Int
deriving DecidableEq, Repr

/-- First day, inside the March year, of the month with index `mp` (March is 0). -/
def monthStart (mp : Int) : Int := (153 * mp + 2) / 5

def monthIndex (dayOfYear : Int) : Int := (5 * dayOfYear + 2) / 153

def civilOfDays (z : Int) : Civil :=
  let m := marchOfDays z
  let mp := monthIndex m.day
  let month := if mp < 10 then mp + 3 else mp - 9
  { year := if month ≤ 2 then m.year + 1 else m.year
    month := month
    day := m.day - monthStart mp + 1 }

def daysOfCivil (c : Civil) : Int :=
  daysOfMarch
    { year := if c.month ≤ 2 then c.year - 1 else c.year
      day := monthStart ((c.month + 9) % 12) + c.day - 1 }

example : civilOfDays 0 = ⟨1970, 1, 1⟩ := by decide
example : civilOfDays 19782 = ⟨2024, 2, 29⟩ := by decide

/-- The quotients that `daysOfMarch` uses, for a year given by its place in the
400, 100, 4 and 1 year cycles. -/
theorem year_quotients {a b c e : Int} (hb : 0 ≤ b ∧ b ≤ 3) (hc : 0 ≤ c ∧ c ≤ 24)
    (he : 0 ≤ e ∧ e ≤ 3) :
    (400 * a + 100 * b + 4 * c + e) / 4 = 100 * a + 25 * b + c ∧
      (400 * a + 100 * b + 4 * c + e) / 100 = 4 * a + b ∧
      (400 * a + 100 * b + 4 * c + e) / 400 = a := by
  refine ⟨?_, ?_, ?_⟩ <;> omega

/-- Three cycles of equal length are followed by a last one that may be a day longer, so
that a day of the fourth or behind it belongs to the fourth. -/
theorem lastCycle_bounds {cycle r : Int} (hcycle : 0 < cycle) (hr : 0 ≤ r) (hlast : r ≤ 4 * cycle) :
    (0 ≤ min (r / cycle) 3 ∧ min (r / cycle) 3 ≤ 3) ∧
      0 ≤ r - cycle * min (r / cycle) 3 ∧ r - cycle * min (r / cycle) 3 ≤ cycle ∧
      (r - cycle * min (r / cycle) 3 = cycle → r = 4 * cycle) := by
  have hquotient : 0 ≤ r / cycle := Int.ediv_nonneg hr hcycle.le
  have hmod : r - cycle * (r / cycle) = r % cycle := (Int.emod_def r cycle).symm
  have hpos : 0 ≤ r % cycle := Int.emod_nonneg r hcycle.ne'
  have hlt : r % cycle < cycle := Int.emod_lt_of_pos r hcycle
  rcases le_total (r / cycle) 3 with hle | hle
  · rw [min_eq_left hle, hmod]
    omega
  · rw [min_eq_right hle]
    have hthree : cycle * 3 ≤ cycle * (r / cycle) := Int.mul_le_mul_of_nonneg_left hle hcycle.le
    omega

/-- The day of a date decomposed along the 400, 100, 4 and 1 year cycles. -/
theorem marchOfDays_cycles (z : Int) :
    ∃ a b c e d : Int, (0 ≤ b ∧ b ≤ 3) ∧ (0 ≤ c ∧ c ≤ 24) ∧ (0 ≤ e ∧ e ≤ 3) ∧
      (0 ≤ d ∧ d ≤ 365) ∧ (d = 365 → e = 3 ∧ (c = 24 → b = 3)) ∧
      marchOfDays z = ⟨400 * a + 100 * b + 4 * c + e, d⟩ ∧
      z + epochShift = 146097 * a + 36524 * b + 1461 * c + 365 * e + d := by
  set r400 := (z + epochShift) % 146097 with hr400
  set b := min (r400 / 36524) 3
  set r100 := r400 - 36524 * b with hr100
  set e := min (r100 % 1461 / 365) 3
  obtain ⟨hb, hpos, hle, hlong⟩ :=
    @lastCycle_bounds 36524 r400 (by omega) (by omega) (by omega)
  obtain ⟨he, hd, hd', hleap⟩ :=
    @lastCycle_bounds 365 (r100 % 1461) (by omega) (by omega) (by omega)
  refine ⟨(z + epochShift) / 146097, b, r100 / 1461, e, r100 % 1461 - 365 * e, hb, ?_, he,
    ⟨hd, hd'⟩, fun hlast => ?_, rfl, ?_⟩
  · omega
  · -- the leap day is the last of its four years, and of the century where it ends one
    have hfour : r100 % 1461 = 1460 := hleap hlast
    omega
  · omega

/-- The first of March, in days, by the place of its year in the cycles. -/
theorem daysOfMarch_cycles {a b c e : Int} (hb : 0 ≤ b ∧ b ≤ 3) (hc : 0 ≤ c ∧ c ≤ 24)
    (he : 0 ≤ e ∧ e ≤ 3) (d : Int) :
    daysOfMarch ⟨400 * a + 100 * b + 4 * c + e, d⟩ =
      146097 * a + 36524 * b + 1461 * c + 365 * e + d - epochShift := by
  obtain ⟨h4, h100, h400⟩ := @year_quotients a b c e hb hc he
  simp only [daysOfMarch, h4, h100, h400]
  ring

theorem daysOfMarch_marchOfDays (z : Int) : daysOfMarch (marchOfDays z) = z := by
  obtain ⟨a, b, c, e, d, hb, hc, he, -, -, hm, hz⟩ := marchOfDays_cycles z
  rw [hm, daysOfMarch_cycles hb hc he, ← hz]
  ring

theorem daysOfMarch_day (y d : Int) : daysOfMarch ⟨y, d⟩ = daysOfMarch ⟨y, 0⟩ + d := by
  simp only [daysOfMarch]
  ring

/-- A day, counted from the first of March of its March year. -/
theorem daysOfMarch_firstOfMarch (z : Int) :
    daysOfMarch ⟨(marchOfDays z).year, 0⟩ + (marchOfDays z).day = z := by
  rw [← daysOfMarch_day]
  exact daysOfMarch_marchOfDays z

/-- A day lies before the first of March of the next March year. -/
theorem lt_daysOfMarch_nextYear (z : Int) :
    z < daysOfMarch ⟨(marchOfDays z).year + 1, 0⟩ := by
  obtain ⟨a, b, c, e, d, hb, hc, he, hd, hleap, hm, hz⟩ := marchOfDays_cycles z
  rw [hm]
  show z < daysOfMarch ⟨400 * a + 100 * b + 4 * c + e + 1, 0⟩
  -- which of the cycles the next year begins
  rcases Int.lt_or_le e 3 with hyear | hyear
  · rw [Int.add_assoc, daysOfMarch_cycles hb hc (by omega)]
    omega
  rcases Int.lt_or_le c 24 with hfour | hfour
  · rw [show 400 * a + 100 * b + 4 * c + e + 1 = 400 * a + 100 * b + 4 * (c + 1) + 0 by omega,
      daysOfMarch_cycles hb (by omega) (by omega)]
    omega
  rcases Int.lt_or_le b 3 with hcentury | hcentury
  · rw [show 400 * a + 100 * b + 4 * c + e + 1 = 400 * a + 100 * (b + 1) + 4 * 0 + 0 by omega,
      daysOfMarch_cycles (by omega) (by omega) (by omega)]
    omega
  · rw [show 400 * a + 100 * b + 4 * c + e + 1 = 400 * (a + 1) + 100 * 0 + 4 * 0 + 0 by omega,
      daysOfMarch_cycles (by omega) (by omega) (by omega)]
    omega

theorem marchOfDays_day_bounds (z : Int) :
    0 ≤ (marchOfDays z).day ∧ (marchOfDays z).day ≤ 365 := by
  obtain ⟨a, b, c, e, d, -, -, -, hd, -, hm, -⟩ := marchOfDays_cycles z
  rw [hm]
  exact hd

theorem monthIndex_bounds (z : Int) :
    0 ≤ monthIndex (marchOfDays z).day ∧ monthIndex (marchOfDays z).day ≤ 11 := by
  have hday := marchOfDays_day_bounds z
  simp only [monthIndex]
  omega

/-- March to December belong to the year their March year is named after. -/
theorem civilOfDays_of_lt {z : Int} (h : monthIndex (marchOfDays z).day < 10) :
    civilOfDays z = ⟨(marchOfDays z).year, monthIndex (marchOfDays z).day + 3,
      (marchOfDays z).day - monthStart (monthIndex (marchOfDays z).day) + 1⟩ := by
  have hmp := monthIndex_bounds z
  have hmonth : ¬ monthIndex (marchOfDays z).day + 3 ≤ 2 := by omega
  simp [civilOfDays, h, hmonth]

/-- January and February belong to the following year. -/
theorem civilOfDays_of_ge {z : Int} (h : 10 ≤ monthIndex (marchOfDays z).day) :
    civilOfDays z = ⟨(marchOfDays z).year + 1, monthIndex (marchOfDays z).day - 9,
      (marchOfDays z).day - monthStart (monthIndex (marchOfDays z).day) + 1⟩ := by
  have hmp := monthIndex_bounds z
  have hge : ¬ monthIndex (marchOfDays z).day < 10 := by omega
  have hmonth : monthIndex (marchOfDays z).day - 9 ≤ 2 := by omega
  simp [civilOfDays, hge, hmonth]

theorem daysOfCivil_of_gt {y m d : Int} (h : 2 < m) (h' : m ≤ 12) :
    daysOfCivil ⟨y, m, d⟩ = daysOfMarch ⟨y, monthStart (m - 3) + d - 1⟩ := by
  have hm : ¬ m ≤ 2 := by omega
  have hmod : (m + 9) % 12 = m - 3 := by omega
  simp [daysOfCivil, hm, hmod]

theorem daysOfCivil_of_le {y m d : Int} (h : 1 ≤ m) (h' : m ≤ 2) :
    daysOfCivil ⟨y, m, d⟩ = daysOfMarch ⟨y - 1, monthStart (m + 9) + d - 1⟩ := by
  have hmod : (m + 9) % 12 = m + 9 := by omega
  simp [daysOfCivil, h', hmod]

/-- The date of a day determines the day. -/
theorem daysOfCivil_civilOfDays (z : Int) : daysOfCivil (civilOfDays z) = z := by
  have hmp := monthIndex_bounds z
  have hz := daysOfMarch_firstOfMarch z
  by_cases h : monthIndex (marchOfDays z).day < 10
  · rw [civilOfDays_of_lt h, daysOfCivil_of_gt (by omega) (by omega), Int.add_sub_cancel,
      daysOfMarch_day]
    omega
  · rw [civilOfDays_of_ge (by omega), daysOfCivil_of_le (by omega) (by omega),
      Int.add_sub_cancel, Int.sub_add_cancel, daysOfMarch_day]
    omega

theorem civilOfDays_day_pos (z : Int) : 1 ≤ (civilOfDays z).day := by
  have hday := marchOfDays_day_bounds z
  simp only [civilOfDays, monthStart, monthIndex]
  omega

theorem civilOfDays_month_bounds (z : Int) :
    1 ≤ (civilOfDays z).month ∧ (civilOfDays z).month ≤ 12 := by
  have hmp := monthIndex_bounds z
  by_cases h : monthIndex (marchOfDays z).day < 10
  · rw [civilOfDays_of_lt h]
    constructor <;> dsimp only <;> omega
  · rw [civilOfDays_of_ge (by omega)]
    constructor <;> dsimp only <;> omega

/-- Moving the day of the month moves the day number. -/
theorem daysOfCivil_day (y m d : Int) :
    daysOfCivil ⟨y, m, d⟩ = daysOfCivil ⟨y, m, 1⟩ + (d - 1) := by
  simp only [daysOfCivil, daysOfMarch]
  ring

/-- The first of the month after a date. -/
def nextMonth (c : Civil) : Civil :=
  if c.month = 12 then ⟨c.year + 1, 1, 1⟩ else ⟨c.year, c.month + 1, 1⟩

/-- The day of a March year lies before the first day of the month after its own. -/
theorem lt_monthStart_succ (d : Int) : d < monthStart (monthIndex d + 1) := by
  simp only [monthStart, monthIndex]
  omega

/-- A day lies before the first of the next month. -/
theorem lt_daysOfCivil_nextMonth (z : Int) :
    z < daysOfCivil (nextMonth (civilOfDays z)) := by
  have hmp := monthIndex_bounds z
  have hz := daysOfMarch_firstOfMarch z
  have hnext := lt_daysOfMarch_nextYear z
  have hday := lt_monthStart_succ (marchOfDays z).day
  by_cases h : monthIndex (marchOfDays z).day < 10
  · rw [civilOfDays_of_lt h]
    by_cases h12 : monthIndex (marchOfDays z).day = 9
    · -- December is followed by January of the next civil year
      simp only [h12, nextMonth] at hday ⊢
      rw [if_pos (by norm_num), daysOfCivil_of_le (by norm_num) (by norm_num)]
      rw [Int.add_sub_cancel, Int.add_sub_cancel, daysOfMarch_day]
      norm_num at hday ⊢
      omega
    · have hne : ¬ monthIndex (marchOfDays z).day + 3 = 12 := by omega
      simp only [nextMonth, if_neg hne]
      rw [daysOfCivil_of_gt (by omega) (by omega), Int.add_sub_cancel,
        show monthIndex (marchOfDays z).day + 3 + 1 - 3 =
          monthIndex (marchOfDays z).day + 1 by omega]
      rw [daysOfMarch_day]
      omega
  · rw [civilOfDays_of_ge (by omega)]
    have hne : ¬ monthIndex (marchOfDays z).day - 9 = 12 := by omega
    simp only [nextMonth, if_neg hne]
    by_cases h11 : monthIndex (marchOfDays z).day = 10
    · -- January is followed by February of the same March year
      rw [h11] at hday
      rw [h11, daysOfCivil_of_le (by norm_num) (by norm_num)]
      rw [Int.add_sub_cancel, Int.add_sub_cancel, daysOfMarch_day]
      norm_num at hday ⊢
      omega
    · -- February is followed by the first day of the next March year
      have h2 : monthIndex (marchOfDays z).day = 11 := by omega
      rw [h2, daysOfCivil_of_gt (by decide) (by decide)]
      have hstart : monthStart (11 - 9 + 1 - 3) + 1 - 1 = 0 := by decide
      rw [hstart]
      exact hnext

end Calendar
end Lib
end VoipBill
