import VoipBill.Lib.Months
import VoipBill.Lib.Scan
import VoipBill.Model.LoadedLists

/-!
# Times as text

`string_time` writes a time with `strftime`, `parseDateTime` reads it with `sscanf`.

* `parseDateTime_strftime`: what `strftime` writes for the fields of a time is read back;
* `parseDateTime_stringTimeText`: the time that the text of `string_time` stands for, for
  every time;
* `parseDateTime_stringTimeText_iff`: up to the year 5000 the time comes back exactly when it
  is before 4901.
-/

namespace VoipBill

open Lib.Calendar Lib.Scan

/-! ## Formatting and parsing -/

/-- A field of two digits: `%m`, `%d`, `%H`, `%M` and `%S`. -/
def twoDigits (n : Int) : List Char := if n < 10 then '0' :: decimal n else decimal n

/-- The format `%Y-%m-%d %H:%M:%S`. -/
def strftime (timeinfo : Tm) : List Char :=
  decimal (timeinfo.tmYear + 1900) ++ '-' :: (twoDigits (timeinfo.tmMon + 1) ++
    '-' :: (twoDigits timeinfo.tmMday ++ ' ' :: (twoDigits timeinfo.tmHour ++
      ':' :: (twoDigits timeinfo.tmMin ++ ':' :: twoDigits timeinfo.tmSec))))

/-- The text of `string_time`. -/
def stringTimeText (dt : Int) : List Char :=
  if 95649120000 < dt then "5000-01-01 00:00:00".toList
  else
    let timeinfo := gmtimeR dt
    let timeinfo :=
      if timeinfo.tmYear < 0 ∨ 3000 < timeinfo.tmYear then
        { tmYear := 0, tmMon := 0, tmMday := 1, tmHour := 0, tmMin := 0, tmSec := 0 }
      else timeinfo
    strftime timeinfo

/-- The format `%d-%d-%d %d:%d:%d`. -/
def dateTimeFormat : List Directive :=
  [.int, .literal '-', .int, .literal '-', .int, .space, .int, .literal ':', .int, .literal ':',
    .int]

/-- `parseDateTime`; a field that is not read keeps what `ttt` happens to hold, and `timegm`
carries months over to years. -/
def parseDateTime (ttt : Tm) (str : List Char) : Int :=
  let read := sscanf dateTimeFormat str
  if 0 < read.length then
    let ttt : Tm :=
      { tmYear := read.getD 0 ttt.tmYear - 1900
        tmMon := read.getD 1 ttt.tmMon - 1
        tmMday := read.getD 2 ttt.tmMday
        tmHour := read.getD 3 ttt.tmHour
        tmMin := read.getD 4 ttt.tmMin
        tmSec := read.getD 5 ttt.tmSec }
    timegm { ttt with tmYear := ttt.tmYear + ttt.tmMon / 12, tmMon := ttt.tmMon % 12 }
  else 0

/-! ## Numerals -/

theorem numeral_decimal {n : Nat} : Numeral (decimal n) n := by
  have hneg : ¬ (n : Int) < 0 := by omega
  rw [decimal, if_neg hneg]
  exact numeral_toDigits n

theorem numeral_twoDigits {n : Nat} : Numeral (twoDigits n) n := by
  rw [twoDigits]
  split
  · exact numeral_decimal.zero_cons
  · exact numeral_decimal

/-- A numeral does not begin with white space. -/
theorem not_isSpace_of_numeral {text rest : List Char} {n : Nat} (h : Numeral text n) :
    ∀ c ∈ (text ++ rest).head?, isSpace c = false := by
  intro c hc
  rw [List.head?_append_of_ne_nil _ h.ne_nil] at hc
  exact isSpace_of_isDigit (h.isDigit c (List.mem_of_mem_head? hc))

/-! ## The round trip -/

/-- Fields as `gmtime_r` fills them. -/
structure Tm.Filled (tm : Tm) : Prop where
  tmSec : 0 ≤ tm.tmSec ∧ tm.tmSec < 60
  tmMin : 0 ≤ tm.tmMin ∧ tm.tmMin < 60
  tmHour : 0 ≤ tm.tmHour ∧ tm.tmHour < 24
  tmMday : 1 ≤ tm.tmMday ∧ tm.tmMday ≤ 31
  tmMon : 0 ≤ tm.tmMon ∧ tm.tmMon < 12

theorem filled_gmtimeR (t : Int) : (gmtimeR t).Filled := by
  have hmonth := civilOfDays_month_bounds (t / 86400)
  have hday := civilOfDays_day_pos (t / 86400)
  have hlast : (civilOfDays (t / 86400)).day ≤ 31 := by
    have hbounds := marchOfDays_day_bounds (t / 86400)
    simp only [civilOfDays, monthStart, monthIndex]
    omega
  refine ⟨?_, ?_, ?_, ⟨hday, hlast⟩, ?_⟩ <;> simp only [gmtimeR] <;> omega

/-- The fields of a time from the year 0 on are read back. -/
theorem sscanf_strftime {tm : Tm} (h : tm.Filled)
    (hyear : 0 ≤ tm.tmYear + 1900 ∧ tm.tmYear + 1900 < 2 ^ 31) :
    sscanf dateTimeFormat (strftime tm) =
      [tm.tmYear + 1900, tm.tmMon + 1, tm.tmMday, tm.tmHour, tm.tmMin, tm.tmSec] := by
  obtain ⟨hsec, hmin, hhour, hmday, hmon⟩ := h
  obtain ⟨year, hY⟩ := Int.eq_ofNat_of_zero_le hyear.1
  obtain ⟨month, hM⟩ := Int.eq_ofNat_of_zero_le (show 0 ≤ tm.tmMon + 1 by omega)
  obtain ⟨mday, hD⟩ := Int.eq_ofNat_of_zero_le (show 0 ≤ tm.tmMday by omega)
  obtain ⟨hour, hH⟩ := Int.eq_ofNat_of_zero_le hhour.1
  obtain ⟨minute, hm⟩ := Int.eq_ofNat_of_zero_le hmin.1
  obtain ⟨second, hS⟩ := Int.eq_ofNat_of_zero_le hsec.1
  unfold strftime dateTimeFormat
  rw [hY, hM, hD, hH, hm, hS]
  have hdash := fun text => @stopsDigits_cons '-' rfl text
  have hcolon := fun text => @stopsDigits_cons ':' rfl text
  have hblank := fun text => @stopsDigits_cons ' ' rfl text
  rw [sscanf_int numeral_decimal (by omega) (hdash _), sscanf_literal,
    sscanf_int numeral_twoDigits (by omega) (hdash _), sscanf_literal,
    sscanf_int numeral_twoDigits (by omega) (hblank _),
    sscanf_space (not_isSpace_of_numeral numeral_twoDigits),
    sscanf_int numeral_twoDigits (by omega) (hcolon _), sscanf_literal,
    sscanf_int numeral_twoDigits (by omega) (hcolon _), sscanf_literal,
    ← List.append_nil (twoDigits (second : Int)),
    sscanf_int numeral_twoDigits (by omega) stopsDigits_nil]
  rfl

/-- **Round trip** of the fields of a time. -/
theorem parseDateTime_strftime (ttt : Tm) {tm : Tm} (h : tm.Filled)
    (hyear : 0 ≤ tm.tmYear + 1900 ∧ tm.tmYear + 1900 < 2 ^ 31) :
    parseDateTime ttt (strftime tm) = timegm tm := by
  have hmon := h.tmMon
  have hcarry : tm.tmMon / 12 = 0 := by omega
  have hmonth : tm.tmMon % 12 = tm.tmMon := by omega
  unfold parseDateTime
  rw [sscanf_strftime h hyear]
  simp only [List.getD_cons_zero, List.getD_cons_succ, Int.add_sub_cancel]
  rw [if_pos (by simp), hcarry, hmonth, add_zero]

/-- **The text of a time** is read as the time that it stands for. -/
theorem parseDateTime_stringTimeText (ttt : Tm) (t : Int) :
    parseDateTime ttt (stringTimeText t) = stringTime t := by
  unfold stringTimeText stringTime
  by_cases hfar : 95649120000 < t
  · rw [if_pos hfar, if_pos hfar]
    have htext : "5000-01-01 00:00:00".toList =
        strftime { tmYear := 3100, tmMon := 0, tmMday := 1, tmHour := 0, tmMin := 0, tmSec := 0 } := by
      decide
    rw [htext, parseDateTime_strftime ttt (by constructor <;> decide) (by decide)]
    decide
  · rw [if_neg hfar, if_neg hfar]
    by_cases hclamped : (gmtimeR t).tmYear < 0 ∨ 3000 < (gmtimeR t).tmYear
    · simp only [if_pos hclamped]
      rw [parseDateTime_strftime ttt (by constructor <;> decide) (by decide)]
      decide
    · simp only [if_neg hclamped]
      rw [parseDateTime_strftime ttt (filled_gmtimeR t) (by omega), timegm_gmtimeR]

/-- **Formatting and parsing** are inverse for the times from 1900 on that are before 4901,
and for no other time up to the bound that `string_time` checks. -/
theorem parseDateTime_stringTimeText_iff (ttt : Tm) (t : Int) (hfrom : -2208988800 ≤ t)
    (hto : t ≤ 95649120000) :
    parseDateTime ttt (stringTimeText t) = t ↔ t < 92493446400 := by
  have hfirst : monthFirst (12 * 1900) = -25567 := by decide
  have hlast : monthFirst (12 * 4901) = 1070526 := by decide
  have hlow := @year_lt_iff (t / 86400) 1900
  have hhigh := @year_lt_iff (t / 86400) 4901
  rw [hfirst] at hlow
  rw [hlast] at hhigh
  have hyear : (gmtimeR t).tmYear = (civilOfDays (t / 86400)).year - 1900 := rfl
  rw [parseDateTime_stringTimeText, stringTime, if_neg (by omega), hyear]
  split
  case isTrue hclamped =>
    constructor
    · intro h
      omega
    · intro h
      omega
  case isFalse hkept =>
    exact iff_of_true rfl (by omega)

/-- 2017-07-14 02:40:00 comes back, whatever was in the fields before. -/
theorem roundTrip_july2017 :
    parseDateTime (gmtimeR 0) (stringTimeText 1500000000) = 1500000000 :=
  (parseDateTime_stringTimeText_iff (gmtimeR 0) 1500000000 (by decide) (by decide)).mpr (by decide)

/-- The first second of 4901 is written, and so read, as that of 1900. -/
theorem not_roundTrip_year4901 :
    (92493446400 : Int) ≤ 95649120000 ∧
      stringTimeText 92493446400 = "1900-01-01 00:00:00".toList ∧
      ∀ ttt, parseDateTime ttt (stringTimeText 92493446400) ≠ 92493446400 := by
  refine ⟨by decide, by decide, fun ttt => ?_⟩
  rw [parseDateTime_stringTimeText]
  decide

end VoipBill
