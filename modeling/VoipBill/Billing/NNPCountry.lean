import VoipBill.Model.NNPCountryCodeList

/-!
# The country of a call and the calls before it

`processNNP` writes the country it found for a number into the number range, where
later calls of the range read it.  So the country of a call may be that of an earlier
call of its range.

* `completed`: what completing a range does to its country;
* `completed_completed`: an earlier number of the range does not matter, under the
  condition `CountryFixed`;
* `country_independent_iff`: the condition is exact.
-/

namespace VoipBill

open Lib Lib.Hoare

namespace BillingCall

variable (env : PricingEnv)

/-- The state after `processNNP` for a call. -/
def processedNNP (s : PricingState) (call : Call) : PricingState :=
  (exec (processNNP env) { s with callInfo := { call := call } }).2

/-- The state after a history of calls. -/
def afterCalls (s : PricingState) (history : List Call) : PricingState :=
  history.foldl (processedNNP env) s

/-- The country that `processNNP` sets on a call. -/
def countryOf (s : PricingState) (call : Call) : Int × Int :=
  let processed := (processedNNP env s call).callInfo.call
  (processed.nnpCountryPrefix, processed.nnpCountryCode)

/-- The number range of a number. -/
def rangeOf (ranges : IntMap NNPNumberRange) (number : Int) : Option NNPNumberRange :=
  (env.repository.data.nnpNumberRange number).bind fun row => ranges[row]?

/-- The number has no range; or its range is stored with a country prefix; or all
numbers of the range with a known country have the country prefix of this one. -/
def CountryFixed (list : NNPCountryCodeList) (ranges : IntMap NNPNumberRange) (number : Int) :
    Prop :=
  ∀ range, rangeOf env ranges number = some range → range.countryPrefix ≠ 0 ∨
    ∀ other, env.repository.data.nnpNumberRange other = env.repository.data.nnpNumberRange number →
      (list.getPrefixByNumber other).1 ≠ 0 →
      (list.getPrefixByNumber other).1 = (list.getPrefixByNumber number).1

/-! ## Completing a country -/

/-- Prefix and code of a range after it was completed for a number. -/
def completed (list : NNPCountryCodeList) (number : Int) (country : Int × Int) : Int × Int :=
  let country := if country.1 = 0 then list.getPrefixByNumber number else country
  if country.2 = 0 then (country.1, (list.getCodeByPrefix country.1).2) else country

variable {env} {list : NNPCountryCodeList} {number other : Int} {country : Int × Int}

theorem completeRange_country (range : NNPNumberRange) :
    ((completeRange (env.withCountries list) number range).countryPrefix,
      (completeRange (env.withCountries list) number range).countryCode) =
        completed list number (range.countryPrefix, range.countryCode) := by
  simp only [completeRange, completed, PricingEnv.withCountries]
  split <;> split <;> rfl

/-- A known country keeps its prefix, and the number does not matter. -/
theorem completed_of_ne_zero (h : country.1 ≠ 0) :
    completed list number country =
      if country.2 = 0 then (country.1, (list.getCodeByPrefix country.1).2) else country := by
  simp only [completed, if_neg h]

@[simp] theorem completed_fst : (completed list number country).1 =
    if country.1 = 0 then (list.getPrefixByNumber number).1 else country.1 := by
  simp only [completed]
  split <;> split <;> rfl

theorem completed_fst_ne_zero (h : country.1 ≠ 0) : (completed list number country).1 ≠ 0 := by
  rw [completed_fst, if_neg h]
  exact h

/-- An unknown country is that of the number, if that one is known. -/
theorem completed_of_known (h : country.1 = 0) (hknown : (list.getPrefixByNumber number).1 ≠ 0) :
    completed list number country = list.getPrefixByNumber number := by
  rcases list.getPrefixByNumber_cases number with hzero | ⟨-, hcode⟩
  · rw [hzero] at hknown
    exact absurd rfl hknown
  · simp only [completed, if_pos h, hcode, Prod.mk.eta, ite_self]

theorem completed_of_unknown (h : country.1 = 0) (hunknown : (list.getPrefixByNumber number).1 = 0) :
    (completed list number country).1 = 0 := by
  rw [completed_fst, if_pos h]
  exact hunknown

/-- What is completed for a number depends on a country only if that is known. -/
theorem completed_congr {country' : Int × Int} (h : country.1 = 0) (h' : country'.1 = 0) :
    completed list number country = completed list number country' := by
  simp only [completed, if_pos h, if_pos h']

theorem completed_idem (h : country.1 ≠ 0) :
    completed list number (completed list other country) = completed list number country := by
  rw [completed_of_ne_zero (completed_fst_ne_zero h), completed_of_ne_zero h,
    completed_of_ne_zero h]
  by_cases hcode : country.2 = 0
  · simp [hcode]
  · simp [hcode]

/-- **One earlier call.**  Completing the range for another number of it first makes no
difference. -/
theorem completed_completed (h : country.1 ≠ 0 ∨ ((list.getPrefixByNumber other).1 ≠ 0 →
      (list.getPrefixByNumber other).1 = (list.getPrefixByNumber number).1)) :
    completed list number (completed list other country) = completed list number country := by
  by_cases hcountry : country.1 = 0
  case neg => exact completed_idem hcountry
  case pos =>
    by_cases hother : (list.getPrefixByNumber other).1 = 0
    case pos => exact completed_congr (completed_of_unknown hcountry hother) hcountry
    case neg =>
      -- the country of the other number is that of this one
      have hsame : list.getPrefixByNumber other = list.getPrefixByNumber number := by
        have hfst := (h.resolve_left (by simp [hcountry])) hother
        rcases list.getPrefixByNumber_cases other with hzero | ⟨-, hcode⟩
        · rw [hzero] at hother
          exact absurd rfl hother
        · rcases list.getPrefixByNumber_cases number with hzero | ⟨-, hcode'⟩
          · rw [hzero] at hfst
            exact absurd hfst hother
          · rw [← hcode, ← hcode', hfst]
      rw [completed_of_known hcountry hother, hsame,
        completed_of_known hcountry (by rw [← hsame]; exact hother),
        completed_of_ne_zero (by rw [← hsame]; exact hother)]
      rcases list.getPrefixByNumber_cases number with hzero | ⟨-, hcode⟩
      · rw [← hsame] at hzero
        rw [hzero] at hother
        exact absurd rfl hother
      · rw [hcode]
        split
        · rfl
        · rfl

/-! ## Histories -/

variable {s : PricingState} {call : Call}

/-- What processing a call does to the ranges and to the country of the call. -/
theorem processedNNP_of_range {row : Int} {range : NNPNumberRange}
    (hrow : env.repository.data.nnpNumberRange (getNumber call) = some row)
    (hrange : s.numberRanges[row]? = some range) :
    (processedNNP env s call).numberRanges =
        s.numberRanges.insert row (completeRange env (getNumber call) range) ∧
      countryOf env s call =
        ((completeRange env (getNumber call) range).countryPrefix,
          (completeRange env (getNumber call) range).countryCode) := by
  have hget : exec (getNNPNumberRange env (getNumber call))
      { s with callInfo := { call := call } } =
        (.ok (some range), { s with callInfo := { call := call } }) := by
    show (Except.ok ((env.repository.data.nnpNumberRange (getNumber call)).bind
      fun row => s.numberRanges[row]?), _) = _
    rw [hrow, Option.bind_some, hrange]
  have hcall : exec getCall { s with callInfo := { call := call } } =
      (.ok call, { s with callInfo := { call := call } }) := rfl
  unfold countryOf processedNNP processNNP
  rw [exec_bind_ok hcall, exec_bind_ok hget, hrow]
  exact ⟨rfl, rfl⟩

theorem processedNNP_of_no_range
    (h : rangeOf env s.numberRanges (getNumber call) = none) :
    (processedNNP env s call).numberRanges = s.numberRanges ∧
      countryOf env s call = env.repository.data.nnpCountryPrefix (getNumber call) := by
  have hget : exec (getNNPNumberRange env (getNumber call))
      { s with callInfo := { call := call } } =
        (.ok none, { s with callInfo := { call := call } }) := by
    show (Except.ok (rangeOf env s.numberRanges (getNumber call)), _) = _
    rw [h]
  have hcall : exec getCall { s with callInfo := { call := call } } =
      (.ok call, { s with callInfo := { call := call } }) := rfl
  unfold countryOf processedNNP processNNP
  rw [exec_bind_ok hcall, exec_bind_ok hget]
  cases env.repository.data.nnpNumberRange (getNumber call) with
  | none => exact ⟨rfl, rfl⟩
  | some row => exact ⟨rfl, rfl⟩

/-- The country a number would get now. -/
def countryNow (env : PricingEnv) (list : NNPCountryCodeList) (ranges : IntMap NNPNumberRange)
    (number : Int) : Int × Int :=
  match rangeOf env ranges number with
  | some range => completed list number (range.countryPrefix, range.countryCode)
  | none => list.getPrefixByNumber number

theorem countryOf_eq (env : PricingEnv) (list : NNPCountryCodeList) (s : PricingState)
    (call : Call) :
    countryOf (env.withCountries list) s call =
      countryNow env list s.numberRanges (getNumber call) := by
  unfold countryNow
  cases hrange : rangeOf env s.numberRanges (getNumber call) with
  | none =>
      exact (@processedNNP_of_no_range (env.withCountries list) s call hrange).2
  | some range =>
      obtain ⟨row, hrow, hstored⟩ := Option.bind_eq_some_iff.mp hrange
      rw [(@processedNNP_of_range (env.withCountries list) s call row range hrow hstored).2]
      exact completeRange_country range

/-- A call completes the range of its number. -/
theorem rangeOf_processedNNP_same {range : NNPNumberRange}
    (hrow : env.repository.data.nnpNumberRange (getNumber call) =
      env.repository.data.nnpNumberRange number)
    (hrange : rangeOf env s.numberRanges number = some range) :
    rangeOf env (processedNNP (env.withCountries list) s call).numberRanges number =
      some (completeRange (env.withCountries list) (getNumber call) range) := by
  obtain ⟨row, hnumber, hstored⟩ := Option.bind_eq_some_iff.mp hrange
  have hcall := hrow.trans hnumber
  rw [(@processedNNP_of_range (env.withCountries list) s call row range hcall hstored).1, rangeOf,
    hnumber, Option.bind_some, IntMap.getElem?_insert_self]

/-- It leaves the numbers of other ranges, and those without one, alone. -/
theorem rangeOf_processedNNP_other
    (h : env.repository.data.nnpNumberRange (getNumber call) ≠
        env.repository.data.nnpNumberRange number ∨
      rangeOf env s.numberRanges number = none) :
    rangeOf env (processedNNP (env.withCountries list) s call).numberRanges number =
      rangeOf env s.numberRanges number := by
  cases hrange : rangeOf env s.numberRanges (getNumber call) with
  | none => rw [(@processedNNP_of_no_range (env.withCountries list) s call hrange).1]
  | some range =>
      obtain ⟨row, hrow, hstored⟩ := Option.bind_eq_some_iff.mp hrange
      have hother : env.repository.data.nnpNumberRange number ≠ some row := by
        intro hnumber
        rcases h with hne | hnone
        · exact hne (hrow.trans hnumber.symm)
        · rw [rangeOf, hnumber, Option.bind_some, hstored] at hnone
          exact absurd hnone (by simp)
      rw [(@processedNNP_of_range (env.withCountries list) s call row range hrow hstored).1]
      unfold rangeOf
      cases hnumber : env.repository.data.nnpNumberRange number with
      | none => rfl
      | some row' =>
          have hne : row ≠ row' := by
            rintro rfl
            exact hother hnumber
          rw [Option.bind_some, Option.bind_some, IntMap.getElem?_insert_of_ne _ hne]

/-- The country of a number after a call of the same range. -/
theorem countryNow_processedNNP_same {range : NNPNumberRange}
    (hrow : env.repository.data.nnpNumberRange (getNumber call) =
      env.repository.data.nnpNumberRange number)
    (hrange : rangeOf env s.numberRanges number = some range) :
    countryNow env list (processedNNP (env.withCountries list) s call).numberRanges number =
      completed list number
        (completed list (getNumber call) (range.countryPrefix, range.countryCode)) := by
  simp only [countryNow, rangeOf_processedNNP_same hrow hrange, completeRange_country]

/-- **Step.**  A call before keeps the country of a number, and the condition. -/
theorem countryNow_processedNNP (h : CountryFixed env list s.numberRanges number) (call : Call) :
    countryNow env list (processedNNP (env.withCountries list) s call).numberRanges number =
        countryNow env list s.numberRanges number ∧
      CountryFixed env list (processedNNP (env.withCountries list) s call).numberRanges number := by
  by_cases hother : env.repository.data.nnpNumberRange (getNumber call) ≠
      env.repository.data.nnpNumberRange number ∨ rangeOf env s.numberRanges number = none
  case pos =>
    have heq := @rangeOf_processedNNP_other env list number s call hother
    simp only [countryNow, CountryFixed, heq]
    exact ⟨trivial, h⟩
  case neg =>
    rw [not_or, not_not] at hother
    obtain ⟨hrow, hsome⟩ := hother
    obtain ⟨range, hrange⟩ := Option.ne_none_iff_exists'.mp hsome
    constructor
    · rw [countryNow_processedNNP_same hrow hrange]
      simp only [countryNow, hrange]
      refine completed_completed ?_
      rcases h range hrange with hcountry | hsame
      · exact Or.inl hcountry
      · exact Or.inr (hsame (getNumber call) hrow)
    · intro range' hrange'
      rw [rangeOf_processedNNP_same hrow hrange, Option.some.injEq] at hrange'
      subst hrange'
      rcases h range hrange with hcountry | hsame
      · left
        have hfst : (completeRange (env.withCountries list) (getNumber call) range).countryPrefix =
            (completed list (getNumber call) (range.countryPrefix, range.countryCode)).1 :=
          congrArg Prod.fst (completeRange_country range)
        rw [hfst]
        exact completed_fst_ne_zero hcountry
      · exact Or.inr hsame

/-- A history keeps the country of a number. -/
theorem countryNow_afterCalls (h : CountryFixed env list s.numberRanges number)
    (history : List Call) :
    countryNow env list (afterCalls (env.withCountries list) s history).numberRanges number =
      countryNow env list s.numberRanges number := by
  induction history generalizing s with
  | nil => rfl
  | cons call history ih =>
      obtain ⟨hcountry, hfixed⟩ := countryNow_processedNNP h call
      exact (ih hfixed).trans hcountry

/-- A call of a number. -/
def callOf (number : Int) : Call := { orig := true, srcNumber := number }

/-- **The country of a call is independent of the calls before it** exactly when its
number has no range, or the range is stored with a country prefix, or all numbers of the
range with a known country have the same country prefix as the number. -/
theorem country_independent_iff (env : PricingEnv) (list : NNPCountryCodeList)
    (s : PricingState) (call : Call) :
    (∀ history history' : List Call,
      countryOf (env.withCountries list) (afterCalls (env.withCountries list) s history) call =
        countryOf (env.withCountries list) (afterCalls (env.withCountries list) s history')
          call) ↔
      CountryFixed env list s.numberRanges (getNumber call) := by
  constructor
  · intro h range hrange
    by_cases hcountry : range.countryPrefix = 0
    case neg => exact Or.inl hcountry
    case pos =>
      -- compare a history of one call of the other number with the empty one
      right
      intro other hrow hknown
      have hboth := congrArg Prod.fst (h [callOf other] [])
      rw [countryOf_eq, countryOf_eq, show afterCalls (env.withCountries list) s [callOf other] =
        processedNNP (env.withCountries list) s (callOf other) from rfl,
        @countryNow_processedNNP_same env list (getNumber call) s (callOf other) range hrow hrange,
        show afterCalls (env.withCountries list) s [] = s from rfl, countryNow, hrange] at hboth
      have hother : getNumber (callOf other) = other := rfl
      simpa [hother, hcountry, hknown] using hboth
  · intro h history history'
    rw [countryOf_eq, countryOf_eq, countryNow_afterCalls h, countryNow_afterCalls h]

/-- Prefix 7 of one country and 77 of another. -/
def twoCountries : NNPCountryCodeList where
  prefixList := [(7, 643), (77, 398)]
  sorted := by decide

/-- One range without a country for the numbers of both. -/
def sharedRange : PricingEnv where
  repository := Repository.prepare
    { nnpNumberRange := fun num =>
        if 70000000000 ≤ num ∧ num ≤ 79999999999 then some 1 else none } 0 0
  cdr := {}

/-- The range is loaded and nothing is processed yet. -/
def loadedRange : PricingState where
  callInfo := {}
  billingData := DataBillingContainer.empty
  currentNNPPackageMinute := UsageManager.empty
  numberRanges := (∅ : IntMap NNPNumberRange).insert 1 { id := 1 }

/-- A call of the first country makes that of the second one a call of the first. -/
theorem earlier_call_decides_country :
    countryOf (sharedRange.withCountries twoCountries)
        (afterCalls (sharedRange.withCountries twoCountries) loadedRange [])
        (callOf 77011234567) = (77, 398) ∧
      countryOf (sharedRange.withCountries twoCountries)
        (afterCalls (sharedRange.withCountries twoCountries) loadedRange [callOf 79261234567])
        (callOf 77011234567) = (7, 643) := by
  constructor
  · decide +kernel
  · decide +kernel

end BillingCall
end VoipBill
