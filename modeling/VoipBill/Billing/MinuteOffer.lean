import VoipBill.Billing.Clock
import VoipBill.Billing.LegFrame
import VoipBill.Billing.MissingObjects
import VoipBill.Billing.NNPMinutes
import VoipBill.Billing.VatFlag

/-!
# The package minute a leg is offered

Which package minute a version 5 leg takes seconds from can be read off the
tables and the counters before it is priced: `offeredMinute` is the candidate that
`setupNNPPackageMinute` finds, and `legTakesMinute` says whether the leg takes
seconds from it.

`minuteResult_tariffication`: a leg that takes seconds leaves the row they are
taken from in the counters and its id in the call; any other leg leaves the
counters of package minutes as they are.
-/

namespace VoipBill

open Lib Lib.Hoare
open StatsNNPPackageMinuteManager (SameReadings)

/-! ## Readings at one time -/

namespace StatsNNPPackageMinuteManager.SameReadings

variable {t : Int} {m m' m'' : StatsNNPPackageMinuteManager}

theorem refl (h : Indexed kind.id kind.key m) : SameReadings t t Set.univ m m := ⟨h, h, fun _ _ _ => rfl⟩

theorem trans (h : SameReadings t t Set.univ m m') (h' : SameReadings t t Set.univ m' m'') :
    SameReadings t t Set.univ m m'' :=
  ⟨h.index₁, h'.index₂, fun lightId hlight y =>
    (h.used lightId hlight y).trans (h'.used lightId hlight y)⟩

/-- A lookup at the time changes nothing that is read then. -/
theorem lookup (h : Indexed kind.id kind.key m) (nnpPackageMinute : NNPPackageMinute)
    (light : NNPAccountTariffLight) :
    SameReadings t t Set.univ m
      (StatsNNPPackageMinuteManager.getCurrent m t nnpPackageMinute light).2 where
  index₁ := h
  index₂ := indexed_getCurrent h t nnpPackageMinute light
  used := fun lightId _ y => (getUsedSeconds_getCurrent h t nnpPackageMinute light lightId y).symm

end StatsNNPPackageMinuteManager.SameReadings

namespace BillingCall

/-! ## The candidates -/

section Candidates

variable (env : PricingEnv) (stored current : StatsNNPPackageMinuteManager)

/-- The seconds left of a package minute, by the counters. -/
def candidateOf (nnpPackageMinute : NNPPackageMinute) (light : NNPAccountTariffLight) :
    MinuteCandidate where
  minuteCost :=
    if 0 < nnpPackageMinute.minute then |light.price / nnpPackageMinute.minute| else 10000000
  secondsLeft := truncate (nnpPackageMinute.minute * 60 -
    StatsNNPPackageMinuteManager.getUsedSeconds stored light.id nnpPackageMinute.id
      env.cdr.connectTime -
    globalUsedSeconds env light.id nnpPackageMinute.id -
    StatsNNPPackageMinuteManager.getUsedSeconds current light.id nnpPackageMinute.id env.now)
  nnpPackageMinute := nnpPackageMinute

/-- The candidate a package minute gives, if it is for one of the destinations and
has seconds left. -/
def openCandidate (lights : List NNPAccountTariffLight) (nnpDestinationIds : List Int)
    (nnpPackageMinute : NNPPackageMinute) : Option MinuteCandidate :=
  if nnpDestinationIds.contains nnpPackageMinute.nnpDestinationId then
    ((lightOfTariff lights nnpPackageMinute.nnpTariffId).map
      (candidateOf env stored current nnpPackageMinute)).filter
      fun candidate => decide (0 < candidate.secondsLeft)
  else
    none

def candidatesOf (lights : List NNPAccountTariffLight) (nnpDestinationIds : List Int)
    (minutes : List NNPPackageMinute) : List MinuteCandidate :=
  minutes.filterMap (openCandidate env stored current lights nnpDestinationIds)

/-- The package minute a leg is offered. -/
def offeredMinute (lights : List NNPAccountTariffLight) (nnpDestinationIds : List Int) :
    Option MinuteCandidate :=
  setBegin (fun left right =>
    pairLess (left.minuteCost, left.secondsLeft) (right.minuteCost, right.secondsLeft))
    (candidatesOf env stored current lights nnpDestinationIds (packageMinutesOf env lights))

variable {env stored current} {lights : List NNPAccountTariffLight} {nnpDestinationIds : List Int}

/-- What is offered is a package minute of a connected tariff with seconds left. -/
theorem of_offeredMinute {candidate : MinuteCandidate}
    (h : offeredMinute env stored current lights nnpDestinationIds = some candidate) :
    candidate.nnpPackageMinute ∈ packageMinutesOf env lights ∧ 0 < candidate.secondsLeft := by
  obtain ⟨minute, hmem, hopen⟩ := List.mem_filterMap.mp (mem_of_setBegin h)
  unfold openCandidate at hopen
  split at hopen
  case isFalse => exact absurd hopen (by simp)
  case isTrue =>
    obtain ⟨hsome, hleft⟩ := Option.filter_eq_some_iff.mp hopen
    obtain ⟨light, -, rfl⟩ := Option.map_eq_some_iff.mp hsome
    exact ⟨hmem, by simpa using hleft⟩

/-- Counters that read the same give the same candidates. -/
theorem candidatesOf_congr {current' : StatsNNPPackageMinuteManager}
    (h : SameReadings env.now env.now Set.univ current current') (minutes : List NNPPackageMinute) :
    candidatesOf env stored current' lights nnpDestinationIds minutes =
      candidatesOf env stored current lights nnpDestinationIds minutes := by
  have hused : ∀ lightId y, StatsNNPPackageMinuteManager.getUsedSeconds current lightId y env.now =
      StatsNNPPackageMinuteManager.getUsedSeconds current' lightId y env.now :=
    fun lightId y => h.used lightId trivial y
  unfold candidatesOf openCandidate candidateOf
  simp only [hused]

/-- One package minute: its candidate is computed, and the counters of the current
calls read what they did. -/
theorem exec_minuteCandidate (s : PricingState) (minute : NNPPackageMinute)
    (light : NNPAccountTariffLight) :
    exec (minuteCandidate env minute light) s =
      (.ok (candidateOf env s.billingData.statsNNPPackageMinute s.currentNNPPackageMinute minute
        light), s.withCurrent (StatsNNPPackageMinuteManager.getCurrent s.currentNNPPackageMinute
          env.now minute light).2) := by
  simp only [minuteCandidate, exec_bind, exec_get, exec_modify, exec_pure, candidateOf,
    StatsNNPPackageMinuteManager.getUsedSeconds_eq s.currentNNPPackageMinute light minute
      minute.id env.now]
  rfl

/-- The loop over the package minutes computes the candidates, and changes nothing
that the counters of the current calls read. -/
theorem exec_minuteCandidates {minutes : List NNPPackageMinute}
    (hlights : ∀ minute ∈ minutes, (lightOfTariff lights minute.nnpTariffId).isSome = true)
    {s : PricingState}
    (hindex : Indexed StatsNNPPackageMinuteManager.kind.id StatsNNPPackageMinuteManager.kind.key
      s.currentNNPPackageMinute) :
    ∃ m, exec (minuteCandidates env lights nnpDestinationIds minutes) s =
        (.ok (candidatesOf env s.billingData.statsNNPPackageMinute s.currentNNPPackageMinute
          lights nnpDestinationIds minutes), s.withCurrent m) ∧
      SameReadings env.now env.now Set.univ s.currentNNPPackageMinute m := by
  induction minutes generalizing s with
  | nil => exact ⟨s.currentNNPPackageMinute, rfl, SameReadings.refl hindex⟩
  | cons minute minutes ih =>
      have hrest := fun minute' h => hlights minute' (List.mem_cons_of_mem minute h)
      rw [minuteCandidates, candidatesOf, List.filterMap_cons, openCandidate]
      by_cases hdest : nnpDestinationIds.contains minute.nnpDestinationId = true
      · obtain ⟨light, hlight⟩ := Option.isSome_iff_exists.mp
          (hlights minute List.mem_cons_self)
        have hlook := @SameReadings.lookup env.now _ hindex minute light
        obtain ⟨m, hexec, hm⟩ := @ih hrest (s.withCurrent (StatsNNPPackageMinuteManager.getCurrent
          s.currentNNPPackageMinute env.now minute light).2) hlook.index₂
        refine ⟨m, ?_, hlook.trans hm⟩
        rw [if_pos hdest, if_pos hdest, hlight, exec_bind_ok (exec_deref_some light s),
          exec_bind_ok (exec_minuteCandidate s minute light), exec_bind_ok hexec,
          Option.map_some, Option.filter_some]
        -- the candidates of the rest are those by the counters before the lookup
        have hcandidates := @candidatesOf_congr env s.billingData.statsNNPPackageMinute
          s.currentNNPPackageMinute lights nnpDestinationIds _ hlook minutes
        simp only [decide_eq_true_eq]
        split
        case isTrue =>
          exact congrArg (fun candidates => ((.ok (candidateOf env _ _ minute light :: candidates) :
            Except CalcStop _), s.withCurrent m)) hcandidates
        case isFalse =>
          exact congrArg (fun candidates => ((.ok candidates : Except CalcStop _), s.withCurrent m))
            hcandidates
      · rw [if_neg hdest, if_neg hdest]
        exact ih hrest hindex

/-- The package minute that is found is the one on offer. -/
theorem exec_setupNNPPackageMinute {s : PricingState}
    (hindex : Indexed StatsNNPPackageMinuteManager.kind.id StatsNNPPackageMinuteManager.kind.key
      s.currentNNPPackageMinute) :
    ∃ m, exec (setupNNPPackageMinute env lights nnpDestinationIds) s =
        (.ok (offeredMinute env s.billingData.statsNNPPackageMinute s.currentNNPPackageMinute
          lights nnpDestinationIds), s.withCurrent m) ∧
      SameReadings env.now env.now Set.univ s.currentNNPPackageMinute m := by
  have hlights : ∀ minute ∈ packageMinutesOf env lights,
      (lightOfTariff lights minute.nnpTariffId).isSome = true :=
    fun minute hmem => (of_mem_packageMinutesOf hmem).1
  obtain ⟨m, hexec, hm⟩ := exec_minuteCandidates hlights hindex
  refine ⟨m, ?_, hm⟩
  unfold setupNNPPackageMinute
  rw [exec_bind_ok hexec]
  rfl

end Candidates

/-! ## Taking seconds -/

section Take

variable (env : PricingEnv)

/-- The leg takes seconds from the package minute it is offered: the package of the
tariff is there, and the leg is billed for some time. -/
def takesFrom (candidate : MinuteCandidate) : Bool :=
  candidate.nnpPackageMinute.id != 0 &&
    (env.repository.data.nnpPackage candidate.nnpPackageMinute.nnpTariffId).any fun nnpPackage =>
      decide (0 < getCallLengthNNP env.cdr.sessionTime nnpPackage)

/-- A call took seconds from a row that was looked up in `m`. -/
def TookMinute (m m' : StatsNNPPackageMinuteManager) (call : Call) : Prop :=
  ∃ t minute light, m' = (StatsNNPPackageMinuteManager.getCurrent m t minute light).2 ∧
    call.statsNnpPackageMinuteId = (StatsNNPPackageMinuteManager.getCurrent m t minute light).1.id ∧
    0 < call.packageTime

/-- What a leg leaves of the counters of package minutes. -/
def MinuteResult (taken : Bool) (s₀ s : PricingState) : Prop :=
  SameReadings env.now env.now Set.univ s₀.currentNNPPackageMinute s.currentNNPPackageMinute ∧
    if taken then
      TookMinute s₀.billingData.statsNNPPackageMinute s.billingData.statsNNPPackageMinute
        s.callInfo.call
    else
      s.billingData.statsNNPPackageMinute = s₀.billingData.statsNNPPackageMinute ∧
        s.callInfo.call.statsNnpPackageMinuteId = s₀.callInfo.call.statsNnpPackageMinuteId

variable {env} {lights : List NNPAccountTariffLight}

/-- The row of an offered package minute, and the connected tariff it is charged to. -/
theorem row_of_offered {minute : NNPPackageMinute} (h : minute ∈ packageMinutesOf env lights) :
    ∃ row light, env.repository.data.nnpPackageMinute.find minute.id = some row ∧
      (lights.find? fun light => light.nnpTariffId == row.nnpTariffId) = some light := by
  obtain ⟨light, hlight, hmem⟩ := List.mem_flatMap.mp h
  obtain ⟨row, hrow, htariff, rfl⟩ := NNPPackageMinuteList.mem_findAllByTariffID hmem
  have hfound : (lights.find? fun light => light.nnpTariffId == row.nnpTariffId).isSome = true := by
    rw [List.find?_isSome]
    exact ⟨light, hlight, by simp [htariff]⟩
  obtain ⟨light', hlight'⟩ := Option.isSome_iff_exists.mp hfound
  exact ⟨row, light', NNPPackageMinuteList.find_eq_some hrow, hlight'⟩

theorem applyMinute_takes {candidate : MinuteCandidate} (htakes : takesFrom env candidate = true)
    (hmem : candidate.nnpPackageMinute ∈ packageMinutesOf env lights)
    (hleft : 0 < candidate.secondsLeft) (s : PricingState) :
    ∃ s', exec (applyMinute env lights (some candidate)) s = (.ok (), s') ∧
      s'.currentNNPPackageMinute = s.currentNNPPackageMinute ∧
      TookMinute s.billingData.statsNNPPackageMinute s'.billingData.statsNNPPackageMinute
        s'.callInfo.call := by
  obtain ⟨hid, hany⟩ := Bool.and_eq_true_iff.mp htakes
  obtain ⟨nnpPackage, hpackage, hlength⟩ := (Option.any_eq_true _ _).mp hany
  obtain ⟨row, light, hrow, hlight⟩ := row_of_offered hmem
  have hpos : 0 < min (max candidate.secondsLeft 0)
      (getCallLengthNNP env.cdr.sessionTime nnpPackage) := by
    have hlength' : 0 < getCallLengthNNP env.cdr.sessionTime nnpPackage := by simpa using hlength
    omega
  have hoffer : (some candidate).filter (fun candidate => candidate.nnpPackageMinute.id != 0) =
      some candidate := Option.filter_some_pos hid
  simp only [applyMinute, hoffer, applyNNPPackageMinute, chargeNNPPackageMinute, hpackage,
    exec_bind, exec_orThrow_some, setupBilledTimeNNP, exec_modifyCall, exec_getCall, hpos, onlyIf,
    decide_true, if_true, hrow, exec_deref_some, hlight, whenSome, exec_get, exec_modify]
  exact ⟨_, rfl, rfl, _, _, _, rfl, rfl, hpos⟩

theorem applyMinute_takesNot {offer : Option MinuteCandidate}
    (h : offer.any (takesFrom env) = false) (s : PricingState) :
    (exec (applyMinute env lights offer) s).2.minutes = s.minutes := by
  unfold applyMinute
  split
  case h_1 candidate hoffer =>
    obtain ⟨rfl, hid⟩ := Option.filter_eq_some_iff.mp hoffer
    have hpackage : (env.repository.data.nnpPackage candidate.nnpPackageMinute.nnpTariffId).any
        (fun nnpPackage => decide (0 < getCallLengthNNP env.cdr.sessionTime nnpPackage)) =
          false := by
      simpa [takesFrom, hid] using h
    unfold applyNNPPackageMinute
    cases hfound : env.repository.data.nnpPackage candidate.nnpPackageMinute.nnpTariffId with
    | none => rfl
    | some nnpPackage =>
        rw [hfound] at hpackage
        have hlength : ¬0 < getCallLengthNNP env.cdr.sessionTime nnpPackage := by
          simpa using hpackage
        have hnone : ¬0 < min (max candidate.secondsLeft 0)
            (getCallLengthNNP env.cdr.sessionTime nnpPackage) := by omega
        simp only [exec_bind, exec_orThrow_some, setupBilledTimeNNP, exec_modifyCall,
          exec_getCall, hnone, onlyIf, decide_false, Bool.false_eq_true, if_false, exec_pure]
        rfl
  case h_2 =>
    have hkept : Keeps PricingState.minutes (applyNNPPackage env) := by
      unfold applyNNPPackage
      refine keeps_bind keeps_getCall fun _ => keeps_bind (keeps_orThrow _ _) fun _ => ?_
      exact keeps_modifyCall fun _ => rfl
    exact hkept s

/-- What is left of the counters when the cost of the leg is set. -/
theorem applyMinute_result {offer : Option MinuteCandidate}
    (hoffer : ∀ candidate, offer = some candidate →
      candidate.nnpPackageMinute ∈ packageMinutesOf env lights ∧ 0 < candidate.secondsLeft)
    {s s' : PricingState}
    (hs' : (exec (applyMinute env lights offer >>= fun _ => setupNNPCost) s).2 = s') :
    s'.currentNNPPackageMinute = s.currentNNPPackageMinute ∧
      if offer.any (takesFrom env) then
        TookMinute s.billingData.statsNNPPackageMinute s'.billingData.statsNNPPackageMinute
          s'.callInfo.call
      else
        s'.billingData.statsNNPPackageMinute = s.billingData.statsNNPPackageMinute ∧
          s'.callInfo.call.statsNnpPackageMinuteId = s.callInfo.call.statsNnpPackageMinuteId := by
  cases htakes : offer.any (takesFrom env) with
  | true =>
      obtain ⟨candidate, rfl, htakes⟩ := (Option.any_eq_true _ _).mp htakes
      obtain ⟨hmem, hleft⟩ := hoffer candidate rfl
      obtain ⟨s₁, hexec, hcurrent, htook⟩ := @applyMinute_takes env lights candidate htakes hmem
        hleft s
      rw [exec_bind_ok hexec] at hs'
      subst hs'
      exact ⟨hcurrent, htook⟩
  | false =>
      have hkept : s'.minutes = s.minutes := by
        rw [← hs', exec_bind]
        have happly := @applyMinute_takesNot env lights offer htakes s
        generalize exec (applyMinute env lights offer) s = result at happly
        match result with
        | (.ok _, s₁) => exact ((keeps_minutes keeps_setupNNPCost) s₁).trans happly
        | (.error _, s₁) => exact happly
      simp only [PricingState.minutes, Prod.mk.injEq] at hkept
      exact ⟨hkept.2.1, hkept.1, hkept.2.2⟩

/-- A version 5 leg of a number service takes seconds from a package minute. -/
def numberTakesMinute (env : PricingEnv) (stored current : StatsNNPPackageMinuteManager)
    (accountId connectTime serviceNumberId : Int) (nnpDestinationIds : List Int) : Bool :=
  (offeredMinute env stored current
    (env.repository.data.nnpAccountTariffLight.findAllActiveByClientID accountId connectTime
      serviceNumberId) nnpDestinationIds).any (takesFrom env)

theorem minuteResult_calcOrigNNPByNumber {s : PricingState} {serviceNumber : ServiceNumber}
    (hservice : s.callInfo.serviceNumber = some serviceNumber)
    (hindex : Indexed StatsNNPPackageMinuteManager.kind.id StatsNNPPackageMinuteManager.kind.key
      s.currentNNPPackageMinute) :
    MinuteResult env
      (numberTakesMinute env s.billingData.statsNNPPackageMinute s.currentNNPPackageMinute
        s.callInfo.call.accountId s.callInfo.call.connectTime serviceNumber.id
        (destinationsOf env s.numberRanges s.callInfo.call.dstNumber))
      s (exec (calcOrigNNPByNumber env) s).2 := by
  have hrange : exec (getNNPNumberRange env s.callInfo.call.dstNumber) s =
      (.ok ((env.repository.data.nnpNumberRange s.callInfo.call.dstNumber).bind
        fun row => s.numberRanges[row]?), s) := rfl
  unfold calcOrigNNPByNumber numberTakesMinute destinationsOf
  rw [exec_bind_ok (exec_getCallInfo s), hservice,
    exec_bind_ok (exec_orThrow_some _ serviceNumber s)]
  dsimp only
  generalize env.repository.data.nnpAccountTariffLight.findAllActiveByClientID
    s.callInfo.call.accountId s.callInfo.call.connectTime serviceNumber.id = lights
  by_cases hnone : lights = []
  · rw [if_pos hnone, hnone]
    exact ⟨SameReadings.refl hindex, rfl, rfl⟩
  rw [if_neg hnone, exec_bind_ok hrange]
  generalize env.repository.getNNPDestinationByNumberRange _ = nnpDestinationIds
  obtain ⟨m, hfound, hread⟩ := @exec_setupNNPPackageMinute env lights nnpDestinationIds s hindex
  -- the rate comes before the seconds are taken, and leaves the counters alone
  have hrated := ((keeps_unrated_withNNPRate (setupNNPPackagePrice env lights nnpDestinationIds)
    (setupNNPPackagePricelist env lights s.callInfo.call.dstNumber)).part PricingState.minutes
    fun _ => rfl) (s.withCurrent m)
  simp only [exec_modifyCall, PricingState.minutes, Prod.mk.injEq] at hrated
  obtain ⟨hcurrent, hresult⟩ := @applyMinute_result env lights
    (offeredMinute env s.billingData.statsNNPPackageMinute s.currentNNPPackageMinute lights
      nnpDestinationIds) (fun candidate hoffer => of_offeredMinute hoffer) _ _ rfl
  rw [exec_bind_ok hfound, exec_bind_ok (exec_modifyCall _ _), exec_bind_ok (exec_modifyCall _ _)]
  refine ⟨?_, ?_⟩
  · rw [hcurrent]
    exact hread
  · split
    case isTrue htakes =>
      rw [if_pos htakes] at hresult
      exact hresult
    case isFalse htakes =>
      rw [if_neg htakes] at hresult
      exact ⟨hresult.1, hresult.2.trans hrated.2.2⟩

end Take

/-! ## The whole leg -/

section Leg

variable {env : PricingEnv} {s₀ s : PricingState}

/-- A leg that keeps the counters of package minutes takes nothing from them. -/
theorem minuteResult_of_minutes
    (hindex : Indexed StatsNNPPackageMinuteManager.kind.id StatsNNPPackageMinuteManager.kind.key
      s₀.currentNNPPackageMinute) (h : s.minutes = s₀.minutes) : MinuteResult env false s₀ s := by
  simp only [PricingState.minutes, Prod.mk.injEq] at h
  refine ⟨?_, h.1, h.2.2⟩
  rw [h.2.1]
  exact SameReadings.refl hindex

/-- The leg takes seconds from a package minute, read off what is there before it
is priced. -/
def legTakesMinute (env : PricingEnv) (s₀ : PricingState) : Bool :=
  match legPath env s₀ with
  | .byNumber trunk server serviceNumber account =>
      account.accountVersion == 5 && isChargedHere env server s₀.callInfo.call.orig &&
        numberTakesMinute env s₀.billingData.statsNNPPackageMinute s₀.currentNNPPackageMinute
          account.id s₀.callInfo.call.connectTime serviceNumber.id
          (destinationsOf env s₀.numberRanges
            (legNumbers env trunk s₀.callInfo.call.orig s₀.numbers).2)
  | _ => false

/-- What a leg leaves is compared with the counters it starts from. -/
theorem MinuteResult.congr {taken : Bool} {s₁ : PricingState} (h : MinuteResult env taken s s₁)
    (hminutes : s.minutes = s₀.minutes) : MinuteResult env taken s₀ s₁ := by
  simp only [PricingState.minutes, Prod.mk.injEq] at hminutes
  unfold MinuteResult at h ⊢
  rw [← hminutes.1, ← hminutes.2.1, ← hminutes.2.2]
  exact h

variable {trunk : Trunk} {server : Server} {serviceNumber : ServiceNumber} {account : Client}

/-- A leg by number. -/
theorem minuteResult_chargeByNumber (h : OfNumber env s₀ trunk server serviceNumber account s)
    (hindex : Indexed StatsNNPPackageMinuteManager.kind.id StatsNNPPackageMinuteManager.kind.key
      s₀.currentNNPPackageMinute) :
    MinuteResult env
      (account.accountVersion == 5 && isChargedHere env server s₀.callInfo.call.orig &&
        numberTakesMinute env s₀.billingData.statsNNPPackageMinute s₀.currentNNPPackageMinute
          account.id s₀.callInfo.call.connectTime serviceNumber.id
          (destinationsOf env s₀.numberRanges
            (legNumbers env trunk s₀.callInfo.call.orig s₀.numbers).2))
      s₀ (exec (chargeByNumber env (isForceOrigTarifficationSkip env)) s).2 := by
  have hminutes : s.minutes = s₀.minutes :=
    (congrArg PricingState.minutes h.bill : s.bill.minutes = s₀.bill.minutes)
  have horig : s.callInfo.call.orig = s₀.callInfo.call.orig :=
    congrArg (fun p => p.callInfo.call.orig) h.bill
  have hconnect : s.callInfo.call.connectTime = s₀.callInfo.call.connectTime :=
    congrArg (fun p => p.callInfo.call.connectTime) h.bill
  -- a step that keeps the counters of package minutes takes nothing from them
  have hkept : ∀ {x : Pricing Unit}, Keeps PricingState.minutes x →
      MinuteResult env false s₀ (exec x s).2 :=
    fun hx => minuteResult_of_minutes hindex ((hx s).trans hminutes)
  unfold chargeByNumber isChargedHere
  rw [exec_bind_ok (exec_getCallInfo s), horig, h.onServer]
  cases horig₀ : s₀.callInfo.call.orig with
  | false =>
      rw [if_neg Bool.false_ne_true, Bool.false_and, Bool.false_and, Bool.and_false, Bool.false_and]
      exact hkept (keeps_minutes (keeps_calcTermByNumber env))
  | true =>
      rw [if_pos rfl, exec_bind_ok (exec_deref_some server s)]
      cases isServiceCall env server with
      | true =>
          rw [if_pos rfl, Bool.not_true, Bool.and_false, Bool.false_and, Bool.and_false,
            Bool.false_and]
          exact hkept (keeps_modifyCall fun _ => rfl)
      | false =>
          rw [if_neg Bool.false_ne_true]
          cases isForceOrigTarifficationSkip env with
          | true =>
              rw [Bool.not_true, Bool.and_false, Bool.and_false, Bool.false_and]
              exact hkept (keeps_pure ())
          | false =>
              show MinuteResult env _ s₀ (exec (calcOrigByNumber env) s).2
              unfold calcOrigByNumber
              rw [exec_bind_ok (exec_getCall s), h.accountVersion]
              by_cases hfive : account.accountVersion = 5
              · rw [if_pos hfive, hfive]
                have hparts := hminutes
                simp only [PricingState.minutes, Prod.mk.injEq] at hparts
                have hresult := @minuteResult_calcOrigNNPByNumber env s serviceNumber h.ofService
                  (hparts.2.1 ▸ hindex)
                rw [hparts.1, hparts.2.1, h.accountId, hconnect, h.dstNumber, h.destinations,
                  horig₀] at hresult
                exact hresult.congr hminutes
              · rw [if_neg hfive, beq_eq_false_iff_ne.mpr hfive, Bool.false_and, Bool.false_and]
                by_cases hfour : account.accountVersion = 4
                · rw [if_pos hfour]
                  exact hkept (NNPMinutes.keeps_calcOrigByNumberV4 env)
                · rw [if_neg hfour]
                  exact hkept (keeps_throw _)

/-- A leg by trunk takes nothing from package minutes. -/
theorem keeps_minutes_chargeByTrunk (orig : Bool) :
    Keeps PricingState.minutes (chargeByTrunk env orig) := by
  unfold chargeByTrunk
  refine keeps_bind keeps_getCallInfo fun _ => keeps_ite ?_ (keeps_ite ?_ (keeps_throw _))
  · cases orig with
    | true => exact NNPMinutes.keeps_calcByTrunkV4 env
    | false => exact keeps_minutes keeps_calcByTrunkV4
  · refine keeps_bind (keeps_deref _) fun nnpPackage => ?_
    refine keeps_bind (keeps_minutes (keeps_setupBilledTimeNNP env nnpPackage)) fun _ => ?_
    refine keeps_bind (keeps_minutes (keeps_setupNNPInterconnect env)) fun _ => ?_
    exact keeps_minutes keeps_setupNNPCost

/-- **What a leg takes from package minutes**, and what it leaves of their counters
however its pricing ends. -/
theorem minuteResult_tariffication (hs₀ : Unpriced s₀)
    (hindex : Indexed StatsNNPPackageMinuteManager.kind.id StatsNNPPackageMinuteManager.kind.key
      s₀.currentNNPPackageMinute) :
    MinuteResult env (legTakesMinute env s₀) s₀ (exec (tariffication env) s₀).2 := by
  unfold legTakesMinute
  refine tariffication_ends hs₀ (fun s hs => hs) ?_ ?_ ?_
  · intro s hleg hkept
    rw [hleg]
    exact minuteResult_of_minutes hindex
      (congrArg PricingState.minutes hkept : s.unsettled.minutes = s₀.unsettled.minutes)
  · intro trunk server serviceNumber account s hleg hof
    rw [hleg]
    exact minuteResult_chargeByNumber hof hindex
  · intro trunk order account s hleg hof
    rw [hleg]
    have hminutes : s.minutes = s₀.minutes :=
      (congrArg PricingState.minutes hof.unsettled : s.unsettled.minutes = s₀.unsettled.minutes)
    exact minuteResult_of_minutes hindex
      ((keeps_minutes_chargeByTrunk s₀.callInfo.call.orig s).trans hminutes)

/-- The originating leg stays the originating one. -/
theorem orig_tariffication (hs₀ : Unpriced s₀) :
    (exec (tariffication env) s₀).2.callInfo.call.orig = s₀.callInfo.call.orig := by
  have hcharged : ∀ {x : Pricing Unit}, Keeps PricingState.uncharged x →
      Keeps (fun s : PricingState => s.callInfo.call.orig) x :=
    fun hx => hx.part (fun s => s.callInfo.call.orig) fun _ => rfl
  refine @tariffication_ends env s₀
    (fun s => s.callInfo.call.orig = s₀.callInfo.call.orig) hs₀ (fun s hs => hs) ?_ ?_ ?_
  · intro s _ hkept
    exact congrArg (fun p => p.callInfo.call.orig) hkept
  · intro trunk server serviceNumber account s _ hof
    exact (hcharged (keeps_uncharged_chargeByNumber _) s).trans
      (congrArg (fun p => p.callInfo.call.orig) hof.bill)
  · intro trunk order account s _ hof
    exact (hcharged (keeps_uncharged_chargeByTrunk _) s).trans
      (congrArg (fun p => p.callInfo.call.orig) hof.unsettled)

/-- Whether a leg takes seconds depends on the leg, on the counters of package
minutes and on the destinations. -/
theorem legTakesMinute_congr (hcall : s.callInfo = s₀.callInfo)
    (hstored : s.billingData.statsNNPPackageMinute = s₀.billingData.statsNNPPackageMinute)
    (hcurrent : SameReadings env.now env.now Set.univ s₀.currentNNPPackageMinute s.currentNNPPackageMinute)
    (hdestinations : destinations env s = destinations env s₀) :
    legTakesMinute env s = legTakesMinute env s₀ := by
  have hnumbers : s.numbers = s₀.numbers := by rw [PricingState.numbers, hcall]; rfl
  have hoffered : ∀ accountId connectTime serviceNumberId nnpDestinationIds,
      numberTakesMinute env s₀.billingData.statsNNPPackageMinute s.currentNNPPackageMinute
          accountId connectTime serviceNumberId nnpDestinationIds =
        numberTakesMinute env s₀.billingData.statsNNPPackageMinute s₀.currentNNPPackageMinute
          accountId connectTime serviceNumberId nnpDestinationIds := by
    intro accountId connectTime serviceNumberId nnpDestinationIds
    rw [numberTakesMinute, offeredMinute, candidatesOf_congr hcurrent]
    rfl
  have hdest : ∀ num, destinationsOf env s.numberRanges num =
      destinationsOf env s₀.numberRanges num := fun num => congrFun hdestinations num
  unfold legTakesMinute legPath
  rw [hcall, hnumbers, hstored]
  simp only [hoffered, hdest]
  cases legObjects env s₀.callInfo.call.orig with
  | none => rfl
  | some objects =>
      obtain ⟨trunk, server, settings⟩ := objects
      dsimp only
      cases trunk.authByNumber || isNeedForceCalcByNumber env s₀.callInfo.call.orig with
      | true => rw [if_pos rfl, if_pos rfl]
      | false =>
          -- by trunk no seconds are taken, whatever the order of the trunk
          rw [if_neg Bool.false_ne_true, if_neg Bool.false_ne_true]
          cases trunkOrder env s trunk <;> cases trunkOrder env s₀ trunk <;> rfl

/-- A terminating leg takes nothing from package minutes. -/
theorem legTakesMinute_term (h : s₀.callInfo.call.orig = false) :
    legTakesMinute env s₀ = false := by
  unfold legTakesMinute
  split
  case h_1 => simp [isChargedHere, h]
  case h_2 => rfl

end Leg

end BillingCall
end VoipBill
