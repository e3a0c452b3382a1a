import VoipBill.Billing.ChargeFrame
import VoipBill.Billing.UsageBooks

/-!
# Free minutes are not overdrawn

A local call of a version 4 number takes seconds from the free minutes of its
tariff.  What is left of a month is read when the call is priced, and booked when it
is added; the month is that of the account, and calls come in any order of months.

`ServiceTerms` is what the allowance of a number service depends on.  As long as it
stays the same for each service, `free_minutes_conserved` holds over whole runs,
whatever else changes in the tables between two calls:

* one row for each number service and month;
* every row counts the calls that carry its id, and no more than the allowance;
* every such call takes some of its billed seconds, from the row of its own service
  and month.
-/

namespace VoipBill

open Lib Lib.Hoare

namespace Freemin

open BillingCall

/-- What the free minutes of a number service depend on. -/
structure ServiceTerms where
  tariff : Tariff
  linesCount : Int
  timezoneOffset : Int

/-- The free seconds of a month. -/
def ServiceTerms.freeSeconds (terms : ServiceTerms) : Int :=
  60 * terms.tariff.freemin * (if terms.tariff.freeminForNumber then 1 else terms.linesCount)

def freeminView : UsageView StatsFreemin where
  id := (·.id)
  used := (·.usedSeconds)

/-- The row of free minutes that a call takes its seconds from. -/
def freeminOf (call : Call) : Option Int :=
  if call.servicePackageId = 1 then some call.servicePackageStatsId else none

/-- The month of a call in the time of its account. -/
def monthOf (terms : Int → ServiceTerms) (call : Call) : Int :=
  getTmonth call.connectTime (terms call.numberServiceId).timezoneOffset

/-- A call takes some of its billed seconds from the row of its service and month. -/
structure TakesOwn (terms : Int → ServiceTerms) (m : StatsFreeminManager) (call : Call) :
    Prop where
  pos : 0 < call.packageTime
  billed : call.packageTime ≤ call.billedTime
  row : ∃ stats, m.rows[call.servicePackageStatsId]? = some stats ∧
    stats.serviceNumberId = call.numberServiceId ∧ stats.monthDt = monthOf terms call

/-- The books are right, every service has one row a month, and no allowance is
overdrawn. -/
structure FreeminInv (terms : Int → ServiceTerms) (added : List Call)
    (m : StatsFreeminManager) : Prop where
  books : Books freeminView freeminOf added m
  index : Indexed (·.id) (·.serviceNumberId) m
  unique : ∀ (i i' : Int) (stats stats' : StatsFreemin), m.rows[i]? = some stats →
    m.rows[i']? = some stats' → stats.serviceNumberId = stats'.serviceNumberId →
    stats.monthDt = stats'.monthDt → i = i'
  granted : ∀ (i : Int) (stats : StatsFreemin), m.rows[i]? = some stats →
    stats.usedSeconds ≤ (terms stats.serviceNumberId).freeSeconds
  taken : ∀ call ∈ added, call.servicePackageId = 1 → TakesOwn terms m call

/-! ## The counters -/

section Counters

variable {terms : Int → ServiceTerms} {added : List Call} {m m' : StatsFreeminManager}
  {callInfo : CallInfo}

/-- Rows that exist keep their service and their month. -/
theorem TakesOwn.mono {call : Call} (h : TakesOwn terms m call)
    (hmono : ∀ (i : Int) (stats : StatsFreemin), m.rows[i]? = some stats →
      ∃ stats', m'.rows[i]? = some stats' ∧ stats'.serviceNumberId = stats.serviceNumberId ∧
        stats'.monthDt = stats.monthDt) : TakesOwn terms m' call where
  pos := h.pos
  billed := h.billed
  row := by
    obtain ⟨stats, hrow, hservice, hmonth⟩ := h.row
    obtain ⟨stats', hrow', hservice', hmonth'⟩ := hmono _ stats hrow
    exact ⟨stats', hrow', hservice'.trans hservice, hmonth'.trans hmonth⟩

theorem FreeminInv.empty : FreeminInv terms [] (UsageManager.empty : StatsFreeminManager) where
  books := Books.empty
  index := Indexed.empty
  unique := fun i i' stats stats' h => absurd h (by simp [UsageManager.empty])
  granted := fun i stats h => absurd h (by simp [UsageManager.empty])
  taken := fun call h => absurd h (by simp)

/-- A new partition changes no row. -/
theorem FreeminInv.congr (h : FreeminInv terms added m) (hrows : m'.rows = m.rows)
    (hlast : m'.lastStatId = m.lastStatId) (hindex : m'.statsByKey = m.statsByKey) :
    FreeminInv terms added m' where
  books := h.books.congr hrows hlast
  index := h.index.congr hrows hlast hindex
  unique := by
    rw [hrows]
    exact h.unique
  granted := by
    rw [hrows]
    exact h.granted
  taken := by
    intro call hcall hfree
    obtain ⟨hpos, hbilled, hrow⟩ := h.taken call hcall hfree
    rw [← hrows] at hrow
    exact ⟨hpos, hbilled, hrow⟩

/-- A lookup for a service with an allowance. -/
theorem FreeminInv.getCurrent (h : FreeminInv terms added m)
    (hgrant : 0 ≤ (terms callInfo.call.numberServiceId).freeSeconds) :
    FreeminInv terms added (StatsFreeminManager.getCurrent m callInfo).2 := by
  have hbooks : Books freeminView freeminOf added (StatsFreeminManager.getCurrent m callInfo).2 :=
    h.books.getCurrent fun i => ⟨rfl, rfl⟩
  have hindex : Indexed (·.id) (·.serviceNumberId)
      (StatsFreeminManager.getCurrent m callInfo).2 :=
    h.index.getCurrent fun i => ⟨rfl, rfl⟩
  have htaken : ∀ call ∈ added, call.servicePackageId = 1 →
      TakesOwn terms (StatsFreeminManager.getCurrent m callInfo).2 call := by
    intro call hcall hfree
    refine (h.taken call hcall hfree).mono fun i stats hrow => ?_
    exact ⟨stats, UsageManager.getCurrent_mono h.books.ids hrow, rfl, rfl⟩
  -- the row created is the only one of its service and month, as none was found
  have happart : ∀ (i i' : Int) (stats stats' : StatsFreemin), m.rows[i]? = some stats →
      m.rows[i']? = some stats' → i ≠ i' →
      ¬ (stats.serviceNumberId = stats'.serviceNumberId ∧ stats.monthDt = stats'.monthDt) :=
    fun i i' stats stats' hrow hrow' hne hsame =>
      hne (h.unique i i' stats stats' hrow hrow' hsame.1 hsame.2)
  refine ⟨hbooks, hindex, ?_, UsageManager.forall_getCurrent h.granted hgrant, htaken⟩
  intro i i' stats stats' hrow hrow' hservice hmonth
  by_contra hne
  refine UsageManager.pairwise_getCurrent (fun hapart hsame => hapart ⟨hsame.1.symm, hsame.2.symm⟩)
    happart ?_ i i' stats stats' hrow hrow' hne ⟨hservice, hmonth⟩
  rintro hfind i stats hrow ⟨hservice, hmonth⟩
  have hnot := h.index.of_findCurrent_eq_none hfind hrow hservice.symm
  rw [← hmonth] at hnot
  exact absurd hnot (by simp [StatsFreeminManager.createStatsFreemin])

/-- The row a lookup returns is that of the service and the month. -/
theorem FreeminInv.getCurrent_row (h : FreeminInv terms added m) (callInfo : CallInfo) :
    (StatsFreeminManager.getCurrent m callInfo).2.rows[
        (StatsFreeminManager.getCurrent m callInfo).1.id]? =
      some (StatsFreeminManager.getCurrent m callInfo).1 ∧
    (StatsFreeminManager.getCurrent m callInfo).1.serviceNumberId =
      callInfo.call.numberServiceId ∧
    (StatsFreeminManager.getCurrent m callInfo).1.monthDt = callInfo.dt.month := by
  refine ⟨h.index.getCurrent_row fun _ => rfl, ?_⟩
  cases hfind : m.findCurrent callInfo.call.numberServiceId
      (fun stats => stats.monthDt == callInfo.dt.month) with
  | some stats =>
      obtain ⟨-, hservice, hmonth⟩ := h.index.of_findCurrent hfind
      rw [StatsFreeminManager.getCurrent, UsageManager.getCurrent_of_some hfind]
      exact ⟨hservice, by simpa using hmonth⟩
  | none =>
      rw [StatsFreeminManager.getCurrent, UsageManager.getCurrent_of_none hfind]
      exact ⟨rfl, rfl⟩

/-- A call that takes no free seconds. -/
theorem FreeminInv.add_none (h : FreeminInv terms added m)
    (hfree : callInfo.call.servicePackageId ≠ 1) :
    FreeminInv terms (added ++ [callInfo.call]) (StatsFreeminManager.add m callInfo) := by
  have hadd : StatsFreeminManager.add m callInfo = m := by
    rw [StatsFreeminManager.add, StatsFreeminManager.bookedRow, if_pos (Or.inr (Or.inl hfree))]
    rfl
  rw [hadd]
  refine ⟨h.books.add_none (Or.inl (if_neg hfree)), h.index, h.unique, h.granted, ?_⟩
  intro call hcall hfree'
  rcases List.mem_append.mp hcall with hold | hnew
  · exact h.taken call hold hfree'
  · rw [List.mem_singleton.mp hnew] at hfree'
    exact absurd hfree' hfree

/-- A call whose free seconds are left on its row. -/
theorem FreeminInv.add_row {stats : StatsFreemin} (h : FreeminInv terms added m)
    (hnumber : callInfo.call.numberServiceId ≠ 0) (hfree : callInfo.call.servicePackageId = 1)
    (htakes : TakesOwn terms m callInfo.call)
    (hrow : m.rows[callInfo.call.servicePackageStatsId]? = some stats)
    (hfits : stats.usedSeconds + callInfo.call.packageTime ≤
      (terms stats.serviceNumberId).freeSeconds) :
    FreeminInv terms (added ++ [callInfo.call]) (StatsFreeminManager.add m callInfo) := by
  have hpos := (h.books.row _ stats hrow).1
  have hbooked : StatsFreeminManager.bookedRow callInfo =
      some callInfo.call.servicePackageStatsId := by
    refine if_neg ?_
    rintro (hzero | hpackage | hzero)
    · exact hnumber hzero
    · exact hpackage hfree
    · omega
  have hadd : StatsFreeminManager.add m callInfo =
      m.putRow callInfo.call.servicePackageStatsId
        (StatsFreeminManager.updateStatsFreemin callInfo.call stats) := by
    simp only [StatsFreeminManager.add, hbooked, UsageManager.addBooked, UsageManager.book, hrow]
  -- the row that is written keeps its service and its month
  have hback : ∀ (i : Int) (stats' : StatsFreemin),
      (StatsFreeminManager.add m callInfo).rows[i]? = some stats' →
      ∃ old, m.rows[i]? = some old ∧ old.serviceNumberId = stats'.serviceNumberId ∧
        old.monthDt = stats'.monthDt := by
    intro i stats' hrow'
    rw [hadd] at hrow'
    refine UsageManager.exists_of_putRow (R := fun old new =>
      old.serviceNumberId = new.serviceNumberId ∧ old.monthDt = new.monthDt)
      hrow (fun _ => ⟨rfl, rfl⟩) ?_ hrow'
    exact ⟨rfl, rfl⟩
  have hforth : ∀ (i : Int) (old : StatsFreemin), m.rows[i]? = some old →
      ∃ stats', (StatsFreeminManager.add m callInfo).rows[i]? = some stats' ∧
        stats'.serviceNumberId = old.serviceNumberId ∧ stats'.monthDt = old.monthDt := by
    intro i old hold
    rw [hadd]
    refine UsageManager.exists_putRow (R := fun old new =>
      new.serviceNumberId = old.serviceNumberId ∧ new.monthDt = old.monthDt)
      hrow (fun _ => ⟨rfl, rfl⟩) ?_ hold
    exact ⟨rfl, rfl⟩
  have hcarries : freeminOf callInfo.call = some callInfo.call.servicePackageStatsId :=
    if_pos hfree
  refine ⟨?_, ?_, ?_, ?_, ?_⟩
  · rw [hadd]
    exact h.books.add_row hcarries hrow rfl rfl
  · rw [hadd]
    exact h.index.putRow hrow rfl rfl
  · intro i i' stats₁ stats₂ hrow₁ hrow₂ hservice hmonth
    obtain ⟨old₁, hold₁, hservice₁, hmonth₁⟩ := hback i stats₁ hrow₁
    obtain ⟨old₂, hold₂, hservice₂, hmonth₂⟩ := hback i' stats₂ hrow₂
    exact h.unique i i' old₁ old₂ hold₁ hold₂
      (hservice₁.trans (hservice.trans hservice₂.symm))
      (hmonth₁.trans (hmonth.trans hmonth₂.symm))
  · intro i stats' hrow'
    rw [hadd] at hrow'
    rcases UsageManager.of_putRow hrow' with ⟨rfl, rfl⟩ | hold
    · exact hfits
    · exact h.granted i stats' hold
  · intro call hcall hfree'
    rcases List.mem_append.mp hcall with hold | hnew
    · exact (h.taken call hold hfree').mono hforth
    · rw [List.mem_singleton.mp hnew]
      exact htakes.mono hforth

end Counters

/-! ## One leg -/

/-- What the free minutes of a leg are settled by: the counters, and the call without
its cost. -/
def freePart (s : PricingState) : StatsFreeminManager × Call :=
  (s.billingData.statsFreemin,
    { s.callInfo.call with
      cost := 0
      packageCredit := 0
      interconnectRate := 0
      interconnectCost := 0
      priceIncludesVat := false })

/-- The free seconds that a leg takes are left on its row, and will be booked. -/
structure TakesFree (terms : Int → ServiceTerms) (p : StatsFreeminManager × Call) : Prop where
  number : p.2.numberServiceId ≠ 0
  own : TakesOwn terms p.1 p.2
  fits : ∃ stats, p.1.rows[p.2.servicePackageStatsId]? = some stats ∧
    stats.usedSeconds + p.2.packageTime ≤ (terms stats.serviceNumberId).freeSeconds

/-- What holds of a leg however its pricing ends. -/
def Settled (terms : Int → ServiceTerms) (added : List Call) (p : StatsFreeminManager × Call) :
    Prop :=
  FreeminInv terms added p.1 ∧ (p.2.servicePackageId = 1 → TakesFree terms p)

/-- The leg takes no free seconds. -/
def NoFree (terms : Int → ServiceTerms) (added : List Call) (s : PricingState) : Prop :=
  FreeminInv terms added s.billingData.statsFreemin ∧ s.callInfo.call.servicePackageId ≠ 1

/-- A leg of a number service before its free minutes are looked at. -/
structure Due (terms : Int → ServiceTerms) (added : List Call) (serviceNumber : ServiceNumber)
    (s : PricingState) : Prop where
  noFree : NoFree terms added s
  ofService : s.callInfo.serviceNumber = some serviceNumber
  numberServiceId : s.callInfo.call.numberServiceId = serviceNumber.id
  month : s.callInfo.dt.month =
    getTmonth s.callInfo.call.connectTime (terms serviceNumber.id).timezoneOffset
  tariff : ∀ tariff, s.callInfo.mainTariff = some tariff → tariff = (terms serviceNumber.id).tariff

/-- What `Due` depends on. -/
def duePart (s : PricingState) :
    StatsFreeminManager × Int × Option ServiceNumber × Int × Int × Int × Option Tariff :=
  (s.billingData.statsFreemin, s.callInfo.call.servicePackageId, s.callInfo.serviceNumber,
    s.callInfo.call.numberServiceId, s.callInfo.dt.month, s.callInfo.call.connectTime,
    s.callInfo.mainTariff)

section Leg

variable {terms : Int → ServiceTerms} {added : List Call} {serviceNumber : ServiceNumber}
  {env : PricingEnv}

theorem NoFree.settled {s : PricingState} (h : NoFree terms added s) :
    Settled terms added (freePart s) :=
  ⟨h.1, fun hfree => absurd hfree h.2⟩

theorem NoFree.of_prepaid {s s' : PricingState} (h : s'.prepaid = s.prepaid)
    (hs : NoFree terms added s) : NoFree terms added s' := by
  simp only [PricingState.prepaid, Prod.mk.injEq] at h
  rw [NoFree, h.1, h.2.2.1]
  exact hs

theorem Due.of_duePart {s s' : PricingState} (h : duePart s' = duePart s)
    (hs : Due terms added serviceNumber s) : Due terms added serviceNumber s' := by
  simp only [duePart, Prod.mk.injEq] at h
  obtain ⟨hstats, hpackage, hservice, hid, hmonth, htime, htariff⟩ := h
  refine ⟨?_, hservice.trans hs.ofService, hid.trans hs.numberServiceId, ?_, ?_⟩
  · rw [NoFree, hstats, hpackage]
    exact hs.noFree
  · rw [hmonth, htime]
    exact hs.month
  · rw [htariff]
    exact hs.tariff

/-- The tables keep what the free minutes of each number service depend on, no
service has the id 0, which stands for none, and no package has the id of free minutes. -/
structure TermsKept (terms : Int → ServiceTerms) (data : DataContainer) : Prop where
  service : ∀ number time serviceNumber, data.serviceNumber number time = some serviceNumber →
    serviceNumber.id ≠ 0 ∧ serviceNumber.linesCount = (terms serviceNumber.id).linesCount
  account : ∀ number time serviceNumber account,
    data.serviceNumber number time = some serviceNumber →
    data.client serviceNumber.clientAccountId = some account →
    account.timezoneOffset = (terms serviceNumber.id).timezoneOffset
  tariff : ∀ serviceId time log tariff, data.tariffChangeLog serviceId time = some log →
    data.tariff log.tariffIdLocal = some tariff → tariff = (terms serviceId).tariff
  package : ∀ servicePackage ∈ data.servicePackage, servicePackage.id ≠ 1

theorem TermsKept.packagesOf_ne (h : TermsKept terms env.repository.data) (callInfo : CallInfo) :
    ∀ servicePackage ∈ packagesOf env callInfo, servicePackage.id ≠ 1 := by
  intro servicePackage hmem
  unfold packagesOf at hmem
  split at hmem
  case h_1 => exact h.package servicePackage (List.mem_filter.mp hmem).1
  case h_2 => exact h.package servicePackage (List.mem_filter.mp hmem).1
  case h_3 => exact absurd hmem (by simp)

/-- The main tariff of the leg is that of its number service. -/
theorem triple_setupTariffs {β : Type} {g : Unit → Pricing β} {S : β → PricingState → Prop}
    {E : PricingState → Prop} (hterms : TermsKept terms env.repository.data)
    (hE : ∀ s, Due terms added serviceNumber s → E s)
    (hg : ∀ a, Triple (Due terms added serviceNumber) (g a) S E) :
    Triple (Due terms added serviceNumber)
      (setupLogTariff env >>= fun _ => setupMainTariff env >>= g) S E := by
  refine triple_bind (R := fun _ s => Due terms added serviceNumber s ∧
    s.callInfo.logTariff = env.repository.getTariffLog serviceNumber.id) ?_ fun _ => ?_
  · unfold setupLogTariff
    refine triple_getCallInfo fun callInfo => ?_
    refine triple_deref (fun s hs => hE s hs.1) fun found hfound => ?_
    have hsame : ∀ s, Due terms added serviceNumber s ∧ s.callInfo = callInfo →
        found = serviceNumber := by
      rintro s ⟨hs, rfl⟩
      exact Option.some.inj (hfound.symm.trans hs.ofService)
    refine triple_of_fact hsame fun heq => ?_
    rw [heq]
    refine triple_bind (R := fun _ s => Due terms added serviceNumber s ∧
      s.callInfo.logTariff = env.repository.getTariffLog serviceNumber.id) ?_ fun _ => ?_
    · exact triple_modifyCallInfo fun s hs => ⟨@Due.of_duePart _ _ _ s _ rfl hs.1, rfl⟩
    · exact triple_orThrow (fun s hs => hE s hs.1) fun _ _ => triple_pure fun s hs => hs
  · refine triple_bind (R := fun _ => Due terms added serviceNumber) ?_ hg
    unfold setupMainTariff
    refine triple_getCallInfo fun callInfo => ?_
    refine triple_deref (fun s hs => hE s hs.1.1) fun log hlog => ?_
    refine triple_bind (R := fun _ => Due terms added serviceNumber) ?_ fun _ => ?_
    · refine triple_modifyCallInfo fun s hs => ?_
      obtain ⟨⟨hdue, hfound⟩, rfl⟩ := hs
      refine ⟨hdue.noFree, hdue.ofService, hdue.numberServiceId, hdue.month, ?_⟩
      intro tariff htariff
      exact hterms.tariff serviceNumber.id _ log tariff (hfound.symm.trans hlog) htariff
    · exact triple_orThrow hE fun _ _ => triple_pure fun s hs => hs

/-- The package of a price list is not the one that stands for free minutes. -/
theorem foldl_applyPackagePrice_ne {packages : List ServicePackage}
    (hpackages : ∀ servicePackage ∈ packages, servicePackage.id ≠ 1) {callInfo : CallInfo}
    (h : callInfo.call.servicePackageId ≠ 1) :
    (packages.foldl (applyPackagePrice env) callInfo).call.servicePackageId ≠ 1 := by
  induction packages generalizing callInfo with
  | nil => exact h
  | cons servicePackage packages ih =>
      refine ih (fun p hp => hpackages p (List.mem_cons_of_mem servicePackage hp)) ?_
      unfold applyPackagePrice
      split
      case h_1 => exact h
      case h_2 => exact hpackages servicePackage List.mem_cons_self

theorem noFree_setupPackagePricelist (hterms : TermsKept terms env.repository.data)
    {s : PricingState} (hs : NoFree terms added s) :
    NoFree terms added (exec (setupPackagePricelist env) s).2 :=
  ⟨hs.1, foldl_applyPackagePrice_ne (hterms.packagesOf_ne s.callInfo) hs.2⟩

theorem triple_setupPackagePricelist (hterms : TermsKept terms env.repository.data)
    {E : PricingState → Prop} :
    Triple (Due terms added serviceNumber) (setupPackagePricelist env)
      (fun _ => Due terms added serviceNumber) E := by
  intro s hs
  have hkept := keeps_unpackaged_setupPackagePricelist env s
  refine ⟨noFree_setupPackagePricelist hterms hs.noFree, ?_, ?_, ?_, ?_⟩
  · exact (congrArg (fun p => p.callInfo.serviceNumber) hkept).trans hs.ofService
  · exact (congrArg (fun p => p.callInfo.call.numberServiceId) hkept).trans hs.numberServiceId
  · have hmonth := congrArg (fun p => p.callInfo.dt.month) hkept
    have htime := congrArg (fun p => p.callInfo.call.connectTime) hkept
    exact hmonth.trans (hs.month.trans (congrArg (getTmonth · _) htime.symm))
  · intro tariff htariff
    exact hs.tariff tariff ((congrArg (fun p => p.callInfo.mainTariff) hkept).symm.trans htariff)

/-- Free seconds are taken from a row of the service that has them left. -/
theorem triple_setupFreemin (hnumber : serviceNumber.id ≠ 0)
    (hlines : serviceNumber.linesCount = (terms serviceNumber.id).linesCount)
    {E : PricingState → Prop} (hE : ∀ s, Settled terms added (freePart s) → E s) :
    Triple (Due terms added serviceNumber) setupFreemin
      (fun _ s => Settled terms added (freePart s)) E := by
  have hsettled : ∀ s, Due terms added serviceNumber s → Settled terms added (freePart s) :=
    fun s hs => hs.noFree.settled
  unfold setupFreemin
  refine triple_getCallInfo fun callInfo => ?_
  refine triple_onlyIf (fun _ => ?_) fun _ s hs => hsettled s hs.1
  refine triple_deref (fun s hs => hE s (hsettled s hs.1)) fun mainTariff hmain => ?_
  refine triple_deref (fun s hs => hE s (hsettled s hs.1)) fun found hfound => ?_
  refine triple_onlyIf (fun hgrant => ?_) fun _ s hs => hsettled s hs.1
  refine triple_get_bind fun s => ?_
  have hfacts : ∀ s', (Due terms added serviceNumber s' ∧ s'.callInfo = callInfo) ∧ s' = s →
      Due terms added serviceNumber s ∧ callInfo = s.callInfo := by
    rintro s' ⟨⟨hdue, rfl⟩, rfl⟩
    exact ⟨hdue, rfl⟩
  refine triple_of_fact hfacts fun ⟨hdue, hinfo⟩ => ?_
  subst hinfo
  -- the allowance that is computed is the one of the service
  have hfree : 60 * mainTariff.freemin *
      (if mainTariff.freeminForNumber then 1 else found.linesCount) =
      (terms s.callInfo.call.numberServiceId).freeSeconds := by
    have hsame : found = serviceNumber := Option.some.inj (hfound.symm.trans hdue.ofService)
    rw [hsame, hlines, hdue.tariff mainTariff hmain, hdue.numberServiceId]
    rfl
  have hpositive : 0 < (terms s.callInfo.call.numberServiceId).freeSeconds := by
    rw [← hfree]
    simpa using hgrant
  have hinv := @FreeminInv.getCurrent terms added s.billingData.statsFreemin s.callInfo
    hdue.noFree.1 hpositive.le
  obtain ⟨hrow, hservice, hmonth⟩ := hdue.noFree.1.getCurrent_row s.callInfo
  rw [hfree]
  generalize StatsFreeminManager.getCurrent s.billingData.statsFreemin s.callInfo = current
    at hinv hrow hservice hmonth
  have hlooked : Triple (fun s' => (Due terms added serviceNumber s' ∧
      s'.callInfo = s.callInfo) ∧ s' = s)
      (modify fun s => { s with billingData := { s.billingData with statsFreemin := current.2 } } :
        Pricing Unit)
      (fun _ s' => s'.callInfo = s.callInfo ∧ s'.billingData.statsFreemin = current.2) E :=
    triple_modify fun s' hs' => ⟨hs'.1.2, rfl⟩
  refine triple_bind hlooked fun _ => ?_
  refine triple_onlyIf (fun hleft => triple_modifyCall fun s' hs' => ?_) fun _ s' hs' => ?_
  · have hpos : 0 < min (max ((terms s.callInfo.call.numberServiceId).freeSeconds -
        current.1.usedSeconds) 0) s.callInfo.call.billedTime := by simpa using hleft
    have hle := min_le_left (max ((terms s.callInfo.call.numberServiceId).freeSeconds -
      current.1.usedSeconds) 0) s.callInfo.call.billedTime
    have hlast := min_le_right (max ((terms s.callInfo.call.numberServiceId).freeSeconds -
      current.1.usedSeconds) 0) s.callInfo.call.billedTime
    generalize min (max ((terms s.callInfo.call.numberServiceId).freeSeconds -
      current.1.usedSeconds) 0) s.callInfo.call.billedTime = seconds at hpos hle hlast
    rw [freePart, hs'.1, hs'.2]
    refine ⟨hinv, fun _ => ⟨?_, ⟨hpos, hlast, current.1, hrow, hservice, ?_⟩,
      current.1, hrow, ?_⟩⟩
    · exact fun hzero => hnumber (hdue.numberServiceId.symm.trans hzero)
    · rw [hmonth, hdue.month, ← hdue.numberServiceId]
      rfl
    · rw [hservice]
      show current.1.usedSeconds + seconds ≤ _
      omega
  · rw [freePart, hs'.1, hs'.2]
    exact ⟨hinv, fun hone => absurd hone hdue.noFree.2⟩

/-- The chosen package is one of those on offer. -/
theorem mem_of_choosePackage {callInfo : CallInfo} {account : Client}
    {packages : List ServicePackage} {best : Option PrepaidChoice} {m : StatsPackageManager}
    {choice : PrepaidChoice}
    (h : (choosePackage env callInfo account packages best m).1 = some choice) :
    best = some choice ∨ choice.servicePackage ∈ packages := by
  induction packages generalizing best m with
  | nil => exact Or.inl h
  | cons servicePackage packages ih =>
      rw [choosePackage] at h
      split at h
      case h_1 => exact (ih h).imp_right (List.mem_cons_of_mem servicePackage)
      case h_2 tariff _ =>
        dsimp only at h
        split at h
        case isTrue =>
          right
          rw [← Option.some.inj h]
          exact List.mem_cons_self
        case isFalse =>
          split at h
          case isTrue =>
            right
            rcases ih h with hbest | hmem
            · rw [← Option.some.inj hbest]
              exact List.mem_cons_self
            · exact List.mem_cons_of_mem servicePackage hmem
          case isFalse => exact (ih h).imp_right (List.mem_cons_of_mem servicePackage)

/-- A leg that takes free seconds takes none from a package; any other takes the id of
a package. -/
theorem triple_setupPackagePrepaid (hterms : TermsKept terms env.repository.data)
    {E : PricingState → Prop} (hE : ∀ s, Settled terms added (freePart s) → E s) :
    Triple (fun s => Settled terms added (freePart s)) (setupPackagePrepaid env)
      (fun _ s => Settled terms added (freePart s)) E := by
  unfold setupPackagePrepaid
  refine triple_getCallInfo fun callInfo => ?_
  refine triple_onlyIf (fun hcond => ?_) fun _ s hs => hs.1
  simp only [Bool.and_eq_true, bne_iff_ne, Bool.not_eq_true', decide_eq_false_iff_not] at hcond
  refine triple_deref (fun s hs => hE s hs.1) fun account _ => ?_
  -- no package id is set, so no free seconds are taken
  have hnoFree : ∀ s, Settled terms added (freePart s) ∧ s.callInfo = callInfo →
      NoFree terms added s := by
    rintro s ⟨hs, rfl⟩
    have hpackage := hcond.2
    exact ⟨hs.1, fun hone => by omega⟩
  refine (Triple.pre ?_ hnoFree : Triple _ _ _ E)
  refine triple_get_bind fun s₀ => ?_
  refine triple_bind (R := fun _ => NoFree terms added)
    (triple_modify fun s hs => hs.1) fun _ => ?_
  refine triple_whenSome (fun choice hchoice => ?_) fun _ s hs => hs.settled
  refine triple_modifyCallInfo fun s hs => ?_
  rcases mem_of_choosePackage hchoice with hnone | hmem
  · exact absurd hnone (by simp)
  · exact ⟨hs.1, fun hone => absurd hone (hterms.packagesOf_ne callInfo _ hmem)⟩

/-- Version 4 by number. -/
theorem triple_calcOrigByNumberV4 (hterms : TermsKept terms env.repository.data)
    (hnumber : serviceNumber.id ≠ 0)
    (hlines : serviceNumber.linesCount = (terms serviceNumber.id).linesCount) :
    Triple (Due terms added serviceNumber) (calcOrigByNumberV4 env)
      (fun _ s => Settled terms added (freePart s))
      (fun s => Settled terms added (freePart s)) := by
  have hdue : ∀ s, Due terms added serviceNumber s → Settled terms added (freePart s) :=
    fun s hs => hs.noFree.settled
  unfold calcOrigByNumberV4
  refine triple_setupTariffs hterms hdue fun _ => ?_
  refine ((keeps_unbilled_setupBilledTime env).part duePart fun _ => rfl :
    Keeps duePart _).andThen Due.of_duePart hdue fun _ => ?_
  refine triple_bind (triple_setupPackagePricelist hterms) fun _ => ?_
  refine (keeps_getCallInfo : Keeps duePart _).andThen Due.of_duePart hdue fun callInfo => ?_
  refine ((keeps_unpriced_setupOrigPrice env _).part duePart fun _ => rfl :
    Keeps duePart _).andThen Due.of_duePart hdue fun _ => ?_
  refine triple_bind (triple_setupFreemin hnumber hlines fun s hs => hs) fun _ => ?_
  refine triple_bind (triple_setupPackagePrepaid hterms fun s hs => hs) fun _ => ?_
  exact (keeps_uncosted_withCost.part freePart fun _ => rfl : Keeps freePart _).triple
    (fun h hs => h ▸ hs) (fun s hs => hs) fun _ s hs => hs

/-- A leg by number whose account has been found. -/
theorem triple_chargeByNumber (hterms : TermsKept terms env.repository.data)
    (hnumber : serviceNumber.id ≠ 0)
    (hlines : serviceNumber.linesCount = (terms serviceNumber.id).linesCount)
    (fTarifficationSkip : Bool) :
    Triple (Due terms added serviceNumber) (chargeByNumber env fTarifficationSkip)
      (fun _ s => Settled terms added (freePart s))
      (fun s => Settled terms added (freePart s)) := by
  have hdue : ∀ s, Due terms added serviceNumber s → Settled terms added (freePart s) :=
    fun s hs => hs.noFree.settled
  have hkept : ∀ {x : Pricing Unit}, Keeps PricingState.prepaid x →
      Triple (Due terms added serviceNumber) x (fun _ s => Settled terms added (freePart s))
        (fun s => Settled terms added (freePart s)) :=
    fun hx => (hx.triple NoFree.of_prepaid (fun s hs => hs.settled)
      fun _ s hs => hs.settled).pre fun s hs => hs.noFree
  unfold chargeByNumber
  refine (keeps_getCallInfo : Keeps duePart _).andThen Due.of_duePart hdue fun callInfo => ?_
  split
  case isTrue =>
    refine triple_deref hdue fun server _ => ?_
    split
    case isTrue => exact hkept (keeps_modifyCall fun _ => rfl)
    case isFalse =>
      refine triple_onlyIf (fun _ => ?_) fun _ => hdue
      unfold calcOrigByNumber
      refine (keeps_getCall : Keeps duePart _).andThen Due.of_duePart hdue fun call => ?_
      dsimp only
      split
      case isTrue => exact hkept (keeps_calcOrigNNPByNumber env)
      case isFalse =>
        split
        case isTrue => exact triple_calcOrigByNumberV4 hterms hnumber hlines
        case isFalse => exact triple_throw hdue
  case isFalse =>
    exact hkept ((keeps_calcTermByNumber env).part
      (fun focus => (focus.2.statsFreemin, focus.2.statsPackage, focus.2.servicePackageId,
        focus.2.servicePackageStatsId)) fun _ => rfl)

/-- A leg by trunk takes no free seconds. -/
theorem triple_chargeByTrunk (hterms : TermsKept terms env.repository.data) (orig : Bool) :
    Triple (NoFree terms added) (chargeByTrunk env orig)
      (fun _ s => Settled terms added (freePart s))
      (fun s => Settled terms added (freePart s)) := by
  have hnoFree : ∀ s, NoFree terms added s → Settled terms added (freePart s) :=
    fun s hs => hs.settled
  -- the costs do not touch what the free minutes read
  have hcost : ∀ {x : Pricing Unit}, Keeps freePart x →
      Triple (fun s => Settled terms added (freePart s)) x
        (fun _ s => Settled terms added (freePart s))
        (fun s => Settled terms added (freePart s)) :=
    fun hx => hx.triple (fun h hs => h ▸ hs) (fun s hs => hs) fun _ s hs => hs
  unfold chargeByTrunk
  refine (keeps_getCallInfo : Keeps PricingState.prepaid _).andThen NoFree.of_prepaid hnoFree
    fun callInfo => ?_
  split
  case isTrue =>
    unfold calcByTrunkV4
    refine triple_bind (R := fun _ => NoFree terms added)
      (triple_onlyIf (fun _ s hs => noFree_setupPackagePricelist hterms hs) fun _ s hs => hs)
      fun _ => ?_
    refine ((keeps_unpriced_setupFoundPrice env).part PricingState.prepaid fun _ => rfl :
      Keeps PricingState.prepaid _).andThen NoFree.of_prepaid hnoFree fun _ => ?_
    refine ((keeps_unbilled_setupBilledTime env).part PricingState.prepaid fun _ => rfl :
      Keeps PricingState.prepaid _).andThen NoFree.of_prepaid hnoFree fun _ => ?_
    refine triple_bind (R := fun _ s => Settled terms added (freePart s))
      (triple_onlyIf (fun _ => (triple_setupPackagePrepaid hterms fun s hs => hs).pre hnoFree)
        fun _ => hnoFree) fun _ => ?_
    refine triple_bind (hcost (keeps_uninterconnected_setupInterconnect.part freePart
      fun _ => rfl)) fun _ => ?_
    exact hcost (keeps_uncosted_withCost.part freePart fun _ => rfl)
  case isFalse =>
    split
    case isTrue =>
      refine triple_deref hnoFree fun nnpPackage _ => ?_
      refine (keeps_modifyCall fun _ => rfl : Keeps PricingState.prepaid _).andThen
        NoFree.of_prepaid hnoFree fun _ => ?_
      refine Triple.pre ?_ hnoFree
      refine triple_bind (hcost ((keeps_uninterconnected_setupNNPInterconnect env).part freePart
        fun _ => rfl)) fun _ => ?_
      exact hcost (keeps_uncosted_withCost.part freePart fun _ => rfl)
    case isFalse => exact triple_throw hnoFree

/-- **What a leg takes from free minutes**, however its pricing ends. -/
theorem settled_tariffication {s₀ : PricingState} (hterms : TermsKept terms env.repository.data)
    (hs₀ : Unpriced s₀) (hnoFree : NoFree terms added s₀)
    (htariff : s₀.callInfo.mainTariff = none) :
    Settled terms added (freePart (exec (tariffication env) s₀).2) := by
  have hends : ∀ {P : PricingState → Prop} {x : Pricing Unit} {s : PricingState},
      Triple P x (fun _ s => Settled terms added (freePart s))
        (fun s => Settled terms added (freePart s)) → P s →
      Settled terms added (freePart (exec x s).2) := by
    intro P x s hx hs
    have hresult := hx s hs
    generalize exec x s = result at hresult
    match result with
    | (.ok _, s') => exact hresult
    | (.error _, s') => exact hresult
  refine @tariffication_ends env s₀ (fun s => Settled terms added (freePart s)) hs₀
    (fun s hs => hs) ?_ ?_ ?_
  · intro s _ hkept
    have hprepaid : s.prepaid = s₀.prepaid :=
      (congrArg PricingState.prepaid hkept : s.unsettled.prepaid = s₀.unsettled.prepaid)
    exact (hnoFree.of_prepaid hprepaid).settled
  · intro trunk server serviceNumber account s hleg hof
    obtain ⟨⟨number, hfound⟩, haccount⟩ := of_legPath_byNumber hleg
    obtain ⟨hid, hlines⟩ := hterms.service _ _ serviceNumber hfound
    refine hends (triple_chargeByNumber hterms hid hlines _) ?_
    have hprepaid : s.prepaid = s₀.prepaid :=
      (congrArg PricingState.prepaid hof.bill : s.bill.prepaid = s₀.bill.prepaid)
    have htime : s.callInfo.call.connectTime = s₀.callInfo.call.connectTime :=
      congrArg (fun p => p.callInfo.call.connectTime) hof.bill
    refine ⟨hnoFree.of_prepaid hprepaid, hof.ofService, hof.numberServiceId, ?_, ?_⟩
    · rw [hof.month, htime, hterms.account _ _ serviceNumber account hfound haccount]
    · intro tariff hmain
      have hkept := congrArg (fun p => p.callInfo.mainTariff) hof.bill
      exact absurd (hmain.symm.trans (hkept.trans htariff)) (by simp)
  · intro trunk order account s _ hof
    have hprepaid : s.prepaid = s₀.prepaid :=
      (congrArg PricingState.prepaid hof.unsettled : s.unsettled.prepaid = s₀.unsettled.prepaid)
    exact hends (triple_chargeByTrunk hterms _) (hnoFree.of_prepaid hprepaid)

end Leg

/-! ## Runs -/

/-- A call is priced with the tables as they are then, and added. -/
def billCall (s : PricingSys) (call : BillingEnv × Leg) : Option PricingSys :=
  PricingSys.step call.1 s call.2

section Run

variable {terms : Int → ServiceTerms} {s t : PricingSys}

/-- Adding a settled leg books what it has taken. -/
theorem Settled.add {priced : PricingState} (h : Settled terms s.added (freePart priced)) :
    FreeminInv terms (s.add priced).added (s.add priced).billingData.statsFreemin := by
  suffices hadd : FreeminInv terms (s.added ++ [priced.callInfo.call])
      (StatsFreeminManager.add priced.billingData.statsFreemin priced.callInfo) by
    -- a full partition is closed, which changes no row
    rcases priced.billingData.addCall_cases priced.callInfo with heq | heq
    · exact hadd.congr (by rw [PricingSys.add, heq]; rfl) (by rw [PricingSys.add, heq]; rfl)
        (by rw [PricingSys.add, heq]; rfl)
    · exact hadd.congr (by rw [PricingSys.add, heq]; rfl) (by rw [PricingSys.add, heq]; rfl)
        (by rw [PricingSys.add, heq]; rfl)
  obtain ⟨hinv, htakes⟩ := h
  by_cases hfree : priced.callInfo.call.servicePackageId = 1
  · obtain ⟨hnumber, hown, stats, hrow, hfits⟩ := htakes hfree
    exact hinv.add_row hnumber hfree ⟨hown.pos, hown.billed, hown.row⟩ hrow hfits
  · exact hinv.add_none hfree

theorem billCall_inv {call : BillingEnv × Leg} (hterms : TermsKept terms call.1.data)
    (hinv : FreeminInv terms s.added s.billingData.statsFreemin)
    (hstep : billCall s call = some t) : FreeminInv terms t.added t.billingData.statsFreemin := by
  obtain ⟨priced, hcalc, rfl⟩ := Option.map_eq_some_iff.mp hstep
  have hpackage : (s.start call.2).callInfo.call.servicePackageId ≠ 1 := by
    show (0 : Int) ≠ 1
    decide
  have hsettled := @settled_tariffication terms s.added (call.2.pricingEnv call.1)
    (s.start call.2) hterms (s.start_unpriced call.2) ⟨hinv, hpackage⟩ rfl
  rw [← eq_of_calcLeg hcalc] at hsettled
  exact hsettled.add

/-- **Free minutes are conserved.**  In every run whose tables keep the terms of each
number service there is one row for a service and a month, every row counts the seconds of
the calls that carry its id, and no more than the allowance of the service, and every
such call takes some of its billed seconds from the row of its own service and month. -/
theorem free_minutes_conserved {calls : List (BillingEnv × Leg)}
    (hempty : s.billingData.statsFreemin = UsageManager.empty) (hadded : s.added = [])
    (hterms : ∀ call ∈ calls, TermsKept terms call.1.data)
    (hrun : run billCall s calls = some t) :
    (∀ (i i' : Int) (stats stats' : StatsFreemin),
      t.billingData.statsFreemin.rows[i]? = some stats →
      t.billingData.statsFreemin.rows[i']? = some stats' →
      stats.serviceNumberId = stats'.serviceNumberId → stats.monthDt = stats'.monthDt → i = i') ∧
    (∀ (i : Int) (stats : StatsFreemin), t.billingData.statsFreemin.rows[i]? = some stats →
      stats.id = i ∧ stats.usedSeconds = takenSeconds freeminOf i t.added ∧
        takenSeconds freeminOf i t.added ≤ (terms stats.serviceNumberId).freeSeconds) ∧
    ∀ call ∈ t.added, call.servicePackageId = 1 →
      0 < call.packageTime ∧ call.packageTime ≤ call.billedTime ∧
        ∃ stats, t.billingData.statsFreemin.rows[call.servicePackageStatsId]? = some stats ∧
          stats.serviceNumberId = call.numberServiceId ∧ stats.monthDt = monthOf terms call := by
  have hstart : FreeminInv terms s.added s.billingData.statsFreemin := by
    rw [hempty, hadded]
    exact FreeminInv.empty
  have hstep : ∀ (s : PricingSys) (call : BillingEnv × Leg) (s' : PricingSys),
      FreeminInv terms s.added s.billingData.statsFreemin → TermsKept terms call.1.data →
      billCall s call = some s' → FreeminInv terms s'.added s'.billingData.statsFreemin :=
    fun s call s' hinv hkept => billCall_inv hkept hinv
  have hinv : FreeminInv terms t.added t.billingData.statsFreemin :=
    run_invariant_of_meets hstep hstart (meets_of_forall (fun call hcall _ => hterms call hcall) s)
      hrun
  refine ⟨hinv.unique, fun i stats hrow => ?_, fun call hcall hfree => ?_⟩
  · obtain ⟨-, hid, hused⟩ := hinv.books.row i stats hrow
    have hgranted := hinv.granted i stats hrow
    have hused' : stats.usedSeconds = takenSeconds freeminOf i t.added := hused
    exact ⟨hid, hused', hused' ▸ hgranted⟩
  · obtain ⟨hpos, hbilled, hrow⟩ := hinv.taken call hcall hfree
    exact ⟨hpos, hbilled, hrow⟩

end Run

/-- A number of a version 4 account with one free minute a month, in a city of which all
calls are local. -/
def freeTables : DataContainer where
  trunkByName := fun _ _ => some { id := 1, serverId := 1, ourTrunk := true, authByNumber := true }
  server := fun _ => some { id := 1 }
  instanceSettings := fun _ => some { id := 1, cityId := 7 }
  client := fun _ => some { id := 3, accountVersion := 4 }
  serviceNumber := fun _ _ => some { id := 9, clientAccountId := 3, linesCount := 2 }
  tariffChangeLog := fun _ _ => some {}
  tariff := fun _ => some { id := 12, pricelistId := 5, freemin := 1, freeminForNumber := true }
  pricelist := fun _ => some { id := 5 }
  pricelistPrice := fun _ _ _ => some { price := 1 }
  geoPrefix := fun _ => some { geoId := 6 }
  geo := fun _ => some { cityId := 7 }

def freeTerms (_ : Int) : ServiceTerms where
  tariff := { id := 12, pricelistId := 5, freemin := 1, freeminForNumber := true }
  linesCount := 2
  timezoneOffset := 0

/-- A local call of 45 seconds. -/
def localLeg : Leg where
  cdr := { connectTime := 1000, sessionTime := 45, dstNumber := ['7', '9'], srcRoute := ['t'] }
  orig := true

theorem freeTables_kept : TermsKept freeTerms freeTables where
  service := by
    intro number time serviceNumber h
    rw [← Option.some.inj h]
    exact ⟨by decide, rfl⟩
  account := by
    intro number time serviceNumber account _ h
    rw [← Option.some.inj h]
    rfl
  tariff := by
    intro serviceId time log tariff _ h
    exact (Option.some.inj h).symm
  package := by simp [freeTables]

/-- Two calls share the free minute of the month. -/
theorem free_minutes_of_twoCalls :
    ∃ t, run billCall PricingSys.empty [({ data := freeTables }, localLeg),
        ({ data := freeTables }, localLeg)] = some t ∧
      t.added.map (·.packageTime) = [45, 15] ∧
      ∀ (i : Int) (stats : StatsFreemin), t.billingData.statsFreemin.rows[i]? = some stats →
        stats.usedSeconds = takenSeconds freeminOf i t.added ∧ stats.usedSeconds ≤ 60 := by
  have htimes : (run billCall PricingSys.empty [({ data := freeTables }, localLeg),
      ({ data := freeTables }, localLeg)]).map (fun t => t.added.map (·.packageTime)) =
        some [45, 15] := by
    decide +kernel
  obtain ⟨t, hrun, hadded⟩ := Option.map_eq_some_iff.mp htimes
  have hterms : ∀ call ∈ [(({ data := freeTables } : BillingEnv), localLeg),
      ({ data := freeTables }, localLeg)], TermsKept freeTerms call.1.data := by
    simp [freeTables_kept]
  obtain ⟨-, hrows, -⟩ := free_minutes_conserved rfl rfl hterms hrun
  refine ⟨t, hrun, hadded, fun i stats hrow => ?_⟩
  obtain ⟨-, hused, hle⟩ := hrows i stats hrow
  exact ⟨hused, hused ▸ hle⟩

end Freemin
end VoipBill
