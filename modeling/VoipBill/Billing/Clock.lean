import VoipBill.Billing.Calc
import VoipBill.Billing.CounterLookup
import VoipBill.Billing.LegFindings
import VoipBill.Billing.Steady

/-!
# Billing at two times

The tables are read as of the connect time of a CDR, so that billing it later
gives the same calls.  Two places read the clock instead: the trunk services a
mega trunk is recognised by are tested against `time(nullptr)`, and so are the
counters of the current calls in the search for a package minute.

Which counters a leg looks up can be read off the tables and its numbers:
`BillingCall.consultedLights`, the connected tariffs of the number that an
originating leg is charged to.

`calcCdr_of_sameClock`: a CDR with a connect time is billed alike at two times if
no trunk service that matters for its numbers begins or ends between them, and
the counters of the current calls that its originating leg looks up read the same.
-/

namespace VoipBill

open Lib Lib.Hoare

/-! ## Lookups in the counters of the current calls -/

namespace UsageManager

variable {ρ : Type} {id key : ρ → Int} {m : UsageManager ρ} {isCurrent : ρ → Bool}

/-- A row under an id that is not listed is not found. -/
theorem findSome?_insert {ids : List Int} {i : Int} (hids : i ∉ ids) (row : ρ) :
    (ids.findSome? fun i' => (m.rows.insert i row)[i']?.filter isCurrent) =
      ids.findSome? fun i' => m.rows[i']?.filter isCurrent := by
  induction ids with
  | nil => rfl
  | cons i' ids ih =>
      obtain ⟨hne, hids⟩ := List.ne_and_not_mem_of_not_mem_cons hids
      rw [List.findSome?_cons, List.findSome?_cons, ih hids, IntMap.getElem?_insert_of_ne _ hne]

/-- The next id is not listed. -/
theorem next_notMem (h : Indexed id key m) (k : Int) :
    m.lastStatId + 1 ∉ m.statsByKey[k]?.getD [] := by
  intro hmem
  obtain ⟨stats, hrow, -⟩ := h.listed k _ hmem
  rw [h.ids.next] at hrow
  exact absurd hrow (by simp)

/-- What is found after a lookup that created a row. -/
theorem findCurrent_create (h : Indexed id key m) {k : Int} {createStats : Int → ρ}
    (hfind : m.findCurrent k isCurrent = none) (k' : Int) :
    (m.getCurrent k isCurrent createStats).2.findCurrent k' isCurrent =
      if k = k' then (some (createStats (m.lastStatId + 1))).filter isCurrent
      else m.findCurrent k' isCurrent := by
  rw [getCurrent_of_none hfind]
  simp only [findCurrent, putRow, Ledger.put_rows, IntMap.getElem?_insert]
  by_cases hkey : k = k'
  · subst hkey
    rw [if_pos rfl, if_pos rfl, Option.getD_some, List.findSome?_cons, if_pos rfl]
    cases hrow : (some (createStats (m.lastStatId + 1))).filter isCurrent with
    | some stats => rfl
    | none =>
        -- the new row is not current: the rows that were there are searched as before
        simp only [← IntMap.getElem?_insert]
        rw [findSome?_insert (next_notMem h k)]
        exact hfind
  · rw [if_neg hkey, if_neg hkey]
    simp only [← IntMap.getElem?_insert]
    exact findSome?_insert (next_notMem h k') _

end UsageManager

namespace StatsNNPPackageMinuteManager

variable {m : StatsNNPPackageMinuteManager}

theorem indexed_getCurrent (h : Indexed kind.id kind.key m) (t : Int)
    (nnpPackageMinute : NNPPackageMinute) (light : NNPAccountTariffLight) :
    Indexed kind.id kind.key (getCurrent m t nnpPackageMinute light).2 :=
  Indexed.getCurrent h fun _ => ⟨rfl, rfl⟩

/-- A lookup does not change what is used at its time: a row it creates has
nothing used. -/
theorem getUsedSeconds_getCurrent (h : Indexed kind.id kind.key m) (t : Int)
    (nnpPackageMinute : NNPPackageMinute) (light : NNPAccountTariffLight) (lightId y : Int) :
    getUsedSeconds (getCurrent m t nnpPackageMinute light).2 lightId y t =
      getUsedSeconds m lightId y t := by
  cases hfind : m.findCurrent light.id (isCurrent t) with
  | some stats => rw [getCurrent, UsageManager.getCurrent_of_some hfind]
  | none =>
      simp only [getUsedSeconds, getCurrent, UsageManager.findCurrent_create h hfind]
      by_cases hkey : light.id = lightId
      · subst hkey
        rw [if_pos rfl, hfind, Option.filter_some]
        split
        case h_1 stats hrow =>
          split at hrow
          · rw [← Option.some.inj hrow]
            rfl
          · exact absurd hrow (by simp)
        case h_2 => rfl
      · rw [if_neg hkey]

/-- Two states of the counters read the same for some connected tariffs, each at its
own time. -/
structure SameReadings (t₁ t₂ : Int) (lightIds : Set Int)
    (m₁ m₂ : StatsNNPPackageMinuteManager) : Prop where
  index₁ : Indexed kind.id kind.key m₁
  index₂ : Indexed kind.id kind.key m₂
  used : ∀ lightId ∈ lightIds, ∀ y,
    getUsedSeconds m₁ lightId y t₁ = getUsedSeconds m₂ lightId y t₂

/-- A lookup of any connected tariff keeps what is read for these. -/
theorem SameReadings.getCurrent {t₁ t₂ : Int} {lightIds : Set Int}
    {m₁ m₂ : StatsNNPPackageMinuteManager} (h : SameReadings t₁ t₂ lightIds m₁ m₂)
    (nnpPackageMinute : NNPPackageMinute) (light : NNPAccountTariffLight) :
    SameReadings t₁ t₂ lightIds (getCurrent m₁ t₁ nnpPackageMinute light).2
      (getCurrent m₂ t₂ nnpPackageMinute light).2 where
  index₁ := indexed_getCurrent h.index₁ t₁ nnpPackageMinute light
  index₂ := indexed_getCurrent h.index₂ t₂ nnpPackageMinute light
  used := by
    intro lightId hlight y
    rw [getUsedSeconds_getCurrent h.index₁, getUsedSeconds_getCurrent h.index₂]
    exact h.used lightId hlight y

end StatsNNPPackageMinuteManager

/-! ## The counters that a leg looks up -/

namespace BillingCall

/-- The connected tariffs that a search for a package minute looks up: those with a
package minute for one of the destinations. -/
def searchedLights (env : PricingEnv) (lights : List NNPAccountTariffLight)
    (nnpDestinationIds : List Int) : List NNPAccountTariffLight :=
  ((packageMinutesOf env lights).filter fun nnpPackageMinute =>
    nnpDestinationIds.contains nnpPackageMinute.nnpDestinationId).filterMap fun nnpPackageMinute =>
      lightOfTariff lights nnpPackageMinute.nnpTariffId

/-- The connected tariffs that an originating leg looks up.  Only a leg by number of a
version 5 account does: those connected to its number at the connect time, if it is
charged at all. -/
def consultedLights (env : PricingEnv) (s : PricingState) : List NNPAccountTariffLight :=
  match legObjects env true with
  | none => []
  | some (trunk, server, _) =>
      if (trunk.authByNumber || isNeedForceCalcByNumber env true) && !isServiceCall env server &&
          !isForceOrigTarifficationSkip env then
        match numberAccount env trunk (ownNumber env trunk true s.numbers) with
        | none => []
        | some (serviceNumber, account) =>
            if account.accountVersion = 5 then
              searchedLights env
                (env.repository.data.nnpAccountTariffLight.findAllActiveByClientID account.id
                  s.callInfo.call.connectTime serviceNumber.id)
                (destinationsOf env s.numberRanges (legNumbers env trunk true s.numbers).2)
            else []
      else []

end BillingCall

/-! ## Pricing a leg at two times -/

open StatsNNPPackageMinuteManager (SameReadings)

namespace BillingCall

variable (env : PricingEnv) (t₁ t₂ : Int)

/-! The steps that take packages do not read the clock. -/

theorem choosePackage_now (callInfo : CallInfo) (account : Client)
    (packages : List ServicePackage) (best : Option PrepaidChoice) (m : StatsPackageManager) :
    choosePackage { env with now := t₁ } callInfo account packages best m =
      choosePackage env callInfo account packages best m := by
  induction packages generalizing best m with
  | nil => rfl
  | cons servicePackage packages ih =>
      simp only [choosePackage, ih]
      rfl

theorem setupPackagePrepaid_now :
    setupPackagePrepaid { env with now := t₁ } = setupPackagePrepaid env := by
  simp only [setupPackagePrepaid, choosePackage_now]
  rfl

theorem calcOrigByNumberV4_now :
    calcOrigByNumberV4 { env with now := t₁ } = calcOrigByNumberV4 env := by
  unfold calcOrigByNumberV4
  rw [setupPackagePrepaid_now]
  rfl

theorem calcByTrunkV4_now (orig : Bool) :
    calcByTrunkV4 { env with now := t₁ } orig = calcByTrunkV4 env orig := by
  unfold calcByTrunkV4
  rw [setupPackagePrepaid_now]
  rfl

theorem calcByTrunk_now : calcByTrunk { env with now := t₁ } = calcByTrunk env := by
  unfold calcByTrunk calcTrunkService
  simp only [calcByTrunkV4_now]
  rfl

/-! What is found out about the leg before it is charged does not, either. -/

theorem steady_beforeCharging (orig : Bool) : Steady (beforeCharging env orig) := by
  unfold beforeCharging
  exact steady_bind (steady_setupTrunk env) fun _ => steady_classification env orig

theorem steady_beforeChargeByNumber : Steady (beforeChargeByNumber env) := by
  unfold beforeChargeByNumber
  refine steady_bind steady_getCall fun _ => ?_
  refine steady_bind (steady_onlyIf (steady_modifyCall _)) fun _ => ?_
  refine steady_bind (steady_setupServiceNumber env) fun _ => ?_
  exact steady_bind (steady_setupServiceTrunkForNumber env) fun _ => steady_setupAccount env

section TwoTimes

variable {env t₁ t₂} {lightIds : Set Int} {s t : PricingState}

/-- Both runs read the same leg. -/
theorem simAt_getCallInfo {β : Type} {g g' : CallInfo → Pricing β}
    (h : Apart (SameReadings t₁ t₂ lightIds) s t)
    (hg : SimAt (Apart (SameReadings t₁ t₂ lightIds)) (g s.callInfo) (g' s.callInfo) s t) :
    SimAt (Apart (SameReadings t₁ t₂ lightIds)) (getCallInfo >>= g) (getCallInfo >>= g') s t := by
  obtain ⟨m, rfl, -⟩ := h
  exact hg

theorem sim_minuteCandidate (nnpPackageMinute : NNPPackageMinute) {light : NNPAccountTariffLight}
    (hlight : light.id ∈ lightIds) :
    Sim (Apart (SameReadings t₁ t₂ lightIds))
      (minuteCandidate { env with now := t₁ } nnpPackageMinute light)
      (minuteCandidate { env with now := t₂ } nnpPackageMinute light) := by
  rintro s t ⟨m, rfl, hread⟩
  refine ⟨?_, _, rfl, hread.getCurrent nnpPackageMinute light⟩
  have hused : (StatsNNPPackageMinuteManager.getCurrent s.currentNNPPackageMinute t₁
        nnpPackageMinute light).1.usedSeconds =
      (StatsNNPPackageMinuteManager.getCurrent m t₂ nnpPackageMinute light).1.usedSeconds := by
    rw [← StatsNNPPackageMinuteManager.getUsedSeconds_eq _ light nnpPackageMinute 0,
      ← StatsNNPPackageMinuteManager.getUsedSeconds_eq _ light nnpPackageMinute 0]
    exact hread.used light.id hlight 0
  simp only [minuteCandidate, exec_bind, exec_get, exec_modify, exec_pure, hused,
    PricingState.withCurrent]
  rfl

theorem sim_minuteCandidates {lights : List NNPAccountTariffLight} {nnpDestinationIds : List Int}
    {minutes : List NNPPackageMinute}
    (h : ∀ nnpPackageMinute ∈ minutes,
      nnpDestinationIds.contains nnpPackageMinute.nnpDestinationId = true →
      ∀ light, lightOfTariff lights nnpPackageMinute.nnpTariffId = some light →
        light.id ∈ lightIds) :
    Sim (Apart (SameReadings t₁ t₂ lightIds))
      (minuteCandidates { env with now := t₁ } lights nnpDestinationIds minutes)
      (minuteCandidates { env with now := t₂ } lights nnpDestinationIds minutes) := by
  induction minutes with
  | nil => exact sim_pure []
  | cons nnpPackageMinute minutes ih =>
      have hrest := ih fun minute hminute => h minute (List.mem_cons_of_mem _ hminute)
      unfold minuteCandidates
      by_cases hdestination :
          nnpDestinationIds.contains nnpPackageMinute.nnpDestinationId = true
      · rw [if_pos hdestination, if_pos hdestination]
        intro s t hst
        refine SimAt.bind (steady_deref _ _ s t hst) fun light s' t' hexec hst' => ?_
        have hlight := h nnpPackageMinute List.mem_cons_self hdestination light
          (eq_some_of_exec_deref hexec)
        exact sim_bind (sim_minuteCandidate nnpPackageMinute hlight)
          (fun _ => sim_bind hrest fun _ => sim_pure _) s' t' hst'
      · rw [if_neg hdestination, if_neg hdestination]
        exact hrest

theorem mem_searchedLights {lights : List NNPAccountTariffLight} {nnpDestinationIds : List Int}
    {nnpPackageMinute : NNPPackageMinute} {light : NNPAccountTariffLight}
    (hminute : nnpPackageMinute ∈ packageMinutesOf env lights)
    (hdestination : nnpDestinationIds.contains nnpPackageMinute.nnpDestinationId = true)
    (hlight : lightOfTariff lights nnpPackageMinute.nnpTariffId = some light) :
    light ∈ searchedLights env lights nnpDestinationIds :=
  List.mem_filterMap.mpr ⟨_, List.mem_filter.mpr ⟨hminute, hdestination⟩, hlight⟩

/-- The search for a package minute, when the readings agree on what it looks up. -/
theorem sim_setupNNPPackageMinute {lights : List NNPAccountTariffLight}
    {nnpDestinationIds : List Int}
    (h : ∀ light ∈ searchedLights env lights nnpDestinationIds, light.id ∈ lightIds) :
    Sim (Apart (SameReadings t₁ t₂ lightIds))
      (setupNNPPackageMinute { env with now := t₁ } lights nnpDestinationIds)
      (setupNNPPackageMinute { env with now := t₂ } lights nnpDestinationIds) := by
  unfold setupNNPPackageMinute
  refine sim_bind (sim_minuteCandidates ?_) fun _ => sim_pure _
  exact fun minute hminute hdestination light hlight =>
    h light (mem_searchedLights hminute hdestination hlight)

variable {s₀ : PricingState} {trunk : Trunk} {server : Server} {serviceNumber : ServiceNumber}
  {account : Client}

theorem simAt_calcOrigNNPByNumber (hof : OfNumber env s₀ trunk server serviceNumber account s)
    (hlights : ∀ light ∈ searchedLights env
        (env.repository.data.nnpAccountTariffLight.findAllActiveByClientID account.id
          s₀.callInfo.call.connectTime serviceNumber.id)
        (destinationsOf env s₀.numberRanges s.callInfo.call.dstNumber), light.id ∈ lightIds)
    (h : Apart (SameReadings t₁ t₂ lightIds) s t) :
    SimAt (Apart (SameReadings t₁ t₂ lightIds)) (calcOrigNNPByNumber { env with now := t₁ })
      (calcOrigNNPByNumber { env with now := t₂ }) s t := by
  have htime : s.callInfo.call.connectTime = s₀.callInfo.call.connectTime :=
    congrArg (fun p => p.callInfo.call.connectTime) hof.bill
  unfold calcOrigNNPByNumber
  refine simAt_getCallInfo h ?_
  rw [hof.ofService, hof.accountId, htime]
  refine SimAt.bind (steady_orThrow _ _ _ s t h) fun serviceNumber' s' t' hservice h' => ?_
  obtain ⟨hsame, rfl⟩ := Prod.mk.inj hservice
  obtain rfl : serviceNumber = serviceNumber' := Except.ok.inj hsame
  refine simAt_ite (fun _ => sim_throw _ _ _ h') fun _ => ?_
  refine SimAt.bind (steady_getNNPNumberRange env _ _ s t' h') fun range s' t'' hrange h'' => ?_
  obtain ⟨hfound, rfl⟩ := Prod.mk.inj hrange
  have hdestinations : env.repository.getNNPDestinationByNumberRange range =
      destinationsOf env s₀.numberRanges s.callInfo.call.dstNumber := by
    rw [← hof.destinations, ← Except.ok.inj hfound]
    rfl
  dsimp only
  rw [hdestinations]
  refine sim_bind (sim_setupNNPPackageMinute hlights) (fun _ => ?_) _ _ h''
  refine sim_bind (steady_modifyCall _ _) fun _ => sim_bind (steady_modifyCall _ _) fun _ => ?_
  exact sim_bind (steady_applyMinute env _ _ _) fun _ => steady_modifyCall _ _

theorem simAt_chargeByNumber (fTarifficationSkip : Bool)
    (hof : OfNumber env s₀ trunk server serviceNumber account s)
    (hlights : s₀.callInfo.call.orig = true → isServiceCall env server = false →
      fTarifficationSkip = false → account.accountVersion = 5 →
      ∀ light ∈ searchedLights env
        (env.repository.data.nnpAccountTariffLight.findAllActiveByClientID account.id
          s₀.callInfo.call.connectTime serviceNumber.id)
        (destinationsOf env s₀.numberRanges s.callInfo.call.dstNumber), light.id ∈ lightIds)
    (h : Apart (SameReadings t₁ t₂ lightIds) s t) :
    SimAt (Apart (SameReadings t₁ t₂ lightIds))
      (chargeByNumber { env with now := t₁ } fTarifficationSkip)
      (chargeByNumber { env with now := t₂ } fTarifficationSkip) s t := by
  have horig : s.callInfo.call.orig = s₀.callInfo.call.orig :=
    congrArg (fun p => p.callInfo.call.orig) hof.bill
  unfold chargeByNumber
  refine simAt_getCallInfo h ?_
  rw [hof.onServer, horig]
  cases hleg : s₀.callInfo.call.orig with
  | false => exact steady_calcTermByNumber env _ s t h
  | true =>
      refine SimAt.bind (steady_deref _ _ s t h) fun server' s' t' hserver h' => ?_
      obtain ⟨hsame, rfl⟩ := Prod.mk.inj hserver
      obtain rfl : server = server' := Except.ok.inj hsame
      refine simAt_ite (fun _ => steady_modifyCall _ _ s t' h') fun hcall => ?_
      cases fTarifficationSkip with
      | true => exact sim_pure () s t' h'
      | false =>
          show SimAt _ (calcOrigByNumber _) (calcOrigByNumber _) s t'
          unfold calcOrigByNumber
          refine SimAt.bind (steady_getCall _ s t' h') fun call s' t'' hget h'' => ?_
          obtain ⟨hsame, rfl⟩ := Prod.mk.inj hget
          obtain rfl : s.callInfo.call = call := Except.ok.inj hsame
          rw [hof.accountVersion]
          -- only an account of version 5 looks at package minutes
          refine simAt_ite (fun hversion => ?_) fun _ => ?_
          · exact simAt_calcOrigNNPByNumber hof
              (hlights hleg (Bool.eq_false_iff.mpr hcall) rfl hversion) h''
          · rw [calcOrigByNumberV4_now env t₁, calcOrigByNumberV4_now env t₂]
            exact sim_ite (steady_calcOrigByNumberV4 env _) (sim_throw _) s t'' h''

/-- What a classified leg is charged, by number or by trunk. -/
theorem simAt_charging (hclass : Classified env s₀ trunk server s) {settings : InstanceSettings}
    (hobjects : legObjects env s₀.callInfo.call.orig = some (trunk, server, settings))
    (hlights : s₀.callInfo.call.orig = true →
      ∀ light ∈ consultedLights env s₀, light.id ∈ lightIds)
    (h : Apart (SameReadings t₁ t₂ lightIds) s t) :
    SimAt (Apart (SameReadings t₁ t₂ lightIds))
      (charging { env with now := t₁ } s₀.callInfo.call.orig)
      (charging { env with now := t₂ } s₀.callInfo.call.orig) s t := by
  unfold charging
  refine simAt_getCallInfo h ?_
  rw [hclass.onTrunk]
  refine SimAt.bind (steady_deref _ _ s t h) fun trunk' s' t' htrunk h' => ?_
  obtain ⟨hsame, rfl⟩ := Prod.mk.inj htrunk
  obtain rfl : trunk = trunk' := Except.ok.inj hsame
  rw [calcByTrunk_now env t₁, calcByTrunk_now env t₂, calcByNumber_eq, calcByNumber_eq]
  refine simAt_ite (fun hnumber => ?_) fun _ => steady_calcByTrunk env _ s t' h'
  refine SimAt.bind (steady_beforeChargeByNumber env _ s t' h') fun _ s' t'' hexec h'' => ?_
  rcases beforeChargeByNumber_cases hclass with
    ⟨-, message, s'', hstop, -⟩ | ⟨serviceNumber, account, s'', haccount, hof, hexec'⟩
  · exact absurd (hexec.symm.trans hstop) (by simp)
  · obtain rfl : s' = s'' := congrArg Prod.snd (hexec.symm.trans hexec')
    refine simAt_chargeByNumber _ hof ?_ h''
    intro horig hcall hskip hversion light hlight
    refine hlights horig light ?_
    have hdst := hof.dstNumber
    rw [horig] at hobjects haccount hdst
    have hnumber : (trunk.authByNumber || isNeedForceCalcByNumber env true) = true :=
      horig ▸ hnumber
    have hskip : isForceOrigTarifficationSkip env = false := hskip
    simp only [consultedLights, hobjects, haccount, hnumber, hcall, hskip, hversion,
      Bool.not_false, Bool.and_true, if_true]
    rw [← hdst]
    exact hlight

/-- Pricing does the same at two times if the counters of the current calls read
the same for the connected tariffs it looks up. -/
theorem simAt_tariffication
    (hlights : s.callInfo.call.orig = true →
      ∀ light ∈ consultedLights env s, light.id ∈ lightIds)
    (h : Apart (SameReadings t₁ t₂ lightIds) s t) :
    SimAt (Apart (SameReadings t₁ t₂ lightIds)) (tariffication { env with now := t₁ })
      (tariffication { env with now := t₂ }) s t := by
  rw [tariffication_eq, tariffication_eq]
  refine SimAt.bind (steady_getCall _ s t h) fun call s' t' hget h' => ?_
  obtain ⟨hsame, rfl⟩ := Prod.mk.inj hget
  obtain rfl : s.callInfo.call = call := Except.ok.inj hsame
  refine SimAt.bind (steady_beforeCharging env _ _ s t' h') fun _ s' t'' hexec h'' => ?_
  rcases beforeCharging_cases env s with
    ⟨-, message, s'', hstop, -⟩ | ⟨trunk, server, settings, s'', hobjects, hclass, hexec'⟩
  · exact absurd (hexec.symm.trans hstop) (by simp)
  · obtain rfl : s' = s'' := congrArg Prod.snd (hexec.symm.trans hexec')
    refine SimAt.bind (simAt_charging hclass hobjects hlights h'') fun _ s' t' _ h' => ?_
    exact steady_modifyCallInfo _ _ s' t' h'

/-- What happens to a leg at two times: the process ends at both, or the leg is
priced alike. -/
theorem rel_calcLeg
    (hlights : s.callInfo.call.orig = true →
      ∀ light ∈ consultedLights env s, light.id ∈ lightIds)
    (h : Apart (SameReadings t₁ t₂ lightIds) s t) :
    Option.Rel (Apart (SameReadings t₁ t₂ lightIds)) (calcLeg { env with now := t₁ } s)
      (calcLeg { env with now := t₂ } t) := by
  obtain ⟨hvalue, hstate⟩ := @simAt_tariffication env t₁ t₂ lightIds s t hlights h
  unfold calcLeg
  generalize exec (tariffication { env with now := t₁ }) s = left at hvalue hstate
  generalize exec (tariffication { env with now := t₂ }) t = right at hvalue hstate
  obtain ⟨left, s'⟩ := left
  obtain ⟨right, t'⟩ := right
  change left = right at hvalue
  subst hvalue
  match left with
  | .ok _ => exact .some hstate
  | .error (.calcException _) => exact .some hstate
  | .error .nullPointer => exact .none

end TwoTimes
end BillingCall

/-! ## The mega trunk at two times -/

namespace MegaTrunk

variable (r : Repository) (state : Prepared) {t₁ t₂ : Int}

/-- The trunk services whose validity decides how the legs are charged. -/
def decisive : List ServiceTrunk :=
  match state.srcTrunk with
  | none => []
  | some srcTrunk =>
      (state.serviceNumberNumB.elim [] fun serviceNumberNumB =>
          (r.data.serviceTrunkByClientId serviceNumberNumB.clientAccountId).filter
            (terminates serviceNumberNumB)) ++
        state.serviceNumberNumA.elim [] fun serviceNumberNumA =>
          (r.data.serviceTrunkByClientId serviceNumberNumA.clientAccountId).filter
            fun serviceTrunk =>
              leavesRegion r srcTrunk serviceNumberNumA serviceTrunk ||
                comesFrom state srcTrunk serviceNumberNumA serviceTrunk

variable {r state}

/-- A loop that tests decisive services only gives the same at both times. -/
theorem anyInForce_congr {test : Trunk → ServiceNumber → ServiceTrunk → Bool}
    (h : ∀ serviceTrunk ∈ decisive r state,
      serviceTrunk.isInForce t₁ = serviceTrunk.isInForce t₂)
    (htest : ∀ srcTrunk serviceNumberNumA serviceTrunk,
      test srcTrunk serviceNumberNumA serviceTrunk = true →
        (leavesRegion r srcTrunk serviceNumberNumA serviceTrunk ||
          comesFrom state srcTrunk serviceNumberNumA serviceTrunk) = true) :
    anyInForce r state t₁ test = anyInForce r state t₂ test := by
  unfold anyInForce
  split
  case h_2 => rfl
  case h_1 srcTrunk serviceNumberNumA hsrc hnumA =>
    rw [Bool.eq_iff_iff, List.any_eq_true, List.any_eq_true]
    refine exists_congr fun serviceTrunk => and_congr_right fun hmem => ?_
    by_cases htrue : test srcTrunk serviceNumberNumA serviceTrunk = true
    · have hdecisive : serviceTrunk ∈ decisive r state := by
        simp only [decisive, hsrc, hnumA, Option.elim_some, List.mem_append, List.mem_filter]
        exact Or.inr ⟨hmem, htest _ _ _ htrue⟩
      rw [h serviceTrunk hdecisive]
    · simp [htrue]

theorem phaseOfNumB_congr {srcTrunk : Trunk} {serviceNumberNumB : ServiceNumber}
    (hsrc : state.srcTrunk = some srcTrunk)
    (hnumB : state.serviceNumberNumB = some serviceNumberNumB)
    (h : ∀ serviceTrunk ∈ decisive r state,
      serviceTrunk.isInForce t₁ = serviceTrunk.isInForce t₂) :
    phaseOfNumB r state t₁ serviceNumberNumB = phaseOfNumB r state t₂ serviceNumberNumB := by
  unfold phaseOfNumB
  congr 1
  refine List.find?_congr fun serviceTrunk hmem => ?_
  by_cases htrue : terminates serviceNumberNumB serviceTrunk = true
  · have hdecisive : serviceTrunk ∈ decisive r state := by
      simp only [decisive, hsrc, hnumB, Option.elim_some, List.mem_append, List.mem_filter]
      exact Or.inl ⟨hmem, htrue⟩
    rw [h serviceTrunk hdecisive]
  · simp [htrue]

/-- The second loop of `PhaseCalc` is about routing only. -/
theorem phaseOfNumA_flags (srcTrunk : Trunk) (serviceNumberNumA : ServiceNumber) (now : Int)
    (serviceTrunks : List ServiceTrunk) (phase : Phase) :
    (phaseOfNumA r state now srcTrunk serviceNumberNumA serviceTrunks
        phase).isNeedForceTermAuthByNumber = phase.isNeedForceTermAuthByNumber ∧
      (phaseOfNumA r state now srcTrunk serviceNumberNumA serviceTrunks
        phase).isNeedForceTermTarifficationSkip = phase.isNeedForceTermTarifficationSkip := by
  induction serviceTrunks generalizing phase with
  | nil => exact ⟨rfl, rfl⟩
  | cons serviceTrunk serviceTrunks ih =>
      unfold phaseOfNumA
      split
      · dsimp only
        split
        · exact ⟨rfl, rfl⟩
        · exact ih _
      · exact ih phase

theorem phaseCalc_flags
    (h : ∀ serviceTrunk ∈ decisive r state,
      serviceTrunk.isInForce t₁ = serviceTrunk.isInForce t₂) :
    isForceTermAuthByNumber r state t₁ = isForceTermAuthByNumber r state t₂ ∧
      isForceTermTarifficationSkip r state t₁ = isForceTermTarifficationSkip r state t₂ := by
  unfold isForceTermAuthByNumber isForceTermTarifficationSkip phaseCalc
  cases hsrc : state.srcTrunk with
  | none => exact ⟨rfl, rfl⟩
  | some srcTrunk =>
      have hnumB : state.serviceNumberNumB.bind (phaseOfNumB r state t₁) =
          state.serviceNumberNumB.bind (phaseOfNumB r state t₂) := by
        cases hnumB : state.serviceNumberNumB with
        | none => rfl
        | some serviceNumberNumB => exact phaseOfNumB_congr hsrc hnumB h
      dsimp only
      rw [hnumB]
      cases state.serviceNumberNumB.bind (phaseOfNumB r state t₂) with
      | some phase => exact ⟨rfl, rfl⟩
      | none =>
          cases state.serviceNumberNumA with
          | none => exact ⟨rfl, rfl⟩
          | some serviceNumberNumA =>
              dsimp only
              simp only [phaseOfNumA_flags, and_self]

/-- The answers about a CDR are the same at two times if no decisive service
begins or ends between them. -/
theorem answers_congr
    (h : ∀ serviceTrunk ∈ decisive r state,
      serviceTrunk.isInForce t₁ = serviceTrunk.isInForce t₂) :
    answers r state t₁ = answers r state t₂ := by
  have hauth : isForceOrgAuthByNumber r state t₁ = isForceOrgAuthByNumber r state t₂ :=
    anyInForce_congr h fun _ _ _ htest => by rw [htest, Bool.or_true]
  have hskip : isForceOrigTarifficationSkip r state t₁ = isForceOrigTarifficationSkip r state t₂ :=
    anyInForce_congr h fun _ _ _ htest => by rw [htest, Bool.true_or]
  rw [answers, answers, hauth, hskip, (phaseCalc_flags h).1]

end MegaTrunk

/-! ## A CDR at two times -/

namespace Billing

variable {env : BillingEnv} {cdr : Cdr} {t₁ t₂ : Int}

/-- The trunk services whose validity decides how the CDR is billed, as of its
connect time. -/
def decisiveServices (env : BillingEnv) (cdr : Cdr) : List ServiceTrunk :=
  let repository : Repository := ⟨env.data, cdr.connectTime⟩
  MegaTrunk.decisive repository (MegaTrunk.prepareFromCdr repository env.origRegion cdr)

/-- The leg of the CDR that is priced first, with the counters and tables before it. -/
def firstLeg (env : BillingEnv) (now : Int) (cdr : Cdr) (s : PricingSys) : Leg :=
  origLeg env now cdr (s.billingData.calls.realtimeLastId + 1)
    (s.billingData.calls.realtimeLastId + 2)

/-- The connected tariffs that the originating leg of the CDR looks up in the counters of
the current calls.  The terminating leg looks up none. -/
def consultedLights (env : BillingEnv) (now : Int) (cdr : Cdr) (s : PricingSys) :
    List NNPAccountTariffLight :=
  let leg := firstLeg env now cdr s
  BillingCall.consultedLights (leg.pricingEnv env) { s.idle with callInfo := { call := leg.call } }

/-- A CDR with a connect time reads the tables as of this time. -/
theorem repository_eq (hconnect : cdr.connectTime ≠ 0) (now : Int) :
    repository env now cdr = ⟨env.data, cdr.connectTime⟩ := by
  rw [repository, Repository.prepare, if_neg hconnect]

section SameServices

variable (hconnect : cdr.connectTime ≠ 0)
  (hservices : ∀ serviceTrunk ∈ decisiveServices env cdr,
    serviceTrunk.isInForce t₁ = serviceTrunk.isInForce t₂)

include hconnect hservices

theorem stateMegaTrunk_congr : stateMegaTrunk env t₁ cdr = stateMegaTrunk env t₂ cdr := by
  unfold stateMegaTrunk preparedMegaTrunk
  rw [repository_eq hconnect, repository_eq hconnect]
  exact MegaTrunk.answers_congr hservices

theorem isTarifficationSkip_congr :
    isTarifficationSkip env t₁ cdr = isTarifficationSkip env t₂ cdr := by
  have horig := congrArg StateMegaTrunk.isForceOrigTarifficationSkip
    (stateMegaTrunk_congr hconnect hservices)
  unfold isTarifficationSkip preparedMegaTrunk
  unfold stateMegaTrunk preparedMegaTrunk MegaTrunk.answers at horig
  dsimp only at horig
  rw [horig, repository_eq hconnect, repository_eq hconnect, (MegaTrunk.phaseCalc_flags hservices).2]

end SameServices

/-- A leg priced at another time reads the same tables. -/
theorem pricingEnv_now {leg : Leg} (hconnect : leg.cdr.connectTime ≠ 0) (now : Int) :
    ({ leg with now := now } : Leg).pricingEnv env =
      { leg.pricingEnv env with now := now } := by
  simp only [Leg.pricingEnv, Repository.prepare, if_neg hconnect]

theorem rel_calcNext {lightIds : Set Int} {leg₁ leg₂ : Leg}
    (hleg : leg₁ = { leg₂ with now := t₁ }) (hnow : leg₂.now = t₂)
    (hconnect : leg₂.cdr.connectTime ≠ 0) {s t : PricingState}
    (hlights : leg₂.orig = true →
      ∀ light ∈ BillingCall.consultedLights (leg₁.pricingEnv env)
        { s with callInfo := { call := leg₁.call } }, light.id ∈ lightIds)
    (h : Apart (SameReadings t₁ t₂ lightIds) s t) :
    Option.Rel (Apart (SameReadings t₁ t₂ lightIds)) (calcNext env s leg₁)
      (calcNext env t leg₂) := by
  subst hleg hnow
  obtain ⟨m, rfl, hread⟩ := h
  have hstart : Apart (SameReadings t₁ leg₂.now lightIds)
      { s with callInfo := { call := leg₂.call } }
      { s.withCurrent m with callInfo := { call := leg₂.call } } := ⟨m, rfl, hread⟩
  rw [pricingEnv_now hconnect t₁] at hlights
  unfold calcNext
  rw [pricingEnv_now hconnect t₁]
  exact @BillingCall.rel_calcLeg (leg₂.pricingEnv env) t₁ leg₂.now lightIds _ _ hlights hstart

/-- Both legs are priced alike at both times. -/
theorem rel_calcLegs (hconnect : cdr.connectTime ≠ 0)
    (hservices : ∀ serviceTrunk ∈ decisiveServices env cdr,
      serviceTrunk.isInForce t₁ = serviceTrunk.isInForce t₂)
    {s : PricingSys} {lightIds : Set Int}
    (hlights : ∀ light ∈ consultedLights env t₁ cdr s, light.id ∈ lightIds)
    (hread : SameReadings t₁ t₂ lightIds s.currentNNPPackageMinute s.currentNNPPackageMinute) :
    Option.Rel (fun left right => left.1.callInfo = right.1.callInfo ∧
        left.2.callInfo = right.2.callInfo)
      (calcLegs env t₁ cdr (s.billingData.calls.realtimeLastId + 1)
        (s.billingData.calls.realtimeLastId + 2) s)
      (calcLegs env t₂ cdr (s.billingData.calls.realtimeLastId + 1)
        (s.billingData.calls.realtimeLastId + 2) s) := by
  have hmega := stateMegaTrunk_congr hconnect hservices
  have horigLeg : firstLeg env t₁ cdr s = { firstLeg env t₂ cdr s with now := t₁ } := by
    rw [firstLeg, firstLeg, origLeg, origLeg, hmega]
  have htermLeg : ∀ origCall, termLeg env t₁ cdr (s.billingData.calls.realtimeLastId + 1)
      (s.billingData.calls.realtimeLastId + 2) origCall =
        { termLeg env t₂ cdr (s.billingData.calls.realtimeLastId + 1)
            (s.billingData.calls.realtimeLastId + 2) origCall with now := t₁ } := by
    intro origCall
    rw [termLeg, termLeg, hmega]
  unfold calcLegs
  refine rel_bind (rel_calcNext horigLeg rfl hconnect (fun _ => hlights)
    ⟨s.currentNNPPackageMinute, rfl, hread⟩) ?_
  -- the terminating leg starts from what the originating one left, and looks up nothing
  rintro orig _ ⟨m, rfl, horig⟩
  refine rel_map (rel_calcNext (htermLeg _) rfl hconnect
    (fun hleg => absurd hleg Bool.false_ne_true) ⟨m, rfl, horig⟩) ?_
  rintro term _ ⟨m', rfl, -⟩
  exact ⟨rfl, rfl⟩

/-- **Billing at two times.**  A CDR with a connect time is skipped at both times
or billed at both, with the same two calls, if every trunk service that decides
about it is in force at both times or at neither and, for a CDR that is billed, the
counters of the current calls read the same at both for the connected tariffs that its
originating leg looks up. -/
theorem calcCdr_of_sameClock {c : UsageSys StatsNNPPackageMinute}
    {as : List (UsageAct StatsNNPPackageMinute StatsNNPPackageMinuteManager.Query)}
    (hrun : run (UsageSys.step StatsNNPPackageMinuteManager.kind) UsageSys.init as = some c)
    {s : PricingSys} (hcurrent : s.currentNNPPackageMinute = c.manager)
    (hconnect : cdr.connectTime ≠ 0)
    (hservices : ∀ serviceTrunk ∈ decisiveServices env cdr,
      serviceTrunk.isInForce t₁ = serviceTrunk.isInForce t₂)
    (hused : isTarifficationSkip env t₁ cdr = false →
      ∀ light ∈ consultedLights env t₁ cdr s, ∀ minuteId,
        StatsNNPPackageMinuteManager.getUsedSeconds s.currentNNPPackageMinute light.id minuteId t₁ =
          StatsNNPPackageMinuteManager.getUsedSeconds s.currentNNPPackageMinute light.id minuteId
            t₂) :
    (calcCdr env t₁ cdr s).map Prod.fst = (calcCdr env t₂ cdr s).map Prod.fst := by
  have hindex : Indexed StatsNNPPackageMinuteManager.kind.id
      StatsNNPPackageMinuteManager.kind.key s.currentNNPPackageMinute := by
    rw [hcurrent]
    exact (UsageSys.Consistent.run hrun).index
  have hskip := isTarifficationSkip_congr hconnect hservices
  unfold calcCdr
  rw [hskip]
  cases hbilled : isTarifficationSkip env t₂ cdr with
  | true => rw [if_pos rfl, if_pos rfl]
  | false =>
      have hread : SameReadings t₁ t₂
          { lightId | ∃ light ∈ consultedLights env t₁ cdr s, light.id = lightId }
          s.currentNNPPackageMinute s.currentNNPPackageMinute := by
        refine ⟨hindex, hindex, ?_⟩
        rintro _ ⟨light, hlight, rfl⟩ minuteId
        exact hused (hskip.trans hbilled) light hlight minuteId
      have hlights : ∀ light ∈ consultedLights env t₁ cdr s,
          light.id ∈ { lightId | ∃ light ∈ consultedLights env t₁ cdr s, light.id = lightId } :=
        fun light hlight => ⟨light, hlight, rfl⟩
      have hlegs := rel_calcLegs hconnect hservices hlights hread
      rw [if_neg (by decide), if_neg (by decide), Option.map_map, Option.map_map]
      refine map_eq_map_of_rel hlegs fun left right hcalls => ?_
      exact congrArg₂ CdrOutcome.billed hcalls.1 hcalls.2

/-- Where the decision to skip a CDR differs, so does what becomes of it. -/
theorem isTarifficationSkip_of_calcCdr_eq {s : PricingSys}
    (h : (calcCdr env t₁ cdr s).map Prod.fst = (calcCdr env t₂ cdr s).map Prod.fst) :
    isTarifficationSkip env t₁ cdr = isTarifficationSkip env t₂ cdr := by
  unfold calcCdr at h
  cases hskip₁ : isTarifficationSkip env t₁ cdr with
  | true =>
      cases hskip₂ : isTarifficationSkip env t₂ cdr with
      | true => rfl
      | false =>
          rw [hskip₁, hskip₂, if_pos rfl, if_neg (by decide), Option.map_map] at h
          obtain ⟨legs, -, hlegs⟩ := Option.map_eq_some_iff.mp h.symm
          exact absurd hlegs (by simp)
  | false =>
      cases hskip₂ : isTarifficationSkip env t₂ cdr with
      | false => rfl
      | true =>
          rw [hskip₁, hskip₂, if_pos rfl, if_neg (by decide), Option.map_map] at h
          obtain ⟨legs, -, hlegs⟩ := Option.map_eq_some_iff.mp h
          exact absurd hlegs (by simp)

/-- An account with a number in region 2 and, up to the time 2000, a trunk service
here that its calls come out of. -/
def megaTrunkEnv : BillingEnv where
  data :=
    { trunkByName := fun _ _ => some { id := 5, ourTrunk := true }
      trunk := fun id => if id = 5 then some { id := 5, ourTrunk := true } else none
      server := fun id => some { id := id }
      instanceSettings := fun id => some { id := id }
      serviceNumber := fun number _ =>
        if number = 74951112233 then some { id := 3, serverId := 2, clientAccountId := 7 } else none
      serviceTrunkByClientId := fun clientId =>
        if clientId = 7 then
          [{ id := 4, serverId := 1, clientAccountId := 7, trunkId := 5, expireDt := 2000,
             origEnabled := true }]
        else []
      isRegionOnHub := fun region => region == 1 }

def megaTrunkCdr : Cdr where
  id := 1
  connectTime := 1000
  sessionTime := 60
  srcNumber := "74951112233".toList
  dstNumber := "74954445566".toList
  srcRoute := "client".toList
  dstRoute := "operator".toList

/-- A call in progress of another account has used a minute of its connected tariff,
which ends at the time 5000. -/
def otherAccountRun : List (UsageAct StatsNNPPackageMinute StatsNNPPackageMinuteManager.Query) :=
  [.lookup ⟨1000, { id := 1 }, { id := 9, deactivateFrom := 5000 }⟩,
    .add { call := { id := 1, packageTime := 60, statsNnpPackageMinuteId := 1 } }]

/-- After the service has ended, another day makes no difference; the counter of the other
account is not looked up. -/
theorem megaTrunkCdr_after_expiry :
    ∃ c, run (UsageSys.step StatsNNPPackageMinuteManager.kind) UsageSys.init otherAccountRun =
        some c ∧
      StatsNNPPackageMinuteManager.getUsedSeconds c.manager 9 1 3000 = 60 ∧
      StatsNNPPackageMinuteManager.getUsedSeconds c.manager 9 1 89400 = 0 ∧
      (calcCdr megaTrunkEnv 3000 megaTrunkCdr
          { PricingSys.empty with currentNNPPackageMinute := c.manager }).map Prod.fst =
        (calcCdr megaTrunkEnv 89400 megaTrunkCdr
          { PricingSys.empty with currentNNPPackageMinute := c.manager }).map Prod.fst := by
  have hread : (run (UsageSys.step StatsNNPPackageMinuteManager.kind) UsageSys.init
      otherAccountRun).map (fun c =>
        (StatsNNPPackageMinuteManager.getUsedSeconds c.manager 9 1 3000,
          StatsNNPPackageMinuteManager.getUsedSeconds c.manager 9 1 89400)) = some (60, 0) := by
    decide +kernel
  obtain ⟨c, hrun, hread⟩ := Option.map_eq_some_iff.mp hread
  obtain ⟨hbefore, hafter⟩ := Prod.mk.inj hread
  refine ⟨c, hrun, hbefore, hafter, calcCdr_of_sameClock hrun rfl (by decide) ?_ ?_⟩
  · decide +kernel
  · intro _ light hlight
    have hnone : consultedLights megaTrunkEnv 3000 megaTrunkCdr
        { PricingSys.empty with currentNNPPackageMinute := c.manager } = [] := rfl
    rw [hnone] at hlight
    exact absurd hlight List.not_mem_nil

/-- The CDR is dropped while the service is in force, and billed when it is
processed after the service has ended. -/
theorem expired_trunk_is_billed :
    (calcCdr megaTrunkEnv 1500 megaTrunkCdr PricingSys.empty).map Prod.fst = some .skipped ∧
      ∃ orig term, (calcCdr megaTrunkEnv 3000 megaTrunkCdr PricingSys.empty).map Prod.fst =
        some (.billed orig term) := by
  constructor
  · have hskip : isTarifficationSkip megaTrunkEnv 1500 megaTrunkCdr = true := by decide +kernel
    rw [calcCdr, hskip, if_pos rfl]
    rfl
  · have hskip : isTarifficationSkip megaTrunkEnv 3000 megaTrunkCdr = false := by decide +kernel
    have hlegs : (calcLegs megaTrunkEnv 3000 megaTrunkCdr 0 1 PricingSys.empty).isSome = true := by
      decide +kernel
    obtain ⟨legs, hlegs⟩ := Option.isSome_iff_exists.mp hlegs
    refine ⟨legs.1.callInfo, legs.2.callInfo, ?_⟩
    rw [calcCdr, hskip, if_neg (by decide), Option.map_map]
    exact congrArg (Option.map _) hlegs

end Billing
end VoipBill
