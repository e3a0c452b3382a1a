import VoipBill.Model.BillingCall

/-!
# What the pricing steps leave alone

The counters are charged through a few fields of a leg.  `PricingState.services`
is what the leg is charged to, `PricingState.charge` is what it is charged with
and the counters this is booked on.  Every setup step that does not choose a
service or a package keeps both, and each of these frame conditions follows from
those of its parts.

A group of steps with one purpose keeps everything but what it is there to find
out: `unclassified`, `unserved`, `bill`, `unsettled`, `untariffed`, `unpriced`,
`unpackaged`, `unbilled`, `uninterconnected`, `unrated`, `uncurrent`, `unprepaid`,
`unminuted` and `uncosted` are the state without it.  What depends on no erased
field is kept, by `Keeps.part`.
-/

namespace VoipBill

open Lib Lib.Hoare

/-- The services a leg belongs to. -/
structure Services where
  trunk : Option Trunk
  serviceNumber : Option ServiceNumber
  serviceTrunk : Option ServiceTrunk
  numberServiceId : Int

/-- What a leg takes from packages, and the counters of the packages. -/
structure Charge where
  orig : Bool
  connectTime : Int
  servicePackageId : Int
  servicePackageStatsId : Int
  packageTime : Int
  nnpPackageMinuteId : Int
  statsNnpPackageMinuteId : Int
  servicePackagePrepaid : Option ServicePackage
  statsFreemin : StatsFreeminManager
  statsPackage : StatsPackageManager
  statsNNPPackageMinute : StatsNNPPackageMinuteManager
  currentNNPPackageMinute : StatsNNPPackageMinuteManager

namespace PricingState

def services (s : PricingState) : Services where
  trunk := s.callInfo.trunk
  serviceNumber := s.callInfo.serviceNumber
  serviceTrunk := s.callInfo.serviceTrunk
  numberServiceId := s.callInfo.call.numberServiceId

def charge (s : PricingState) : Charge where
  orig := s.callInfo.call.orig
  connectTime := s.callInfo.call.connectTime
  servicePackageId := s.callInfo.call.servicePackageId
  servicePackageStatsId := s.callInfo.call.servicePackageStatsId
  packageTime := s.callInfo.call.packageTime
  nnpPackageMinuteId := s.callInfo.call.nnpPackageMinuteId
  statsNnpPackageMinuteId := s.callInfo.call.statsNnpPackageMinuteId
  servicePackagePrepaid := s.callInfo.servicePackagePrepaid
  statsFreemin := s.billingData.statsFreemin
  statsPackage := s.billingData.statsPackage
  statsNNPPackageMinute := s.billingData.statsNNPPackageMinute
  currentNNPPackageMinute := s.currentNNPPackageMinute

/-- The services and the charge. -/
def focus (s : PricingState) : Services × Charge := (s.services, s.charge)

/-- The services and the charge, without the package of the price list. -/
def booking (s : PricingState) : Services × Charge :=
  (s.services, { s.charge with servicePackageId := 0 })

/-- The state without what classification finds out. -/
def unclassified (s : PricingState) : PricingState :=
  { s with
    numberRanges := ∅
    callInfo :=
      { s.callInfo with
        geo := none
        nnpNumberRange := none
        callIncomingFromMegatrunk := false
        call :=
          { s.callInfo.call with
            signallingCallId := []
            srcNumber := 0
            dstNumber := 0
            geoMob := false
            geoId := 0
            geoOperatorId := 0
            mob := false
            destinationId := 0
            nnpNumberRangeId := 0
            nnpOperatorId := 0
            nnpRegionId := 0
            nnpCityId := 0
            nnpCountryPrefix := 0
            nnpCountryCode := 0
            nnpNdc := 0
            nnpIsMob := false } } }

/-- The state without what is found out about a leg before it is charged: what
classification finds out, the trunk, the services and the account. -/
def bill (s : PricingState) : PricingState :=
  { s.unclassified with
    callInfo :=
      { s.unclassified.callInfo with
        trunk := none
        server := none
        instanceSettings := none
        serviceNumber := none
        serviceTrunk := none
        account := none
        dt := {}
        dtUtc := {}
        call :=
          { s.unclassified.callInfo.call with
            serverId := 0
            trunkId := 0
            our := false
            numberServiceId := 0
            trunkServiceId := 0
            accountId := 0
            accountVersion := 0 } } }

/-- The bill without what the leg takes over from the order of a trunk. -/
def unsettled (s : PricingState) : PricingState :=
  { s.bill with
    billingData := { s.billingData with statsTrunkSettings := UsageManager.empty }
    callInfo :=
      { s.bill.callInfo with
        trunkSettings := none
        pricelist := none
        price := none
        nnpPackage := none
        nnpPackagePrice := none
        nnpPackagePricelist := none
        call :=
          { s.bill.callInfo.call with
            trunkSettingsStatsId := 0
            nnpPackagePriceId := 0
            nnpPackagePricelistId := 0
            nnpPackageId := 0
            rate := 0 } } }

/-- The state without the server of the trunk. -/
def unserved (s : PricingState) : PricingState :=
  { s with
    callInfo :=
      { s.callInfo with
        server := none
        instanceSettings := none
        call := { s.callInfo.call with serverId := 0, trunkId := 0, our := false } } }

/-- The state without the tariffs of the number service. -/
def untariffed (s : PricingState) : PricingState :=
  { s with callInfo := { s.callInfo with logTariff := none, mainTariff := none } }

/-- The state without the price of the leg. -/
def unpriced (s : PricingState) : PricingState :=
  { s with
    callInfo :=
      { s.callInfo with
        tariff := none
        pricelist := none
        price := none
        call := { s.callInfo.call with pricelistId := 0, pricePrefix := 0, rate := 0 } } }

/-- The state without the time the leg is billed for. -/
def unbilled (s : PricingState) : PricingState :=
  { s with callInfo := { s.callInfo with call := { s.callInfo.call with billedTime := 0 } } }

/-- The state without the price list of a package. -/
def unpackaged (s : PricingState) : PricingState :=
  { s with
    callInfo :=
      { s.callInfo with
        pricelist := none
        price := none
        servicePackagePricelist := none
        call := { s.callInfo.call with servicePackageId := 0 } } }

/-- The state without what is paid for interconnect. -/
def uninterconnected (s : PricingState) : PricingState :=
  { s with
    callInfo :=
      { s.callInfo with
        call := { s.callInfo.call with interconnectRate := 0, interconnectCost := 0 } } }

/-- The state without the price of a version 5 leg. -/
def unrated (s : PricingState) : PricingState :=
  { s with
    callInfo :=
      { s.callInfo with
        call :=
          { s.callInfo.call with
            rate := 0
            nnpPackagePriceId := 0
            nnpPackagePricelistId := 0
            nnpPackageId := 0 } } }

/-- The state without the counters of the current calls. -/
def uncurrent (s : PricingState) : PricingState :=
  { s with currentNNPPackageMinute := UsageManager.empty }

/-- The state without what a version 4 leg takes from packages and free minutes. -/
def unprepaid (s : PricingState) : PricingState :=
  { s with
    billingData :=
      { s.billingData with
        statsFreemin := UsageManager.empty
        statsPackage := UsageManager.empty }
    callInfo :=
      { s.callInfo with
        servicePackagePrepaid := none
        tariffPackagePrepaid := none
        call :=
          { s.callInfo.call with
            servicePackageId := 0
            servicePackageStatsId := 0
            packageTime := 0 } } }

/-- The state without what a version 5 leg takes from package minutes. -/
def unminuted (s : PricingState) : PricingState :=
  { s with
    billingData := { s.billingData with statsNNPPackageMinute := UsageManager.empty }
    callInfo :=
      { s.callInfo with
        call :=
          { s.callInfo.call with
            billedTime := 0
            nnpPackageMinuteId := 0
            nnpPackageId := 0
            packageTime := 0
            statsNnpPackageMinuteId := 0 } } }

/-- The state without the cost of the leg. -/
def uncosted (s : PricingState) : PricingState :=
  { s with
    callInfo :=
      { s.callInfo with call := { s.callInfo.call with cost := 0, packageCredit := 0 } } }

/-- The counters of version 4 packages and the row the leg takes seconds from. -/
def prepaid (s : PricingState) : StatsFreeminManager × StatsPackageManager × Int × Int :=
  (s.billingData.statsFreemin, s.billingData.statsPackage, s.callInfo.call.servicePackageId,
    s.callInfo.call.servicePackageStatsId)

/-- The counters of package minutes and the row the leg takes seconds from. -/
def minutes (s : PricingState) :
    StatsNNPPackageMinuteManager × StatsNNPPackageMinuteManager × Int :=
  (s.billingData.statsNNPPackageMinute, s.currentNNPPackageMinute,
    s.callInfo.call.statsNnpPackageMinuteId)

end PricingState

namespace BillingCall

section Basic

variable {γ α : Type} {f : PricingState → γ}

@[simp] theorem exec_getCallInfo (s : PricingState) :
    exec getCallInfo s = (.ok s.callInfo, s) := rfl

@[simp] theorem exec_getCall (s : PricingState) :
    exec getCall s = (.ok s.callInfo.call, s) := rfl

@[simp] theorem exec_modifyCallInfo (g : CallInfo → CallInfo) (s : PricingState) :
    exec (modifyCallInfo g) s = (.ok (), { s with callInfo := g s.callInfo }) := rfl

@[simp] theorem exec_modifyCall (g : Call → Call) (s : PricingState) :
    exec (modifyCall g) s =
      (.ok (), { s with callInfo := { s.callInfo with call := g s.callInfo.call } }) := rfl

@[simp] theorem exec_deref_some (a : α) (s : PricingState) :
    exec (deref (some a)) s = (.ok a, s) := rfl

@[simp] theorem exec_deref_none (s : PricingState) :
    exec (deref (none : Option α)) s = (.error .nullPointer, s) := rfl

@[simp] theorem exec_orThrow_some (message : String) (a : α) (s : PricingState) :
    exec (orThrow message (some a)) s = (.ok a, s) := rfl

@[simp] theorem exec_orThrow_none (message : String) (s : PricingState) :
    exec (orThrow message (none : Option α)) s = (.error (.calcException message), s) := rfl

/-- What is dereferenced is there. -/
theorem eq_some_of_exec_deref {o : Option α} {a : α} {s s' : PricingState}
    (h : exec (deref o) s = (.ok a, s')) : o = some a := by
  cases o with
  | none => exact absurd (congrArg Prod.fst h) (by simp)
  | some b =>
      rw [exec_deref_some] at h
      rw [Except.ok.inj (congrArg Prod.fst h)]

theorem keeps_getCallInfo : Keeps f getCallInfo := fun _ => rfl

theorem keeps_getCall : Keeps f getCall := fun _ => rfl

theorem keeps_deref (o : Option α) : Keeps f (deref o) := by
  cases o with
  | none => exact keeps_throw _
  | some a => exact keeps_pure a

theorem keeps_orThrow (message : String) (o : Option α) : Keeps f (orThrow message o) := by
  cases o with
  | none => exact keeps_throw _
  | some a => exact keeps_pure a

theorem keeps_whenSome {o : Option α} {x : α → Pricing Unit}
    (h : ∀ a, Keeps f (x a)) : Keeps f (whenSome o x) := by
  cases o with
  | none => exact keeps_pure ()
  | some a => exact h a

theorem keeps_onlyIf {condition : Bool} {x : Pricing Unit} (h : Keeps f x) :
    Keeps f (onlyIf condition x) := by
  cases condition with
  | false => exact keeps_pure ()
  | true => exact h

theorem keeps_getNNPNumberRange (env : PricingEnv) (num : Int) :
    Keeps f (getNNPNumberRange env num) := fun _ => rfl

theorem keeps_getTrunkSettingsOrderList (env : PricingEnv) (trunk : Trunk)
    (srcNumber dstNumber destinationType : Int) :
    Keeps f (getTrunkSettingsOrderList env trunk srcNumber dstNumber destinationType) :=
  fun _ => rfl

theorem keeps_modifyCallInfo {g : CallInfo → CallInfo}
    (h : ∀ s : PricingState, f { s with callInfo := g s.callInfo } = f s) :
    Keeps f (modifyCallInfo g) := h

theorem keeps_modifyCall {g : Call → Call}
    (h : ∀ s : PricingState,
      f { s with callInfo := { s.callInfo with call := g s.callInfo.call } } = f s) :
    Keeps f (modifyCall g) := h

end Basic

variable (env : PricingEnv)

/-! ## Before the leg is charged -/

theorem keeps_processSignalingCallId :
    Keeps PricingState.unclassified (processSignalingCallId env) := by
  unfold processSignalingCallId
  refine keeps_bind keeps_getCallInfo fun _ => ?_
  exact keeps_whenSome fun _ => keeps_onlyIf (keeps_modifyCall fun _ => rfl)

theorem keeps_numberPreprocessing : Keeps PricingState.unclassified (numberPreprocessing env) := by
  unfold numberPreprocessing
  refine keeps_bind keeps_getCallInfo fun _ => keeps_bind (keeps_deref _) fun _ => ?_
  refine keeps_bind (keeps_whenSome fun _ => keeps_modifyCall fun _ => rfl) fun _ => ?_
  exact keeps_whenSome fun _ => keeps_modifyCall fun _ => rfl

theorem keeps_processLineWithoutNumber (cdrNum : List Char) :
    Keeps PricingState.unclassified (processLineWithoutNumber cdrNum) :=
  keeps_modifyCall fun _ => rfl

theorem keeps_processRedirectNumber :
    Keeps PricingState.unclassified (processRedirectNumber env) := by
  unfold processRedirectNumber
  refine keeps_bind keeps_getCallInfo fun _ => keeps_bind (keeps_deref _) fun _ => ?_
  refine keeps_ite (keeps_onlyIf (keeps_processLineWithoutNumber _)) (keeps_onlyIf ?_)
  refine keeps_bind keeps_getCall fun _ => keeps_whenSome fun _ => ?_
  exact keeps_onlyIf (keeps_modifyCall fun _ => rfl)

theorem keeps_processGeo : Keeps PricingState.unclassified (processGeo env) := by
  unfold processGeo
  refine keeps_bind keeps_getCall fun _ => ?_
  refine keeps_bind (keeps_whenSome fun _ => keeps_modifyCall fun _ => rfl) fun _ => ?_
  exact keeps_whenSome fun _ => keeps_modifyCall fun _ => rfl

theorem keeps_getDest (geoId : Int) : Keeps PricingState.unclassified (getDest env geoId) := by
  unfold getDest
  refine keeps_bind (keeps_modifyCallInfo fun _ => rfl) fun _ => ?_
  split
  · exact keeps_pure _
  · refine keeps_bind keeps_getCallInfo fun _ => keeps_bind (keeps_deref _) fun _ => ?_
    exact keeps_bind keeps_getCall fun _ => keeps_pure _

theorem keeps_processDestinations : Keeps PricingState.unclassified (processDestinations env) := by
  unfold processDestinations
  refine keeps_bind keeps_getCall fun _ => ?_
  refine keeps_bind (keeps_whenSome fun _ => keeps_modifyCall fun _ => rfl) fun _ => ?_
  refine keeps_whenSome fun _ => keeps_bind (keeps_getDest env _) fun _ => ?_
  exact keeps_modifyCall fun _ => rfl

theorem keeps_processNNP : Keeps PricingState.unclassified (processNNP env) := by
  unfold processNNP
  refine keeps_bind keeps_getCall fun _ => keeps_bind (keeps_getNNPNumberRange env _) fun _ => ?_
  split
  · refine keeps_bind (keeps_modify fun _ => rfl) fun _ => ?_
    refine keeps_bind (keeps_modifyCallInfo fun _ => rfl) fun _ => ?_
    exact keeps_modifyCall fun _ => rfl
  · exact keeps_modifyCall fun _ => rfl

theorem keeps_unclassified_classification (orig : Bool) :
    Keeps PricingState.unclassified (classification env orig) := by
  unfold classification
  refine keeps_bind (keeps_processSignalingCallId env) fun _ => ?_
  refine keeps_bind (keeps_onlyIf ?_) fun _ => ?_
  · exact keeps_bind (keeps_numberPreprocessing env) fun _ => keeps_processRedirectNumber env
  · refine keeps_bind (keeps_processGeo env) fun _ => ?_
    refine keeps_bind (keeps_processDestinations env) fun _ => ?_
    refine keeps_bind (keeps_processNNP env) fun _ => ?_
    exact keeps_modifyCallInfo fun _ => rfl

theorem keeps_classification (orig : Bool) :
    Keeps PricingState.focus (classification env orig) :=
  (keeps_unclassified_classification env orig).part PricingState.focus fun _ => rfl

/-! ## Trunk settings -/

theorem keeps_applyNNPOrder (order : ServiceTrunkOrder) :
    Keeps PricingState.focus (applyNNPOrder order) := by
  unfold applyNNPOrder
  refine keeps_onlyIf (keeps_bind (keeps_modifyCallInfo fun _ => rfl) fun _ => ?_)
  exact keeps_modifyCall fun _ => rfl

theorem keeps_withStatsTrunkSettings (connectTime : Int) (order : ServiceTrunkOrder) :
    Keeps PricingState.focus (withStatsTrunkSettings connectTime order) := by
  unfold withStatsTrunkSettings
  refine keeps_bind (keeps_deref _) fun _ => keeps_bind (keeps_deref _) fun _ => ?_
  refine keeps_bind keeps_get fun _ => keeps_bind (keeps_modify fun _ => rfl) fun _ => ?_
  exact keeps_pure _

theorem keeps_orderTermTrunkSettingsOrderList (orders : List ServiceTrunkOrder)
    (fUseMinimalki : Bool) (connectTime : Int) :
    Keeps PricingState.focus
      (orderTermTrunkSettingsOrderList env orders fUseMinimalki connectTime) := by
  unfold orderTermTrunkSettingsOrderList
  refine keeps_bind (keeps_mapM (keeps_withStatsTrunkSettings connectTime) orders) fun _ => ?_
  exact keeps_pure _

/-! ## Account, price and cost -/

theorem keeps_setupServiceTrunk : Keeps PricingState.focus setupServiceTrunk := by
  unfold setupServiceTrunk
  refine keeps_bind keeps_getCallInfo fun _ => keeps_bind (keeps_orThrow _ _) fun _ => ?_
  exact keeps_modifyCall fun _ => rfl

theorem keeps_setupAccount : Keeps PricingState.focus (setupAccount env) := by
  unfold setupAccount
  refine keeps_bind keeps_getCallInfo fun _ => ?_
  refine keeps_bind (keeps_modifyCallInfo fun _ => rfl) fun _ => ?_
  refine keeps_bind (keeps_orThrow _ _) fun _ => ?_
  refine keeps_bind (keeps_modifyCallInfo fun _ => rfl) fun _ => ?_
  exact keeps_modifyCall fun _ => rfl

theorem keeps_unpriced_setupPricelist (pricelistId : Int) :
    Keeps PricingState.unpriced (setupPricelist env pricelistId) := by
  unfold setupPricelist
  refine keeps_bind (keeps_onlyIf (keeps_modifyCallInfo fun _ => rfl)) fun _ => ?_
  refine keeps_bind keeps_getCallInfo fun _ => keeps_bind (keeps_orThrow _ _) fun _ => ?_
  exact keeps_modifyCall fun _ => rfl

theorem keeps_unpriced_setupPrice (number : Int) :
    Keeps PricingState.unpriced (setupPrice env number) := by
  unfold setupPrice
  refine keeps_bind (keeps_onlyIf ?_) fun _ => ?_
  · refine keeps_bind keeps_getCallInfo fun _ => keeps_bind (keeps_deref _) fun _ => ?_
    exact keeps_modifyCallInfo fun _ => rfl
  · refine keeps_bind keeps_getCallInfo fun _ => keeps_bind (keeps_orThrow _ _) fun _ => ?_
    exact keeps_modifyCall fun _ => rfl

theorem keeps_unpriced_setupFoundPrice : Keeps PricingState.unpriced (setupFoundPrice env) :=
  keeps_bind (keeps_unpriced_setupPricelist env 0) fun _ => keeps_unpriced_setupPrice env 0

theorem keeps_setupFoundPrice : Keeps PricingState.focus (setupFoundPrice env) :=
  (keeps_unpriced_setupFoundPrice env).part PricingState.focus fun _ => rfl

theorem keeps_unbilled_setupBilledTime : Keeps PricingState.unbilled (setupBilledTime env) := by
  unfold setupBilledTime
  refine keeps_bind keeps_getCallInfo fun _ => keeps_ite ?_ ?_
  · exact keeps_bind (keeps_deref _) fun _ => keeps_modifyCall fun _ => rfl
  · exact keeps_bind (keeps_deref _) fun _ => keeps_modifyCall fun _ => rfl

theorem keeps_setupBilledTime : Keeps PricingState.focus (setupBilledTime env) :=
  (keeps_unbilled_setupBilledTime env).part PricingState.focus fun _ => rfl

theorem keeps_setupBilledTimeNNP (nnpPackage : NNPPackage) :
    Keeps PricingState.focus (setupBilledTimeNNP env nnpPackage) :=
  keeps_modifyCall fun _ => rfl

theorem keeps_uncosted_withCost : Keeps PricingState.uncosted (modifyCall withCost) :=
  keeps_modifyCall fun _ => rfl

theorem keeps_setupCost : Keeps PricingState.focus setupCost :=
  keeps_uncosted_withCost.part PricingState.focus fun _ => rfl

theorem keeps_setupNNPCost : Keeps PricingState.focus setupNNPCost :=
  keeps_uncosted_withCost.part PricingState.focus fun _ => rfl

theorem keeps_withInterconnect (rateOf : Call → Option ℚ) :
    Keeps PricingState.uninterconnected
      (modifyCall fun call => withInterconnect (rateOf call) call) := by
  refine keeps_modifyCall fun s => ?_
  simp only [withInterconnect]
  split
  · rfl
  · rfl

theorem keeps_uninterconnected_setupInterconnect :
    Keeps PricingState.uninterconnected setupInterconnect := by
  unfold setupInterconnect
  refine keeps_bind keeps_getCall fun _ => keeps_onlyIf ?_
  refine keeps_bind keeps_getCallInfo fun _ => keeps_bind (keeps_deref _) fun _ => ?_
  exact keeps_withInterconnect fun call => interconnectRateOf _ call.destinationId

theorem keeps_setupInterconnect : Keeps PricingState.focus setupInterconnect :=
  keeps_uninterconnected_setupInterconnect.part PricingState.focus fun _ => rfl

theorem keeps_uninterconnected_setupNNPInterconnect :
    Keeps PricingState.uninterconnected (setupNNPInterconnect env) := by
  unfold setupNNPInterconnect
  refine keeps_bind keeps_getCallInfo fun _ => keeps_onlyIf ?_
  refine keeps_bind (keeps_whenSome fun _ => keeps_onlyIf ?_) fun _ => ?_
  · exact keeps_withInterconnect fun _ => some _
  · refine keeps_whenSome fun _ => ?_
    exact keeps_withInterconnect fun call => interconnectRateOf _ call.destinationId

theorem keeps_setupNNPInterconnect : Keeps PricingState.focus (setupNNPInterconnect env) :=
  (keeps_uninterconnected_setupNNPInterconnect env).part PricingState.focus fun _ => rfl

theorem keeps_untariffed_setupLogTariff :
    Keeps PricingState.untariffed (setupLogTariff env) := by
  unfold setupLogTariff
  refine keeps_bind keeps_getCallInfo fun _ => keeps_bind (keeps_deref _) fun _ => ?_
  refine keeps_bind (keeps_modifyCallInfo fun _ => rfl) fun _ => ?_
  exact keeps_bind (keeps_orThrow _ _) fun _ => keeps_pure _

theorem keeps_setupLogTariff : Keeps PricingState.focus (setupLogTariff env) :=
  (keeps_untariffed_setupLogTariff env).part PricingState.focus fun _ => rfl

theorem keeps_untariffed_setupMainTariff :
    Keeps PricingState.untariffed (setupMainTariff env) := by
  unfold setupMainTariff
  refine keeps_bind keeps_getCallInfo fun _ => keeps_bind (keeps_deref _) fun _ => ?_
  refine keeps_bind (keeps_modifyCallInfo fun _ => rfl) fun _ => ?_
  exact keeps_bind (keeps_orThrow _ _) fun _ => keeps_pure _

theorem keeps_setupMainTariff : Keeps PricingState.focus (setupMainTariff env) :=
  (keeps_untariffed_setupMainTariff env).part PricingState.focus fun _ => rfl

theorem keeps_unpriced_setupTariffPrice :
    Keeps PricingState.unpriced (setupTariffPrice env) := by
  unfold setupTariffPrice setupTariff
  refine keeps_bind ?_ fun _ => ?_
  · refine keeps_bind keeps_getCallInfo fun _ => keeps_bind (keeps_deref _) fun _ => ?_
    refine keeps_bind (keeps_modifyCallInfo fun _ => rfl) fun _ => ?_
    exact keeps_bind (keeps_orThrow _ _) fun _ => keeps_pure _
  · refine keeps_bind keeps_getCallInfo fun _ => keeps_bind (keeps_deref _) fun _ => ?_
    refine keeps_bind (keeps_unpriced_setupPricelist env _) fun _ => ?_
    exact keeps_bind keeps_getCall fun _ => keeps_unpriced_setupPrice env _

theorem keeps_unpriced_setupOrigPrice (servicePackagePricelist : Option ServicePackage) :
    Keeps PricingState.unpriced (setupOrigPrice env servicePackagePricelist) :=
  keeps_ite (keeps_unpriced_setupTariffPrice env) (keeps_unpriced_setupFoundPrice env)

theorem keeps_setupOrigPrice (servicePackagePricelist : Option ServicePackage) :
    Keeps PricingState.focus (setupOrigPrice env servicePackagePricelist) :=
  (keeps_unpriced_setupOrigPrice env _).part PricingState.focus fun _ => rfl

theorem keeps_calcTermByNumber : Keeps PricingState.focus (calcTermByNumber env) := by
  unfold calcTermByNumber
  refine keeps_bind (keeps_setupLogTariff env) fun _ => ?_
  refine keeps_bind (keeps_setupMainTariff env) fun _ => ?_
  refine keeps_bind (keeps_setupBilledTime env) fun _ => ?_
  refine keeps_bind keeps_getCall fun _ => keeps_onlyIf ?_
  refine keeps_bind keeps_getCallInfo fun _ => keeps_bind (keeps_deref _) fun _ => ?_
  refine keeps_bind ((keeps_unpriced_setupPricelist env _).part PricingState.focus
    fun _ => rfl) fun _ => keeps_bind keeps_getCall fun _ => ?_
  refine keeps_bind ((keeps_unpriced_setupPrice env _).part PricingState.focus
    fun _ => rfl) fun _ => ?_
  exact keeps_bind keeps_setupCost fun _ => keeps_modifyCall fun _ => rfl

/-! ## Choosing the services keeps the charge -/

theorem keeps_charge {α : Type} {x : Pricing α} (h : Keeps PricingState.focus x) :
    Keeps PricingState.charge x :=
  fun s => congrArg Prod.snd (h s)

theorem keeps_services {α : Type} {x : Pricing α} (h : Keeps PricingState.focus x) :
    Keeps PricingState.services x :=
  fun s => congrArg Prod.fst (h s)

theorem keeps_booking {α : Type} {x : Pricing α} (h : Keeps PricingState.focus x) :
    Keeps PricingState.booking x := by
  intro s
  obtain ⟨hservices, hcharge⟩ := Prod.mk.inj (h s)
  rw [PricingState.booking, hservices, hcharge]
  rfl

theorem keeps_minutes_of_booking {α : Type} {x : Pricing α}
    (h : Keeps PricingState.booking x) : Keeps PricingState.minutes x := by
  intro s
  have hcharge := congrArg Prod.snd (h s)
  exact congrArg (fun charge : Charge => (charge.statsNNPPackageMinute,
    charge.currentNNPPackageMinute, charge.statsNnpPackageMinuteId)) hcharge

theorem keeps_minutes {α : Type} {x : Pricing α} (h : Keeps PricingState.focus x) :
    Keeps PricingState.minutes x :=
  keeps_minutes_of_booking (keeps_booking h)

theorem keeps_unserved_setupTrunkServer (found : Option Trunk) :
    Keeps PricingState.unserved (setupTrunkServer env found) := by
  unfold setupTrunkServer
  refine keeps_bind (keeps_modifyCall fun _ => rfl) fun _ => ?_
  refine keeps_bind (keeps_orThrow _ _) fun _ => ?_
  refine keeps_bind (keeps_modifyCall fun _ => rfl) fun _ => ?_
  refine keeps_bind (keeps_modifyCallInfo fun _ => rfl) fun _ => ?_
  refine keeps_bind (keeps_orThrow _ _) fun _ => ?_
  refine keeps_bind (keeps_modifyCall fun _ => rfl) fun _ => ?_
  refine keeps_bind (keeps_modifyCallInfo fun _ => rfl) fun _ => ?_
  exact keeps_bind (keeps_orThrow _ _) fun _ => keeps_pure _

theorem keeps_setupTrunkServer (found : Option Trunk) :
    Keeps PricingState.focus (setupTrunkServer env found) :=
  (keeps_unserved_setupTrunkServer env found).part PricingState.focus fun _ => rfl

theorem keeps_bill_setupTrunk : Keeps PricingState.bill (setupTrunk env) := by
  unfold setupTrunk
  refine keeps_bind keeps_getCall fun _ => ?_
  refine keeps_bind (keeps_modifyCallInfo fun _ => rfl) fun _ => ?_
  exact (keeps_unserved_setupTrunkServer env _).part PricingState.bill fun _ => rfl

theorem keeps_setupTrunk : Keeps PricingState.charge (setupTrunk env) :=
  (keeps_bill_setupTrunk env).part PricingState.charge fun _ => rfl

theorem keeps_applyOrder (order : ServiceTrunkOrder) :
    Keeps PricingState.charge (applyOrder order) :=
  keeps_modifyCallInfo fun _ => rfl

theorem keeps_setupEffectiveTermTrunkSettings :
    Keeps PricingState.charge (setupEffectiveTermTrunkSettings env) := by
  unfold setupEffectiveTermTrunkSettings
  refine keeps_bind keeps_getCallInfo fun _ => keeps_bind (keeps_deref _) fun _ => ?_
  refine keeps_bind (keeps_getTrunkSettingsOrderList env _ _ _ _) fun _ => ?_
  refine keeps_bind (keeps_orThrow _ _) fun _ => ?_
  refine keeps_bind (keeps_charge (keeps_orderTermTrunkSettingsOrderList env _ _ _)) fun _ => ?_
  refine keeps_whenSome fun order => keeps_bind (keeps_applyOrder order) fun _ => ?_
  refine keeps_bind (keeps_deref _) fun _ => keeps_bind (keeps_modifyCall fun _ => rfl) fun _ => ?_
  exact keeps_charge (keeps_applyNNPOrder order)

theorem keeps_checkForeignTrunk (trunk : Trunk) (serviceTrunk : Option ServiceTrunk) :
    Keeps PricingState.focus (checkForeignTrunk trunk serviceTrunk) := by
  unfold checkForeignTrunk
  refine keeps_onlyIf (keeps_bind (keeps_orThrow _ _) fun _ => ?_)
  refine keeps_bind keeps_getCallInfo fun _ => keeps_bind (keeps_deref _) fun _ => ?_
  exact keeps_onlyIf (keeps_throw _)

/-! ## Packages

The package of the price list is noted in `service_package_id` before anything
is taken from a package. -/

theorem applyPackagePrice_keeps {γ : Type} {f : CallInfo → γ}
    (hf : ∀ (callInfo : CallInfo) (pricelist : Option Pricelist) (price : Option PricelistPrice)
      (servicePackage : ServicePackage),
      f { callInfo with
          pricelist := pricelist
          price := price
          servicePackagePricelist := some servicePackage
          call := { callInfo.call with servicePackageId := servicePackage.id } } = f callInfo)
    (packages : List ServicePackage) (callInfo : CallInfo) :
    f (packages.foldl (applyPackagePrice env) callInfo) = f callInfo := by
  induction packages generalizing callInfo with
  | nil => rfl
  | cons servicePackage packages ih =>
      rw [List.foldl_cons, ih, applyPackagePrice]
      split
      · rfl
      · exact hf callInfo _ _ servicePackage

theorem keeps_unpackaged_setupPackagePricelist :
    Keeps PricingState.unpackaged (setupPackagePricelist env) := by
  refine keeps_modifyCallInfo fun s => ?_
  have hfold := applyPackagePrice_keeps env
    (f := fun callInfo => PricingState.unpackaged { s with callInfo := callInfo })
    (fun _ _ _ _ => rfl) (packagesOf env s.callInfo) s.callInfo
  exact hfold

theorem keeps_setupPackagePricelist : Keeps PricingState.booking (setupPackagePricelist env) :=
  (keeps_unpackaged_setupPackagePricelist env).part PricingState.booking fun _ => rfl

theorem keeps_unprepaid_setupFreemin : Keeps PricingState.unprepaid setupFreemin := by
  unfold setupFreemin
  refine keeps_bind keeps_getCallInfo fun _ => keeps_onlyIf ?_
  refine keeps_bind (keeps_deref _) fun _ => keeps_bind (keeps_deref _) fun _ => ?_
  refine keeps_onlyIf (keeps_bind keeps_get fun _ => ?_)
  refine keeps_bind (keeps_modify fun _ => rfl) fun _ => ?_
  exact keeps_onlyIf (keeps_modifyCall fun _ => rfl)

theorem keeps_setupFreemin : Keeps PricingState.minutes setupFreemin :=
  keeps_unprepaid_setupFreemin.part PricingState.minutes fun _ => rfl

theorem keeps_unprepaid_setupPackagePrepaid :
    Keeps PricingState.unprepaid (setupPackagePrepaid env) := by
  unfold setupPackagePrepaid
  refine keeps_bind keeps_getCallInfo fun _ => keeps_onlyIf ?_
  refine keeps_bind (keeps_deref _) fun _ => keeps_bind keeps_get fun _ => ?_
  refine keeps_bind (keeps_modify fun _ => rfl) fun _ => ?_
  exact keeps_whenSome fun _ => keeps_modifyCallInfo fun _ => rfl

theorem keeps_setupPackagePrepaid : Keeps PricingState.minutes (setupPackagePrepaid env) :=
  (keeps_unprepaid_setupPackagePrepaid env).part PricingState.minutes fun _ => rfl

/-! ## Version 5 by number -/

theorem keeps_minuteCandidate (nnpPackageMinute : NNPPackageMinute)
    (light : NNPAccountTariffLight) :
    Keeps PricingState.uncurrent (minuteCandidate env nnpPackageMinute light) := by
  unfold minuteCandidate
  refine keeps_bind keeps_get fun _ => keeps_bind (keeps_modify fun _ => rfl) fun _ => ?_
  exact keeps_pure _

theorem keeps_minuteCandidates (lights : List NNPAccountTariffLight)
    (nnpDestinationIds : List Int) (packageMinutes : List NNPPackageMinute) :
    Keeps PricingState.uncurrent
      (minuteCandidates env lights nnpDestinationIds packageMinutes) := by
  induction packageMinutes with
  | nil => exact keeps_pure []
  | cons nnpPackageMinute rest ih =>
      rw [minuteCandidates]
      refine keeps_ite (keeps_bind (keeps_deref _) fun light => ?_) ih
      refine keeps_bind (keeps_minuteCandidate env _ _) fun _ => keeps_bind ih fun _ => ?_
      exact keeps_pure _

theorem keeps_uncurrent_setupNNPPackageMinute (lights : List NNPAccountTariffLight)
    (nnpDestinationIds : List Int) :
    Keeps PricingState.uncurrent (setupNNPPackageMinute env lights nnpDestinationIds) :=
  keeps_bind (keeps_minuteCandidates env lights nnpDestinationIds _) fun _ => keeps_pure _

theorem keeps_chargeNNPPackageMinute (lights : List NNPAccountTariffLight)
    (nnpPackageMinute : NNPPackageMinute) :
    Keeps PricingState.unminuted (chargeNNPPackageMinute env lights nnpPackageMinute) := by
  refine keeps_whenSome fun light => keeps_bind keeps_get fun _ => ?_
  exact keeps_bind (keeps_modify fun _ => rfl) fun _ => keeps_modifyCall fun _ => rfl

theorem keeps_unminuted_applyMinute (lights : List NNPAccountTariffLight)
    (minute : Option MinuteCandidate) :
    Keeps PricingState.unminuted (applyMinute env lights minute) := by
  unfold applyMinute
  split
  · unfold applyNNPPackageMinute
    refine keeps_bind (keeps_orThrow _ _) fun _ => ?_
    refine keeps_bind (keeps_modifyCall fun _ => rfl) fun _ => keeps_bind keeps_getCall fun _ => ?_
    refine keeps_onlyIf (keeps_bind (keeps_modifyCall fun _ => rfl) fun _ => ?_)
    refine keeps_bind (keeps_deref _) fun _ => ?_
    exact keeps_chargeNNPPackageMinute env lights _
  · unfold applyNNPPackage
    refine keeps_bind keeps_getCall fun _ => keeps_bind (keeps_orThrow _ _) fun _ => ?_
    exact keeps_modifyCall fun _ => rfl

theorem keeps_unrated_withNNPRate (price : Option (ℚ × NNPPackagePrice))
    (pricelist : Option (ℚ × NNPPackagePricelist)) :
    Keeps PricingState.unrated (modifyCall (withNNPRate price pricelist)) := by
  refine keeps_modifyCall fun s => ?_
  unfold withNNPRate
  split
  · split
    · rfl
    · rfl
  · rfl
  · rfl
  · rfl

theorem keeps_calcOrigNNPByNumber :
    Keeps PricingState.prepaid (calcOrigNNPByNumber env) := by
  unfold calcOrigNNPByNumber
  refine keeps_bind keeps_getCallInfo fun _ => keeps_bind (keeps_orThrow _ _) fun _ => ?_
  refine keeps_ite (keeps_throw _) (keeps_bind (keeps_getNNPNumberRange env _) fun _ => ?_)
  refine keeps_bind ((keeps_uncurrent_setupNNPPackageMinute env _ _).part PricingState.prepaid
    fun _ => rfl) fun minute => ?_
  refine keeps_bind ((keeps_unrated_withNNPRate _ _).part PricingState.prepaid
    fun _ => rfl) fun _ => ?_
  refine keeps_bind (keeps_modifyCall fun _ => rfl) fun _ => ?_
  refine keeps_bind ((keeps_unminuted_applyMinute env _ _).part PricingState.prepaid
    fun _ => rfl) fun _ => ?_
  exact keeps_uncosted_withCost.part PricingState.prepaid fun _ => rfl

theorem keeps_setVatFlag : Keeps PricingState.focus (setVatFlag env) :=
  keeps_modifyCallInfo fun _ => rfl

end BillingCall
end VoipBill
