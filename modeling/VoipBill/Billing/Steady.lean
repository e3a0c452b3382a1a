import VoipBill.Billing.PricingFrame
import VoipBill.Lib.Relational

/-!
# Pricing apart from the calls in progress

Only the search for a package minute looks at the counters of the current calls.
Every other step is `Steady`: in two states that differ in these counters alone
it does the same, whatever is known of the two counters, and leaves both as they
are.
-/

namespace VoipBill

open Lib Lib.Hoare

/-- The state with other counters of the current calls. -/
def PricingState.withCurrent (s : PricingState) (m : StatsNNPPackageMinuteManager) :
    PricingState :=
  { s with currentNNPPackageMinute := m }

/-- Two states that differ in the counters of the current calls, of which `Q`
is known. -/
def Apart (Q : StatsNNPPackageMinuteManager → StatsNNPPackageMinuteManager → Prop)
    (s t : PricingState) : Prop :=
  ∃ m, t = s.withCurrent m ∧ Q s.currentNNPPackageMinute m

/-- The step does not look at the counters of the current calls. -/
def Steady {α : Type} (x : Pricing α) : Prop := ∀ Q, Sim (Apart Q) x x

namespace BillingCall

section Basic

variable {α β : Type} {x : Pricing α} {g : α → Pricing β}

theorem steady_pure (a : α) : Steady (pure a : Pricing α) := fun _ => sim_pure a

theorem steady_throw (e : CalcStop) : Steady (throw e : Pricing α) := fun _ => sim_throw e

theorem steady_bind (hx : Steady x) (hg : ∀ a, Steady (g a)) : Steady (x >>= g) :=
  fun Q => sim_bind (hx Q) fun a => hg a Q

theorem steady_ite {c : Prop} [Decidable c] {y : Pricing α} (hx : Steady x) (hy : Steady y) :
    Steady (if c then x else y) :=
  fun Q => sim_ite (hx Q) (hy Q)

theorem steady_mapM {h : β → Pricing α} (hh : ∀ b, Steady (h b)) (bs : List β) :
    Steady (bs.mapM h) :=
  fun Q => sim_mapM (fun b => hh b Q) bs

theorem steady_modify {f : PricingState → PricingState}
    (hf : ∀ s m, f (s.withCurrent m) = (f s).withCurrent m)
    (hcurrent : ∀ s, (f s).currentNNPPackageMinute = s.currentNNPPackageMinute) :
    Steady (modify f) := by
  intro Q
  refine sim_modify ?_
  rintro s t ⟨m, rfl, hQ⟩
  exact ⟨m, hf s m, by rw [hcurrent]; exact hQ⟩

/-- What follows a read must not use the counters of the current calls. -/
theorem steady_get {g : PricingState → Pricing β} (hg : ∀ s, Steady (g s))
    (hsame : ∀ s m, g (s.withCurrent m) = g s) : Steady (get >>= g) := by
  intro Q
  refine sim_get ?_
  rintro s t ⟨m, rfl, -⟩
  rw [hsame]
  exact hg s Q

theorem steady_getCallInfo : Steady getCallInfo :=
  steady_get (fun _ => steady_pure _) fun _ _ => rfl

theorem steady_getCall : Steady getCall :=
  steady_get (fun _ => steady_pure _) fun _ _ => rfl

theorem steady_modifyCallInfo (f : CallInfo → CallInfo) : Steady (modifyCallInfo f) :=
  steady_modify (fun _ _ => rfl) fun _ => rfl

theorem steady_modifyCall (f : Call → Call) : Steady (modifyCall f) :=
  steady_modifyCallInfo _

theorem steady_whenSome {o : Option α} {x : α → Pricing Unit} (h : ∀ a, Steady (x a)) :
    Steady (whenSome o x) := by
  cases o with
  | none => exact steady_pure ()
  | some a => exact h a

theorem steady_onlyIf {condition : Bool} {x : Pricing Unit} (h : Steady x) :
    Steady (onlyIf condition x) := by
  cases condition with
  | false => exact steady_pure ()
  | true => exact h

theorem steady_deref (o : Option α) : Steady (deref o) := by
  cases o with
  | none => exact steady_throw _
  | some a => exact steady_pure a

theorem steady_orThrow (message : String) (o : Option α) : Steady (orThrow message o) := by
  cases o with
  | none => exact steady_throw _
  | some a => exact steady_pure a

theorem steady_getNNPNumberRange (env : PricingEnv) (num : Int) :
    Steady (getNNPNumberRange env num) :=
  steady_get (fun _ => steady_pure _) fun _ _ => rfl

theorem steady_getTrunkSettingsOrderList (env : PricingEnv) (trunk : Trunk)
    (srcNumber dstNumber destinationType : Int) :
    Steady (getTrunkSettingsOrderList env trunk srcNumber dstNumber destinationType) :=
  steady_bind (steady_getNNPNumberRange env _) fun _ => steady_pure _

end Basic

variable (env : PricingEnv)

/-! ## Before the leg is charged -/

theorem steady_setupTrunkServer (found : Option Trunk) : Steady (setupTrunkServer env found) := by
  unfold setupTrunkServer
  refine steady_bind (steady_modifyCall _) fun _ => ?_
  refine steady_bind (steady_orThrow _ _) fun _ => ?_
  refine steady_bind (steady_modifyCall _) fun _ => ?_
  refine steady_bind (steady_modifyCallInfo _) fun _ => ?_
  refine steady_bind (steady_orThrow _ _) fun _ => ?_
  refine steady_bind (steady_modifyCall _) fun _ => ?_
  refine steady_bind (steady_modifyCallInfo _) fun _ => ?_
  exact steady_bind (steady_orThrow _ _) fun _ => steady_pure _

theorem steady_setupTrunk : Steady (setupTrunk env) := by
  unfold setupTrunk
  refine steady_bind steady_getCall fun _ => ?_
  exact steady_bind (steady_modifyCallInfo _) fun _ => steady_setupTrunkServer env _

theorem steady_processSignalingCallId : Steady (processSignalingCallId env) := by
  unfold processSignalingCallId
  refine steady_bind steady_getCallInfo fun _ => ?_
  exact steady_whenSome fun _ => steady_onlyIf (steady_modifyCall _)

theorem steady_numberPreprocessing : Steady (numberPreprocessing env) := by
  unfold numberPreprocessing
  refine steady_bind steady_getCallInfo fun _ => steady_bind (steady_deref _) fun _ => ?_
  refine steady_bind (steady_whenSome fun _ => steady_modifyCall _) fun _ => ?_
  exact steady_whenSome fun _ => steady_modifyCall _

theorem steady_processRedirectNumber : Steady (processRedirectNumber env) := by
  unfold processRedirectNumber
  refine steady_bind steady_getCallInfo fun _ => steady_bind (steady_deref _) fun _ => ?_
  refine steady_ite (steady_onlyIf (steady_modifyCall _)) (steady_onlyIf ?_)
  refine steady_bind steady_getCall fun _ => steady_whenSome fun _ => ?_
  exact steady_onlyIf (steady_modifyCall _)

theorem steady_processGeo : Steady (processGeo env) := by
  unfold processGeo
  refine steady_bind steady_getCall fun _ => ?_
  refine steady_bind (steady_whenSome fun _ => steady_modifyCall _) fun _ => ?_
  exact steady_whenSome fun _ => steady_modifyCall _

theorem steady_getDest (geoId : Int) : Steady (getDest env geoId) := by
  unfold getDest
  refine steady_bind (steady_modifyCallInfo _) fun _ => ?_
  split
  · exact steady_pure _
  · refine steady_bind steady_getCallInfo fun _ => steady_bind (steady_deref _) fun _ => ?_
    exact steady_bind steady_getCall fun _ => steady_pure _

theorem steady_processDestinations : Steady (processDestinations env) := by
  unfold processDestinations
  refine steady_bind steady_getCall fun _ => ?_
  refine steady_bind (steady_whenSome fun _ => steady_modifyCall _) fun _ => ?_
  refine steady_whenSome fun _ => steady_bind (steady_getDest env _) fun _ => ?_
  exact steady_modifyCall _

theorem steady_processNNP : Steady (processNNP env) := by
  unfold processNNP
  refine steady_bind steady_getCall fun _ => ?_
  refine steady_bind (steady_getNNPNumberRange env _) fun _ => ?_
  split
  · refine steady_bind (steady_modify (fun _ _ => rfl) fun _ => rfl) fun _ => ?_
    exact steady_bind (steady_modifyCallInfo _) fun _ => steady_modifyCall _
  · exact steady_modifyCall _

theorem steady_classification (orig : Bool) : Steady (classification env orig) := by
  unfold classification
  refine steady_bind (steady_processSignalingCallId env) fun _ => ?_
  refine steady_bind (steady_onlyIf ?_) fun _ => ?_
  · exact steady_bind (steady_numberPreprocessing env) fun _ => steady_processRedirectNumber env
  · refine steady_bind (steady_processGeo env) fun _ => ?_
    refine steady_bind (steady_processDestinations env) fun _ => ?_
    exact steady_bind (steady_processNNP env) fun _ => steady_modifyCallInfo _

/-! ## Trunk settings -/

theorem steady_applyNNPOrder (order : ServiceTrunkOrder) : Steady (applyNNPOrder order) := by
  unfold applyNNPOrder
  exact steady_onlyIf (steady_bind (steady_modifyCallInfo _) fun _ => steady_modifyCall _)

theorem steady_setupEffectiveOrigTrunkSettings : Steady (setupEffectiveOrigTrunkSettings env) := by
  unfold setupEffectiveOrigTrunkSettings
  refine steady_bind steady_getCallInfo fun _ => steady_bind (steady_deref _) fun _ => ?_
  refine steady_bind (steady_getTrunkSettingsOrderList env _ _ _ _) fun _ => ?_
  refine steady_whenSome fun order => ?_
  exact steady_bind (steady_modifyCallInfo _) fun _ => steady_applyNNPOrder order

theorem steady_withStatsTrunkSettings (connectTime : Int) (order : ServiceTrunkOrder) :
    Steady (withStatsTrunkSettings connectTime order) := by
  unfold withStatsTrunkSettings
  refine steady_bind (steady_deref _) fun _ => steady_bind (steady_deref _) fun _ => ?_
  refine steady_get (fun _ => ?_) fun _ _ => rfl
  exact steady_bind (steady_modify (fun _ _ => rfl) fun _ => rfl) fun _ => steady_pure _

theorem steady_setupEffectiveTermTrunkSettings : Steady (setupEffectiveTermTrunkSettings env) := by
  unfold setupEffectiveTermTrunkSettings orderTermTrunkSettingsOrderList
  refine steady_bind steady_getCallInfo fun _ => steady_bind (steady_deref _) fun _ => ?_
  refine steady_bind (steady_getTrunkSettingsOrderList env _ _ _ _) fun orders => ?_
  refine steady_bind (steady_orThrow _ _) fun _ => ?_
  refine steady_bind (steady_bind ?_ fun _ => steady_pure _) fun _ => ?_
  · exact steady_mapM (steady_withStatsTrunkSettings _) orders
  · refine steady_whenSome fun order => ?_
    refine steady_bind (steady_modifyCallInfo _) fun _ => steady_bind (steady_deref _) fun _ => ?_
    exact steady_bind (steady_modifyCall _) fun _ => steady_applyNNPOrder order

/-! ## Services, account, price and cost -/

theorem steady_setupServiceTrunk : Steady setupServiceTrunk := by
  unfold setupServiceTrunk
  refine steady_bind steady_getCallInfo fun _ => ?_
  exact steady_bind (steady_orThrow _ _) fun _ => steady_modifyCall _

theorem steady_setupServiceNumber : Steady (setupServiceNumber env) := by
  unfold setupServiceNumber
  refine steady_bind steady_getCall fun _ => steady_bind (steady_modifyCallInfo _) fun _ => ?_
  exact steady_bind (steady_orThrow _ _) fun _ => steady_modifyCall _

theorem steady_setupServiceTrunkForNumber : Steady (setupServiceTrunkForNumber env) := by
  unfold setupServiceTrunkForNumber checkForeignTrunk
  refine steady_bind steady_getCallInfo fun _ => steady_bind (steady_deref _) fun _ => ?_
  refine steady_bind (steady_modifyCallInfo _) fun _ => ?_
  refine steady_bind (steady_onlyIf (steady_bind (steady_orThrow _ _) fun _ => ?_)) fun _ => ?_
  · refine steady_bind steady_getCallInfo fun _ => steady_bind (steady_deref _) fun _ => ?_
    exact steady_onlyIf (steady_throw _)
  · exact steady_whenSome fun _ => steady_modifyCall _

theorem steady_setupAccount : Steady (setupAccount env) := by
  unfold setupAccount
  refine steady_bind steady_getCallInfo fun _ => steady_bind (steady_modifyCallInfo _) fun _ => ?_
  refine steady_bind (steady_orThrow _ _) fun _ => ?_
  exact steady_bind (steady_modifyCallInfo _) fun _ => steady_modifyCall _

theorem steady_setupPricelist (pricelistId : Int) : Steady (setupPricelist env pricelistId) := by
  unfold setupPricelist
  refine steady_bind (steady_onlyIf (steady_modifyCallInfo _)) fun _ => ?_
  refine steady_bind steady_getCallInfo fun _ => ?_
  exact steady_bind (steady_orThrow _ _) fun _ => steady_modifyCall _

theorem steady_setupPrice (number : Int) : Steady (setupPrice env number) := by
  unfold setupPrice
  refine steady_bind (steady_onlyIf ?_) fun _ => ?_
  · refine steady_bind steady_getCallInfo fun _ => ?_
    exact steady_bind (steady_deref _) fun _ => steady_modifyCallInfo _
  · refine steady_bind steady_getCallInfo fun _ => ?_
    exact steady_bind (steady_orThrow _ _) fun _ => steady_modifyCall _

theorem steady_setupFoundPrice : Steady (setupFoundPrice env) :=
  steady_bind (steady_setupPricelist env 0) fun _ => steady_setupPrice env 0

theorem steady_setupBilledTime : Steady (setupBilledTime env) := by
  unfold setupBilledTime
  refine steady_bind steady_getCallInfo fun _ => steady_ite ?_ ?_
  · exact steady_bind (steady_deref _) fun _ => steady_modifyCall _
  · exact steady_bind (steady_deref _) fun _ => steady_modifyCall _

theorem steady_setupInterconnect : Steady setupInterconnect := by
  unfold setupInterconnect
  refine steady_bind steady_getCall fun _ => steady_onlyIf ?_
  refine steady_bind steady_getCallInfo fun _ => ?_
  exact steady_bind (steady_deref _) fun _ => steady_modifyCall _

theorem steady_setupLogTariff : Steady (setupLogTariff env) := by
  unfold setupLogTariff
  refine steady_bind steady_getCallInfo fun _ => steady_bind (steady_deref _) fun _ => ?_
  refine steady_bind (steady_modifyCallInfo _) fun _ => ?_
  exact steady_bind (steady_orThrow _ _) fun _ => steady_pure _

theorem steady_setupMainTariff : Steady (setupMainTariff env) := by
  unfold setupMainTariff
  refine steady_bind steady_getCallInfo fun _ => steady_bind (steady_deref _) fun _ => ?_
  refine steady_bind (steady_modifyCallInfo _) fun _ => ?_
  exact steady_bind (steady_orThrow _ _) fun _ => steady_pure _

theorem steady_setupTariff : Steady (setupTariff env) := by
  unfold setupTariff
  refine steady_bind steady_getCallInfo fun _ => steady_bind (steady_deref _) fun _ => ?_
  refine steady_bind (steady_modifyCallInfo _) fun _ => ?_
  exact steady_bind (steady_orThrow _ _) fun _ => steady_pure _

/-! ## Packages -/

theorem steady_setupPackagePricelist : Steady (setupPackagePricelist env) :=
  steady_modifyCallInfo _

theorem steady_setupFreemin : Steady setupFreemin := by
  unfold setupFreemin
  refine steady_bind steady_getCallInfo fun _ => steady_onlyIf ?_
  refine steady_bind (steady_deref _) fun _ => steady_bind (steady_deref _) fun _ => ?_
  refine steady_onlyIf (steady_get (fun _ => ?_) fun _ _ => rfl)
  refine steady_bind (steady_modify (fun _ _ => rfl) fun _ => rfl) fun _ => ?_
  exact steady_onlyIf (steady_modifyCall _)

theorem steady_setupPackagePrepaid : Steady (setupPackagePrepaid env) := by
  unfold setupPackagePrepaid
  refine steady_bind steady_getCallInfo fun _ => steady_onlyIf ?_
  refine steady_bind (steady_deref _) fun _ => steady_get (fun _ => ?_) fun _ _ => rfl
  refine steady_bind (steady_modify (fun _ _ => rfl) fun _ => rfl) fun _ => ?_
  exact steady_whenSome fun _ => steady_modifyCallInfo _

theorem steady_chargeNNPPackageMinute (lights : List NNPAccountTariffLight)
    (nnpPackageMinute : NNPPackageMinute) :
    Steady (chargeNNPPackageMinute env lights nnpPackageMinute) := by
  unfold chargeNNPPackageMinute
  refine steady_whenSome fun _ => steady_get (fun _ => ?_) fun _ _ => rfl
  refine steady_bind (steady_modify (fun _ _ => rfl) fun _ => rfl) fun _ => ?_
  exact steady_modifyCall _

theorem steady_applyMinute (lights : List NNPAccountTariffLight)
    (minute : Option MinuteCandidate) : Steady (applyMinute env lights minute) := by
  unfold applyMinute
  split
  · unfold applyNNPPackageMinute
    refine steady_bind (steady_orThrow _ _) fun _ => ?_
    refine steady_bind (steady_modifyCall _) fun _ => steady_bind steady_getCall fun _ => ?_
    refine steady_onlyIf (steady_bind (steady_modifyCall _) fun _ => ?_)
    exact steady_bind (steady_deref _) fun _ => steady_chargeNNPPackageMinute env lights _
  · unfold applyNNPPackage
    refine steady_bind steady_getCall fun _ => ?_
    exact steady_bind (steady_orThrow _ _) fun _ => steady_modifyCall _

theorem steady_setupNNPInterconnect : Steady (setupNNPInterconnect env) := by
  unfold setupNNPInterconnect
  refine steady_bind steady_getCallInfo fun _ => steady_onlyIf ?_
  refine steady_bind (steady_whenSome fun _ => steady_onlyIf (steady_modifyCall _)) fun _ => ?_
  exact steady_whenSome fun _ => steady_modifyCall _

/-! ## The paths without package minutes -/

theorem steady_setupOrigPrice (servicePackagePricelist : Option ServicePackage) :
    Steady (setupOrigPrice env servicePackagePricelist) := by
  unfold setupOrigPrice setupTariffPrice
  refine steady_ite ?_ (steady_setupFoundPrice env)
  refine steady_bind (steady_setupTariff env) fun _ => steady_bind steady_getCallInfo fun _ => ?_
  refine steady_bind (steady_deref _) fun _ => ?_
  refine steady_bind (steady_setupPricelist env _) fun _ => ?_
  exact steady_bind steady_getCall fun _ => steady_setupPrice env _

theorem steady_calcOrigByNumberV4 : Steady (calcOrigByNumberV4 env) := by
  unfold calcOrigByNumberV4
  refine steady_bind (steady_setupLogTariff env) fun _ => ?_
  refine steady_bind (steady_setupMainTariff env) fun _ => ?_
  refine steady_bind (steady_setupBilledTime env) fun _ => ?_
  refine steady_bind (steady_setupPackagePricelist env) fun _ => ?_
  refine steady_bind steady_getCallInfo fun _ => ?_
  refine steady_bind (steady_setupOrigPrice env _) fun _ => ?_
  refine steady_bind steady_setupFreemin fun _ => ?_
  exact steady_bind (steady_setupPackagePrepaid env) fun _ => steady_modifyCall _

theorem steady_calcTermByNumber : Steady (calcTermByNumber env) := by
  unfold calcTermByNumber
  refine steady_bind (steady_setupLogTariff env) fun _ => ?_
  refine steady_bind (steady_setupMainTariff env) fun _ => ?_
  refine steady_bind (steady_setupBilledTime env) fun _ => ?_
  refine steady_bind steady_getCall fun _ => steady_onlyIf ?_
  refine steady_bind steady_getCallInfo fun _ => steady_bind (steady_deref _) fun _ => ?_
  refine steady_bind (steady_setupPricelist env _) fun _ => steady_bind steady_getCall fun _ => ?_
  refine steady_bind (steady_setupPrice env _) fun _ => ?_
  exact steady_bind (steady_modifyCall _) fun _ => steady_modifyCall _

theorem steady_calcByTrunkV4 (orig : Bool) : Steady (calcByTrunkV4 env orig) := by
  unfold calcByTrunkV4
  refine steady_bind (steady_onlyIf (steady_setupPackagePricelist env)) fun _ => ?_
  refine steady_bind (steady_setupFoundPrice env) fun _ => ?_
  refine steady_bind (steady_setupBilledTime env) fun _ => ?_
  refine steady_bind (steady_onlyIf (steady_setupPackagePrepaid env)) fun _ => ?_
  exact steady_bind steady_setupInterconnect fun _ => steady_modifyCall _

theorem steady_calcByTrunk : Steady (calcByTrunk env) := by
  unfold calcByTrunk calcTrunkService
  refine steady_bind steady_getCall fun call => steady_bind ?_ fun _ => ?_
  · unfold setupEffectiveTrunkSettings
    exact steady_ite (steady_setupEffectiveOrigTrunkSettings env)
      (steady_setupEffectiveTermTrunkSettings env)
  · refine steady_bind steady_setupServiceTrunk fun _ => ?_
    refine steady_bind (steady_setupAccount env) fun _ => steady_bind steady_getCallInfo fun _ => ?_
    refine steady_ite (steady_calcByTrunkV4 env call.orig) (steady_ite ?_ (steady_throw _))
    refine steady_bind (steady_deref _) fun _ => steady_bind (steady_modifyCall _) fun _ => ?_
    exact steady_bind (steady_setupNNPInterconnect env) fun _ => steady_modifyCall _

end BillingCall
end VoipBill
