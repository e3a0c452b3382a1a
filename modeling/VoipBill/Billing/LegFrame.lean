import VoipBill.Billing.ChargeFrame

/-!
# Steps that write to the leg only

Up to the point where a leg is charged, pricing writes to the leg and to nothing
else, but for the counters of trunk settings and the number ranges.  What does not
depend on the leg is kept by each of these steps.

`keeps_destinations_tariffication`: the ranges may get a country, and keep their
destinations.
-/

namespace VoipBill

open Lib Lib.Hoare

namespace BillingCall

section LegOnly

variable {γ : Type} {f : PricingState → γ} (env : PricingEnv)
  (hf : ∀ (s : PricingState) (callInfo : CallInfo), f { s with callInfo := callInfo } = f s)

include hf

theorem keeps_of_leg_setupTrunk : Keeps f (setupTrunk env) := by
  unfold setupTrunk setupTrunkServer
  refine keeps_bind keeps_getCall fun _ => ?_
  refine keeps_bind (keeps_modifyCallInfo fun s => hf s _) fun _ => ?_
  refine keeps_bind (keeps_modifyCall fun s => hf s _) fun _ => ?_
  refine keeps_bind (keeps_orThrow _ _) fun _ => ?_
  refine keeps_bind (keeps_modifyCall fun s => hf s _) fun _ => ?_
  refine keeps_bind (keeps_modifyCallInfo fun s => hf s _) fun _ => ?_
  refine keeps_bind (keeps_orThrow _ _) fun _ => ?_
  refine keeps_bind (keeps_modifyCall fun s => hf s _) fun _ => ?_
  refine keeps_bind (keeps_modifyCallInfo fun s => hf s _) fun _ => ?_
  exact keeps_bind (keeps_orThrow _ _) fun _ => keeps_pure _

/-- The steps of classification before the number range is looked up. -/
theorem keeps_of_leg_numbers (orig : Bool) :
    Keeps f (onlyIf orig do
      numberPreprocessing env
      processRedirectNumber env) := by
  refine keeps_onlyIf (keeps_bind ?_ fun _ => ?_)
  · unfold numberPreprocessing
    refine keeps_bind keeps_getCallInfo fun _ => keeps_bind (keeps_deref _) fun _ => ?_
    refine keeps_bind (keeps_whenSome fun _ => keeps_modifyCall fun s => hf s _) fun _ => ?_
    exact keeps_whenSome fun _ => keeps_modifyCall fun s => hf s _
  · unfold processRedirectNumber
    refine keeps_bind keeps_getCallInfo fun _ => keeps_bind (keeps_deref _) fun _ => ?_
    refine keeps_ite (keeps_onlyIf (keeps_modifyCall fun s => hf s _)) (keeps_onlyIf ?_)
    refine keeps_bind keeps_getCall fun _ => keeps_whenSome fun _ => ?_
    exact keeps_onlyIf (keeps_modifyCall fun s => hf s _)

theorem keeps_of_leg_processSignalingCallId : Keeps f (processSignalingCallId env) := by
  unfold processSignalingCallId
  refine keeps_bind keeps_getCallInfo fun _ => ?_
  exact keeps_whenSome fun _ => keeps_onlyIf (keeps_modifyCall fun s => hf s _)

theorem keeps_of_leg_processGeo : Keeps f (processGeo env) := by
  unfold processGeo
  refine keeps_bind keeps_getCall fun _ => ?_
  refine keeps_bind (keeps_whenSome fun _ => keeps_modifyCall fun s => hf s _) fun _ => ?_
  exact keeps_whenSome fun _ => keeps_modifyCall fun s => hf s _

theorem keeps_of_leg_processDestinations : Keeps f (processDestinations env) := by
  unfold processDestinations getDest
  refine keeps_bind keeps_getCall fun _ => ?_
  refine keeps_bind (keeps_whenSome fun _ => keeps_modifyCall fun s => hf s _) fun _ => ?_
  refine keeps_whenSome fun _ => keeps_bind ?_ fun _ => keeps_modifyCall fun s => hf s _
  refine keeps_bind (keeps_modifyCallInfo fun s => hf s _) fun _ => ?_
  split
  · exact keeps_pure _
  · refine keeps_bind keeps_getCallInfo fun _ => keeps_bind (keeps_deref _) fun _ => ?_
    exact keeps_bind keeps_getCall fun _ => keeps_pure _

theorem keeps_of_leg_setupServiceNumber : Keeps f (setupServiceNumber env) := by
  unfold setupServiceNumber
  refine keeps_bind keeps_getCall fun _ => ?_
  refine keeps_bind (keeps_modifyCallInfo fun s => hf s _) fun _ => ?_
  exact keeps_bind (keeps_orThrow _ _) fun _ => keeps_modifyCall fun s => hf s _

theorem keeps_of_leg_setupServiceTrunkForNumber : Keeps f (setupServiceTrunkForNumber env) := by
  unfold setupServiceTrunkForNumber checkForeignTrunk
  refine keeps_bind keeps_getCallInfo fun _ => keeps_bind (keeps_deref _) fun _ => ?_
  refine keeps_bind (keeps_modifyCallInfo fun s => hf s _) fun _ => ?_
  refine keeps_bind (keeps_onlyIf (keeps_bind (keeps_orThrow _ _) fun _ => ?_)) fun _ => ?_
  · refine keeps_bind keeps_getCallInfo fun _ => keeps_bind (keeps_deref _) fun _ => ?_
    exact keeps_onlyIf (keeps_throw _)
  · exact keeps_whenSome fun _ => keeps_modifyCall fun s => hf s _

theorem keeps_of_leg_setupAccount : Keeps f (setupAccount env) := by
  unfold setupAccount
  refine keeps_bind keeps_getCallInfo fun _ => ?_
  refine keeps_bind (keeps_modifyCallInfo fun s => hf s _) fun _ => ?_
  refine keeps_bind (keeps_orThrow _ _) fun _ => ?_
  refine keeps_bind (keeps_modifyCallInfo fun s => hf s _) fun _ => ?_
  exact keeps_modifyCall fun s => hf s _

theorem keeps_of_leg_applyNNPOrder (order : ServiceTrunkOrder) :
    Keeps f (applyNNPOrder order) := by
  refine keeps_onlyIf (keeps_bind (keeps_modifyCallInfo fun s => hf s _) fun _ => ?_)
  exact keeps_modifyCall fun s => hf s _

theorem keeps_of_leg_setupEffectiveOrigTrunkSettings :
    Keeps f (setupEffectiveOrigTrunkSettings env) := by
  unfold setupEffectiveOrigTrunkSettings
  refine keeps_bind keeps_getCallInfo fun _ => keeps_bind (keeps_deref _) fun _ => ?_
  refine keeps_bind (keeps_getTrunkSettingsOrderList env _ _ _ _) fun _ => ?_
  refine keeps_whenSome fun order => keeps_bind (keeps_modifyCallInfo fun s => hf s _) fun _ => ?_
  exact keeps_of_leg_applyNNPOrder hf order

end LegOnly

/-! ## Number ranges -/

section Ranges

variable (env : PricingEnv)

/-- The destinations of the loaded ranges. -/
def destinations (s : PricingState) : Int → List Int := destinationsOf env s.numberRanges

theorem keeps_destinations_processNNP : Keeps (destinations env) (processNNP env) := by
  intro s
  unfold processNNP
  rw [exec_bind_ok (exec_getCall s)]
  have hfound : exec (getNNPNumberRange env (getNumber s.callInfo.call)) s =
      (.ok ((env.repository.data.nnpNumberRange (getNumber s.callInfo.call)).bind
        fun row => s.numberRanges[row]?), s) := rfl
  rw [exec_bind_ok hfound]
  split
  case h_1 row range _ hrow hrange =>
    rw [hrow, Option.bind_some] at hrange
    funext num
    exact destinationsOf_insert hrange _ num
  case h_2 => rfl

theorem keeps_destinations_classification (orig : Bool) :
    Keeps (destinations env) (classification env orig) := by
  have hleg : ∀ (s : PricingState) (callInfo : CallInfo),
      destinations env { s with callInfo := callInfo } = destinations env s := fun _ _ => rfl
  unfold classification
  refine keeps_bind (keeps_of_leg_processSignalingCallId env hleg) fun _ => ?_
  refine keeps_bind (keeps_of_leg_numbers env hleg orig) fun _ => ?_
  refine keeps_bind (keeps_of_leg_processGeo env hleg) fun _ => ?_
  refine keeps_bind (keeps_of_leg_processDestinations env hleg) fun _ => ?_
  exact keeps_bind (keeps_destinations_processNNP env) fun _ => keeps_modifyCallInfo fun _ => rfl

theorem keeps_destinations_calcByNumber (fTarifficationSkip : Bool) :
    Keeps (destinations env) (calcByNumber env fTarifficationSkip) := by
  have hleg : ∀ (s : PricingState) (callInfo : CallInfo),
      destinations env { s with callInfo := callInfo } = destinations env s := fun _ _ => rfl
  unfold calcByNumber
  refine keeps_bind keeps_getCall fun _ => ?_
  refine keeps_bind (keeps_onlyIf (keeps_modifyCall fun _ => rfl)) fun _ => ?_
  refine keeps_bind (keeps_of_leg_setupServiceNumber env hleg) fun _ => ?_
  refine keeps_bind (keeps_of_leg_setupServiceTrunkForNumber env hleg) fun _ => ?_
  refine keeps_bind (keeps_of_leg_setupAccount env hleg) fun _ => ?_
  exact (keeps_uncharged_chargeByNumber fTarifficationSkip).part (destinations env) fun _ => rfl

theorem keeps_destinations_calcByTrunk : Keeps (destinations env) (calcByTrunk env) := by
  have hleg : ∀ (s : PricingState) (callInfo : CallInfo),
      destinations env { s with callInfo := callInfo } = destinations env s := fun _ _ => rfl
  unfold calcByTrunk setupEffectiveTrunkSettings
  refine keeps_bind keeps_getCall fun call => keeps_bind (keeps_ite ?_ ?_) fun _ => ?_
  · exact keeps_of_leg_setupEffectiveOrigTrunkSettings env hleg
  · unfold setupEffectiveTermTrunkSettings orderTermTrunkSettingsOrderList withStatsTrunkSettings
    refine keeps_bind keeps_getCallInfo fun _ => keeps_bind (keeps_deref _) fun _ => ?_
    refine keeps_bind (keeps_getTrunkSettingsOrderList env _ _ _ _) fun orders => ?_
    refine keeps_bind (keeps_orThrow _ _) fun _ => ?_
    refine keeps_bind (keeps_bind (keeps_mapM (fun order => ?_) orders) fun _ => keeps_pure _)
      fun _ => ?_
    · refine keeps_bind (keeps_deref _) fun _ => keeps_bind (keeps_deref _) fun _ => ?_
      refine keeps_bind keeps_get fun _ => ?_
      exact keeps_bind (keeps_modify fun _ => rfl) fun _ => keeps_pure _
    · refine keeps_whenSome fun order => keeps_bind (keeps_modifyCallInfo fun _ => rfl) fun _ => ?_
      refine keeps_bind (keeps_deref _) fun _ => ?_
      refine keeps_bind (keeps_modifyCall fun _ => rfl) fun _ => ?_
      exact keeps_of_leg_applyNNPOrder hleg order
  · unfold calcTrunkService setupServiceTrunk
    refine keeps_bind ?_ fun _ => keeps_bind (keeps_of_leg_setupAccount env hleg) fun _ => ?_
    · refine keeps_bind keeps_getCallInfo fun _ => keeps_bind (keeps_orThrow _ _) fun _ => ?_
      exact keeps_modifyCall fun _ => rfl
    · exact (keeps_uncharged_chargeByTrunk call.orig).part (destinations env) fun _ => rfl

/-- **Pricing changes no destination.** -/
theorem keeps_destinations_tariffication : Keeps (destinations env) (tariffication env) := by
  unfold tariffication charging
  refine keeps_bind keeps_getCall fun call => ?_
  refine keeps_bind (keeps_of_leg_setupTrunk env fun _ _ => rfl) fun _ => ?_
  refine keeps_bind (keeps_destinations_classification env call.orig) fun _ => ?_
  refine keeps_bind (keeps_bind keeps_getCallInfo fun _ => ?_) fun _ =>
    keeps_modifyCallInfo fun _ => rfl
  refine keeps_bind (keeps_deref _) fun _ => ?_
  exact keeps_ite (keeps_destinations_calcByNumber env _) (keeps_destinations_calcByTrunk env)

end Ranges

end BillingCall
end VoipBill
