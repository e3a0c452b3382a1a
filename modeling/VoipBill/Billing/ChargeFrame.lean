import VoipBill.Billing.TrunkOrders

/-!
# What charging leaves alone

Charging a leg sets its tariffs and prices, its billed time, what it takes from
packages, and its cost.  `PricingState.uncharged` is the state without all of this:
the services and the account of a leg, its numbers, its month and the order of its
trunk are what they were when charging began.
-/

namespace VoipBill

open Lib Lib.Hoare

/-- The state without what the four charging paths set. -/
def PricingState.uncharged (s : PricingState) : PricingState :=
  { s with
    billingData :=
      { s.billingData with
        statsFreemin := UsageManager.empty
        statsPackage := UsageManager.empty
        statsNNPPackageMinute := UsageManager.empty }
    currentNNPPackageMinute := UsageManager.empty
    callInfo :=
      { s.callInfo with
        logTariff := none
        mainTariff := none
        tariff := none
        pricelist := none
        price := none
        servicePackagePricelist := none
        servicePackagePrepaid := none
        tariffPackagePrepaid := none
        call :=
          { s.callInfo.call with
            billedTime := 0
            rate := 0
            cost := 0
            interconnectRate := 0
            interconnectCost := 0
            servicePackageId := 0
            servicePackageStatsId := 0
            packageTime := 0
            packageCredit := 0
            pricelistId := 0
            pricePrefix := 0
            isServiceNumber := false
            statsNnpPackageMinuteId := 0
            nnpPackageMinuteId := 0
            nnpPackagePriceId := 0
            nnpPackagePricelistId := 0
            nnpPackageId := 0 } } }

namespace BillingCall

variable {env : PricingEnv}

/-- A step that keeps more keeps what charging keeps. -/
theorem uncharged_after {α β : Type} {x : Pricing α} {g : α → Pricing β}
    {f : PricingState → PricingState} (hx : Keeps f x)
    (hf : ∀ s, s.uncharged = (f s).uncharged) (hg : ∀ a, Keeps PricingState.uncharged (g a)) :
    Keeps PricingState.uncharged (x >>= g) :=
  keeps_bind (hx.part PricingState.uncharged hf) hg

theorem keeps_uncharged_withCost : Keeps PricingState.uncharged (modifyCall withCost) :=
  keeps_uncosted_withCost.part PricingState.uncharged fun _ => rfl

theorem keeps_uncharged_calcOrigByNumberV4 :
    Keeps PricingState.uncharged (calcOrigByNumberV4 env) := by
  unfold calcOrigByNumberV4
  refine uncharged_after (keeps_untariffed_setupLogTariff env) (fun _ => rfl) fun _ => ?_
  refine uncharged_after (keeps_untariffed_setupMainTariff env) (fun _ => rfl) fun _ => ?_
  refine uncharged_after (keeps_unbilled_setupBilledTime env) (fun _ => rfl) fun _ => ?_
  refine uncharged_after (keeps_unpackaged_setupPackagePricelist env) (fun _ => rfl) fun _ => ?_
  refine keeps_bind keeps_getCallInfo fun _ => ?_
  refine uncharged_after (keeps_unpriced_setupOrigPrice env _) (fun _ => rfl) fun _ => ?_
  refine uncharged_after keeps_unprepaid_setupFreemin (fun _ => rfl) fun _ => ?_
  refine uncharged_after (keeps_unprepaid_setupPackagePrepaid env) (fun _ => rfl) fun _ => ?_
  exact keeps_uncharged_withCost

theorem keeps_uncharged_calcOrigNNPByNumber :
    Keeps PricingState.uncharged (calcOrigNNPByNumber env) := by
  unfold calcOrigNNPByNumber
  refine keeps_bind keeps_getCallInfo fun _ => keeps_bind (keeps_orThrow _ _) fun _ => ?_
  refine keeps_ite (keeps_throw _) (keeps_bind (keeps_getNNPNumberRange env _) fun _ => ?_)
  refine uncharged_after (keeps_uncurrent_setupNNPPackageMinute env _ _) (fun _ => rfl)
    fun minute => ?_
  refine uncharged_after (keeps_unrated_withNNPRate _ _) (fun _ => rfl) fun _ => ?_
  refine keeps_bind (keeps_modifyCall fun _ => rfl) fun _ => ?_
  refine uncharged_after (keeps_unminuted_applyMinute env _ _) (fun _ => rfl) fun _ => ?_
  exact keeps_uncharged_withCost

theorem keeps_uncharged_calcTermByNumber :
    Keeps PricingState.uncharged (calcTermByNumber env) := by
  unfold calcTermByNumber
  refine uncharged_after (keeps_untariffed_setupLogTariff env) (fun _ => rfl) fun _ => ?_
  refine uncharged_after (keeps_untariffed_setupMainTariff env) (fun _ => rfl) fun _ => ?_
  refine uncharged_after (keeps_unbilled_setupBilledTime env) (fun _ => rfl) fun _ => ?_
  refine keeps_bind keeps_getCall fun _ => keeps_onlyIf ?_
  refine keeps_bind keeps_getCallInfo fun _ => keeps_bind (keeps_deref _) fun _ => ?_
  refine uncharged_after (keeps_unpriced_setupPricelist env _) (fun _ => rfl) fun _ => ?_
  refine keeps_bind keeps_getCall fun _ => ?_
  refine uncharged_after (keeps_unpriced_setupPrice env _) (fun _ => rfl) fun _ => ?_
  exact keeps_bind keeps_uncharged_withCost fun _ => keeps_modifyCall fun _ => rfl

/-- **Charging by number** keeps the services and the account. -/
theorem keeps_uncharged_chargeByNumber (fTarifficationSkip : Bool) :
    Keeps PricingState.uncharged (chargeByNumber env fTarifficationSkip) := by
  unfold chargeByNumber
  refine keeps_bind keeps_getCallInfo fun _ => keeps_ite ?_ keeps_uncharged_calcTermByNumber
  refine keeps_bind (keeps_deref _) fun server => ?_
  refine keeps_ite (keeps_modifyCall fun _ => rfl) (keeps_onlyIf ?_)
  unfold calcOrigByNumber
  refine keeps_bind keeps_getCall fun call => ?_
  refine keeps_ite keeps_uncharged_calcOrigNNPByNumber ?_
  exact keeps_ite keeps_uncharged_calcOrigByNumberV4 (keeps_throw _)

/-- **Charging by trunk** keeps the services and the account. -/
theorem keeps_uncharged_chargeByTrunk (orig : Bool) :
    Keeps PricingState.uncharged (chargeByTrunk env orig) := by
  unfold chargeByTrunk
  refine keeps_bind keeps_getCallInfo fun _ => keeps_ite ?_ (keeps_ite ?_ (keeps_throw _))
  · unfold calcByTrunkV4
    refine keeps_bind (keeps_onlyIf ((keeps_unpackaged_setupPackagePricelist env).part
      PricingState.uncharged fun _ => rfl)) fun _ => ?_
    refine uncharged_after (keeps_unpriced_setupFoundPrice env) (fun _ => rfl) fun _ => ?_
    refine uncharged_after (keeps_unbilled_setupBilledTime env) (fun _ => rfl) fun _ => ?_
    refine keeps_bind (keeps_onlyIf ((keeps_unprepaid_setupPackagePrepaid env).part
      PricingState.uncharged fun _ => rfl)) fun _ => ?_
    refine uncharged_after keeps_uninterconnected_setupInterconnect (fun _ => rfl) fun _ => ?_
    exact keeps_uncharged_withCost
  · refine keeps_bind (keeps_deref _) fun nnpPackage => ?_
    refine keeps_bind (keeps_modifyCall fun _ => rfl) fun _ => ?_
    refine uncharged_after (keeps_uninterconnected_setupNNPInterconnect env) (fun _ => rfl)
      fun _ => ?_
    exact keeps_uncharged_withCost

end BillingCall
end VoipBill
