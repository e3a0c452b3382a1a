import VoipBill.Billing.MissingObjects

/-!
# Legs that could not be priced

A `CalcException` leaves in the leg what was written before, and the leg is added
to the counters like any other.  Each manager decides by fields of its own whether
it counts the leg; `Idle` says that none of these fields is set.

On every path a leg is idle up to its last exception: seconds are taken, and the
cost is set, only by steps behind which nothing can fail.  So adding a failed leg
changes no counter.
-/

namespace VoipBill

open Lib Lib.Hoare

/-- What the managers look at before they count a call. -/
structure Booking where
  cost : ℚ := 0
  servicePackageStatsId : Int := 0
  trunkSettingsStatsId : Int := 0
  statsNnpPackageMinuteId : Int := 0

def Call.booking (call : Call) : Booking where
  cost := call.cost
  servicePackageStatsId := call.servicePackageStatsId
  trunkSettingsStatsId := call.trunkSettingsStatsId
  statsNnpPackageMinuteId := call.statsNnpPackageMinuteId

/-- No counter takes any notice of the call. -/
def Call.Idle (call : Call) : Prop := call.booking = {}

/-- **An idle call changes no counter.** -/
theorem DataBillingContainer.counters_addCall {d : DataBillingContainer} {callInfo : CallInfo}
    (h : callInfo.call.Idle) : (d.addCall callInfo).counters = d.counters := by
  have hcost : callInfo.call.cost = 0 := congrArg Booking.cost h
  have hpackage : callInfo.call.servicePackageStatsId = 0 :=
    congrArg Booking.servicePackageStatsId h
  have htrunk : callInfo.call.trunkSettingsStatsId = 0 := congrArg Booking.trunkSettingsStatsId h
  have hminute : callInfo.call.statsNnpPackageMinuteId = 0 :=
    congrArg Booking.statsNnpPackageMinuteId h
  have haccount : d.statsAccount.add callInfo = d.statsAccount := by
    rcases d.statsAccount.add_cases callInfo with ⟨-, heq⟩ | ⟨account, -, hbooked, -⟩
    · exact heq
    · have hsmall : |callInfo.call.cost| < 0.000001 := by norm_num [hcost]
      exact absurd hbooked (by simp [StatsAccountManager.bookedRow, hsmall])
  have henqueue : (d.enqueue callInfo).counters = d.counters := by
    simp only [counters, enqueue, haccount, StatsFreeminManager.add, StatsPackageManager.add,
      StatsTrunkSettingsManager.add, StatsNNPPackageMinuteManager.add,
      StatsFreeminManager.bookedRow, StatsPackageManager.bookedRow,
      StatsTrunkSettingsManager.bookedRow, StatsNNPPackageMinuteManager.bookedRow, hpackage, htrunk,
      hminute, true_or, or_true, if_true, UsageManager.addBooked]
  rcases d.addCall_cases callInfo with heq | heq
  · rw [heq, henqueue]
  · rw [heq, ← henqueue]
    rfl

namespace BillingCall

/-- An idle leg, and the account it is charged to. -/
def IdleOf (account : Option Client) (s : PricingState) : Prop :=
  s.callInfo.call.Idle ∧ s.callInfo.account = account

/-- What `IdleOf` depends on. -/
def idleParts (s : PricingState) : Booking × Option Client :=
  (s.callInfo.call.booking, s.callInfo.account)

variable {env : PricingEnv} {account : Option Client}

theorem IdleOf.of_parts {s s' : PricingState} (h : idleParts s' = idleParts s)
    (hs : IdleOf account s) : IdleOf account s' := by
  obtain ⟨hbooking, haccount⟩ := Prod.mk.inj h
  exact ⟨hbooking.trans hs.1, haccount.trans hs.2⟩

/-- A step that keeps what the managers look at, and the account. -/
theorem idle_andThen {α β : Type} {x : Pricing α} {g : α → Pricing β}
    {Q : β → PricingState → Prop} (hx : Keeps idleParts x)
    (hg : ∀ a, Triple (IdleOf account) (g a) Q fun s => s.callInfo.call.Idle) :
    Triple (IdleOf account) (x >>= g) Q fun s => s.callInfo.call.Idle :=
  hx.andThen IdleOf.of_parts (fun _ hs => hs.1) hg

theorem idle_after {α β : Type} {x : Pricing α} {g : α → Pricing β}
    {Q : β → PricingState → Prop} {f : PricingState → PricingState} (hx : Keeps f x)
    (hf : ∀ s, idleParts s = idleParts (f s))
    (hg : ∀ a, Triple (IdleOf account) (g a) Q fun s => s.callInfo.call.Idle) :
    Triple (IdleOf account) (x >>= g) Q fun s => s.callInfo.call.Idle :=
  idle_andThen (hx.part idleParts hf) hg

/-! ## By number -/

/-- Free minutes are taken in one step at the end. -/
theorem idle_setupFreemin :
    Triple (IdleOf account) setupFreemin (fun _ s => s.callInfo.account = account)
      fun s => s.callInfo.call.Idle := by
  unfold setupFreemin
  refine triple_getCallInfo fun callInfo => triple_onlyIf (fun _ => ?_) fun _ s hs => hs.1.2
  refine triple_deref (fun s hs => hs.1.1) fun mainTariff _ => ?_
  refine triple_deref (fun s hs => hs.1.1) fun serviceNumber _ => ?_
  refine triple_onlyIf (fun _ => triple_get_bind fun s₀ => ?_) fun _ s hs => hs.1.2
  refine triple_bind (R := fun _ s => s.callInfo.account = account)
    (triple_modify fun s hs => hs.1.1.2) fun _ => ?_
  exact triple_onlyIf (fun _ => triple_modifyCall fun s hs => hs) fun _ s hs => hs

/-- With a known account taking seconds from a package cannot fail. -/
theorem returns_setupPackagePrepaid_of_account {client : Client} {E : PricingState → Prop} :
    Triple (fun s => s.callInfo.account = some client) (setupPackagePrepaid env)
      (fun _ _ => True) E := by
  unfold setupPackagePrepaid
  refine triple_getCallInfo fun callInfo => triple_onlyIf (fun _ => ?_) fun _ _ _ => trivial
  refine triple_of_fact (fun s hs => hs.2 ▸ hs.1) fun haccount => ?_
  rw [haccount]
  refine triple_deref_some (triple_get_bind fun s₀ => ?_)
  refine triple_bind (R := fun _ _ => True) (triple_modify fun _ _ => trivial) fun _ => ?_
  exact triple_whenSome (fun _ _ => triple_modifyCallInfo fun _ _ => trivial) fun _ _ _ => trivial

theorem idle_calcOrigByNumberV4 {client : Client} :
    Triple (IdleOf (some client)) (calcOrigByNumberV4 env) (fun _ _ => True)
      fun s => s.callInfo.call.Idle := by
  unfold calcOrigByNumberV4
  refine idle_after (keeps_untariffed_setupLogTariff env) (fun _ => rfl) fun _ => ?_
  refine idle_after (keeps_untariffed_setupMainTariff env) (fun _ => rfl) fun _ => ?_
  refine idle_after (keeps_unbilled_setupBilledTime env) (fun _ => rfl) fun _ => ?_
  refine idle_after (keeps_unpackaged_setupPackagePricelist env) (fun _ => rfl) fun _ => ?_
  refine idle_andThen keeps_getCallInfo fun callInfo => ?_
  refine idle_after (keeps_unpriced_setupOrigPrice env _) (fun _ => rfl) fun _ => ?_
  refine triple_bind idle_setupFreemin fun _ => ?_
  refine triple_bind returns_setupPackagePrepaid_of_account fun _ => ?_
  exact triple_modifyCall fun _ _ => trivial

/-- The cost of a call to an 800 number is set behind the last exception. -/
theorem idle_calcTermByNumber :
    Triple (IdleOf account) (calcTermByNumber env) (fun _ _ => True)
      fun s => s.callInfo.call.Idle := by
  unfold calcTermByNumber
  refine idle_after (keeps_untariffed_setupLogTariff env) (fun _ => rfl) fun _ => ?_
  refine idle_after (keeps_untariffed_setupMainTariff env) (fun _ => rfl) fun _ => ?_
  refine idle_after (keeps_unbilled_setupBilledTime env) (fun _ => rfl) fun _ => ?_
  refine idle_andThen keeps_getCall fun call => ?_
  refine triple_onlyIf (fun _ => ?_) fun _ _ _ => trivial
  refine idle_andThen keeps_getCallInfo fun callInfo => idle_andThen (keeps_deref _)
    fun mainTariff => ?_
  refine idle_after (keeps_unpriced_setupPricelist env _) (fun _ => rfl) fun _ => ?_
  refine idle_andThen keeps_getCall fun call => ?_
  refine idle_after (keeps_unpriced_setupPrice env _) (fun _ => rfl) fun _ => ?_
  refine triple_bind (R := fun _ _ => True) (triple_modifyCall fun _ _ => trivial) fun _ => ?_
  exact triple_modifyCall fun _ _ => trivial

/-- Package minutes are charged to their counter in the last step. -/
theorem idle_applyMinute (lights : List NNPAccountTariffLight) (minute : Option MinuteCandidate) :
    Triple (IdleOf account) (applyMinute env lights minute) (fun _ _ => True)
      fun s => s.callInfo.call.Idle := by
  unfold applyMinute
  split
  case h_1 candidate _ =>
    unfold applyNNPPackageMinute
    refine idle_andThen (keeps_orThrow _ _) fun nnpPackage => ?_
    refine idle_andThen (keeps_modifyCall fun _ => rfl) fun _ => ?_
    refine idle_andThen keeps_getCall fun call => triple_onlyIf (fun _ => ?_) fun _ _ _ => trivial
    refine idle_andThen (keeps_modifyCall fun _ => rfl) fun _ => ?_
    refine idle_andThen (keeps_deref _) fun nnpPackageMinute => ?_
    refine triple_whenSome (fun light _ => triple_get_bind fun s₀ => ?_) fun _ _ _ => trivial
    refine triple_bind (R := fun _ _ => True) (triple_modify fun _ _ => trivial) fun _ => ?_
    exact triple_modifyCall fun _ _ => trivial
  case h_2 =>
    unfold applyNNPPackage
    refine idle_andThen keeps_getCall fun call => idle_andThen (keeps_orThrow _ _)
      fun nnpPackage => ?_
    exact triple_modifyCall fun _ _ => trivial

theorem idle_calcOrigNNPByNumber :
    Triple (IdleOf account) (calcOrigNNPByNumber env) (fun _ _ => True)
      fun s => s.callInfo.call.Idle := by
  unfold calcOrigNNPByNumber
  refine idle_andThen keeps_getCallInfo fun callInfo => ?_
  refine idle_andThen (keeps_orThrow _ _) fun serviceNumber => ?_
  dsimp only
  split
  case isTrue => exact triple_throw fun s hs => hs.1
  case isFalse =>
    refine idle_andThen (keeps_getNNPNumberRange env _) fun range => ?_
    refine idle_after (keeps_uncurrent_setupNNPPackageMinute env _ _) (fun _ => rfl)
      fun minute => ?_
    refine idle_after (keeps_unrated_withNNPRate _ _) (fun _ => rfl) fun _ => ?_
    refine idle_andThen (keeps_modifyCall fun _ => rfl) fun _ => ?_
    refine triple_bind (idle_applyMinute _ minute) fun _ => ?_
    exact triple_modifyCall fun _ _ => trivial

theorem idle_chargeByNumber {client : Client} (fTarifficationSkip : Bool) :
    Triple (IdleOf (some client)) (chargeByNumber env fTarifficationSkip) (fun _ _ => True)
      fun s => s.callInfo.call.Idle := by
  unfold chargeByNumber
  refine idle_andThen keeps_getCallInfo fun callInfo => ?_
  split
  case isFalse => exact idle_calcTermByNumber
  case isTrue =>
    refine idle_andThen (keeps_deref _) fun server => ?_
    split
    case isTrue => exact triple_modifyCall fun _ _ => trivial
    case isFalse =>
      refine triple_onlyIf (fun _ => ?_) fun _ _ _ => trivial
      unfold calcOrigByNumber
      refine idle_andThen keeps_getCall fun call => ?_
      dsimp only
      split
      case isTrue => exact idle_calcOrigNNPByNumber
      case isFalse =>
        split
        case isTrue => exact idle_calcOrigByNumberV4
        case isFalse => exact triple_throw fun s hs => hs.1

/-! ## The whole -/

section Whole

variable {s₀ s failed : PricingState} {message : String}

theorem OfNumber.idle {trunk : Trunk} {server : Server} {serviceNumber : ServiceNumber}
    {client : Client} (h : OfNumber env s₀ trunk server serviceNumber client s)
    (hs₀ : s₀.callInfo.call.Idle) : IdleOf (some client) s := by
  refine ⟨?_, h.ofAccount⟩
  have hbooking : s.callInfo.call.booking = s₀.callInfo.call.booking :=
    congrArg (fun p => p.callInfo.call.booking) h.bill
  exact hbooking.trans hs₀

/-- **A failed leg is idle**, wherever it failed. -/
theorem idle_of_failed (hs₀ : Unpriced s₀) (hidle : s₀.callInfo.call.Idle)
    (h : exec (tariffication env) s₀ = (.error (.calcException message), failed)) :
    failed.callInfo.call.Idle := by
  have hpath := @tariffication_path env s₀ hs₀
  cases hleg : legPath env s₀ with
  | stopped =>
      rw [hleg] at hpath
      obtain ⟨_, s', hexec, hunsettled, hstats⟩ := hpath
      obtain ⟨-, rfl⟩ := Prod.mk.inj (hexec.symm.trans h)
      -- the settings of a trunk are the only thing a stopped leg may have looked up
      have hbooking : s'.callInfo.call.booking = s₀.callInfo.call.booking := by
        have hrest := congrArg (fun p => p.callInfo.call.booking) hunsettled
        have hcost : s'.callInfo.call.cost = s₀.callInfo.call.cost := congrArg Booking.cost hrest
        have hpackage := congrArg Booking.servicePackageStatsId hrest
        have hminute := congrArg Booking.statsNnpPackageMinuteId hrest
        simp only [Call.booking, hcost, hstats, Booking.mk.injEq, true_and]
        exact ⟨hpackage, hminute⟩
      exact hbooking.trans hidle
  | byNumber trunk server serviceNumber client =>
      rw [hleg] at hpath
      obtain ⟨s, hof, hexec⟩ := hpath
      have hfailed := exec_setVatFlag_error.mp (hexec.symm.trans h)
      have hends := @idle_chargeByNumber env client (isForceOrigTarifficationSkip env) s
        (hof.idle hidle)
      rw [hfailed] at hends
      exact hends
  | byTrunk trunk order =>
      rw [hleg] at hpath
      obtain ⟨client, s, horder, hof, hexec⟩ := hpath
      have hfailed := exec_setVatFlag_error.mp (hexec.symm.trans h)
      -- by trunk nothing throws once the order is found
      rcases exec_chargeByTrunk horder hof s₀.callInfo.call.orig with
        ⟨-, hnull⟩ | ⟨-, s', hreturns⟩
      · exact absurd (congrArg Prod.fst (hnull.symm.trans hfailed)) (by simp)
      · exact absurd (congrArg Prod.fst (hreturns.symm.trans hfailed)) (by simp)

end Whole

end BillingCall

/-- **A failed leg consumes nothing.**  Adding it leaves every counter as it was. -/
theorem failed_leg_consumes_nothing (env : BillingEnv) (sys : PricingSys) (leg : Leg)
    (message : String) (failed : PricingState)
    (h : exec (BillingCall.tariffication (leg.pricingEnv env)) (sys.start leg) =
      (.error (.calcException message), failed)) :
    (failed.billingData.addCall failed.callInfo).counters = failed.billingData.counters :=
  DataBillingContainer.counters_addCall
    (BillingCall.idle_of_failed (sys.start_unpriced leg) rfl h)

/-- A version 4 number whose price list has no price. -/
def pricelessTables : DataContainer where
  trunkByName := fun _ _ => some { id := 1, serverId := 1, ourTrunk := true, authByNumber := true }
  server := fun _ => some { id := 1 }
  instanceSettings := fun _ => some { id := 1 }
  client := fun _ => some { id := 3, accountVersion := 4 }
  serviceNumber := fun _ _ => some { id := 9, clientAccountId := 3 }
  tariffChangeLog := fun _ _ => some {}
  tariff := fun _ => some { id := 12, pricelistId := 5, freemin := 10 }
  pricelist := fun _ => some { id := 5 }

def pricelessLeg : Leg where
  cdr := { connectTime := 1000, sessionTime := 60, dstNumber := ['7', '9'], srcRoute := ['t'] }
  orig := true

/-- The leg has its account and its billed time when its price is not found. -/
theorem priceless_leg_consumes_nothing :
    ∃ failed, exec (BillingCall.tariffication (pricelessLeg.pricingEnv { data := pricelessTables }))
        (PricingSys.empty.start pricelessLeg) =
        (.error (.calcException "PRICE NOT FOUND"), failed) ∧
      (failed.billingData.addCall failed.callInfo).counters = failed.billingData.counters := by
  have hfails : (exec (BillingCall.tariffication
      (pricelessLeg.pricingEnv { data := pricelessTables }))
      (PricingSys.empty.start pricelessLeg)).1 = .error (.calcException "PRICE NOT FOUND") := by
    decide +kernel
  have hexec := Prod.ext (y := (_, (exec (BillingCall.tariffication
    (pricelessLeg.pricingEnv { data := pricelessTables }))
    (PricingSys.empty.start pricelessLeg)).2)) hfails rfl
  exact ⟨_, hexec, failed_leg_consumes_nothing _ _ _ _ _ hexec⟩

end VoipBill
