import VoipBill.Billing.TrunkOrders

/-!
# What a priced leg adds up to

The cost of a leg and the credit it takes from packages are set by one formula, at
the end of every path that charges.  The formula splits the billed time into the
seconds of packages and the rest, so both together are the billed time at the rate
of the leg, whichever path has set rate, billed time and package time.

* `withCost_balance`: the formula, for a rate that is not negative and a package
  time within the billed time;
* `Open`: what is known of a leg before it takes seconds from a package;
* `Ready`: what is known of it before its cost is set.
-/

namespace VoipBill

open Lib Lib.Hoare

/-- Prices and tariffication intervals are not negative. -/
structure NonNegative (data : DataContainer) : Prop where
  price : ∀ {pricelistId number time price},
    data.pricelistPrice pricelistId number time = some price → 0 ≤ price.price
  packagePrice : ∀ price ∈ data.nnpPackagePrice, 0 ≤ price.price
  interval : ∀ {id nnpPackage}, data.nnpPackage id = some nnpPackage →
    0 ≤ nnpPackage.tarificationIntervalSeconds

namespace BillingCall

/-! ## Times -/

theorem getCallLength_nonneg (env : PricingEnv) (len : Int)
    (byMinutes fullFirstMinute freeFirstMinutes : Bool) :
    0 ≤ getCallLength env len byMinutes fullFirstMinute freeFirstMinutes := by
  unfold getCallLength
  dsimp only
  split
  · exact le_refl 0
  · split
    · exact le_refl 0
    · split
      · split
        · omega
        · omega
      · split
        · omega
        · omega

theorem getCallLengthNNP_nonneg (len : Int) {nnpPackage : NNPPackage}
    (h : 0 ≤ nnpPackage.tarificationIntervalSeconds) : 0 ≤ getCallLengthNNP len nnpPackage := by
  have hinterval : ∀ interval : Int, interval =
      (if nnpPackage.tarificationIntervalSeconds = 0 then 1
        else nnpPackage.tarificationIntervalSeconds) → 0 ≤ interval := by
    intro interval heq
    split at heq
    · omega
    · omega
  unfold getCallLengthNNP
  dsimp only
  generalize hgen : (if nnpPackage.tarificationIntervalSeconds = 0 then 1
    else nnpPackage.tarificationIntervalSeconds) = interval
  have hpos := hinterval interval hgen.symm
  split
  · exact le_refl 0
  · split
    · exact le_refl 0
    · split
      · exact abs_nonneg _
      · have hdiv : 0 ≤ len.tdiv interval := Int.tdiv_nonneg (by omega) hpos
        split
        · omega
        · split
          · exact mul_nonneg hdiv hpos
          · exact mul_nonneg (by omega) hpos

/-! ## The formula -/

/-- What a leg owes before its cost is set. -/
structure Owes (call : Call) : Prop where
  packageTime : 0 ≤ call.packageTime
  within : call.packageTime ≤ call.billedTime
  rate : 0 ≤ call.rate

/-- The cost and the credit make up the billed time at the rate of the leg. -/
def Balanced (call : Call) : Prop :=
  |call.cost| + |call.packageCredit| = call.billedTime * call.rate / 60

section Formula

variable {call : Call}

/-- Seconds at a rate, with the sign of the leg. -/
theorem abs_signed_charge (orig : Bool) {seconds : Int} {rate : ℚ} (hseconds : 0 ≤ seconds)
    (hrate : 0 ≤ rate) :
    |(if orig then (-1 : ℚ) else 1) * (seconds * rate / 60)| = seconds * rate / 60 := by
  have hcharge : (0 : ℚ) ≤ seconds * rate / 60 := by positivity
  cases orig with
  | true => rw [if_pos rfl, neg_one_mul, abs_neg, abs_of_nonneg hcharge]
  | false => rw [if_neg Bool.false_ne_true, one_mul, abs_of_nonneg hcharge]

theorem abs_cost_withCost (h : Owes call) :
    |(withCost call).cost| = (call.billedTime - call.packageTime : Int) * call.rate / 60 := by
  show |if 0 < call.billedTime - call.packageTime then _ else (0 : ℚ)| = _
  by_cases hpaid : 0 < call.billedTime - call.packageTime
  · rw [if_pos hpaid]
    exact abs_signed_charge call.orig hpaid.le h.rate
  · have hzero : call.billedTime - call.packageTime = 0 := by
      have := h.within
      omega
    rw [if_neg hpaid, hzero]
    simp

theorem abs_packageCredit_withCost (h : Owes call) :
    |(withCost call).packageCredit| = call.packageTime * call.rate / 60 := by
  show |if 0 < call.billedTime then _ else (0 : ℚ)| = _
  by_cases hbilled : 0 < call.billedTime
  · rw [if_pos hbilled]
    exact abs_signed_charge call.orig h.packageTime h.rate
  · have hzero : call.packageTime = 0 := by
      have := h.within
      have := h.packageTime
      omega
    rw [if_neg hbilled, hzero]
    simp

/-- **Cost and credit balance.** -/
theorem withCost_balance (h : Owes call) : Balanced (withCost call) := by
  show |(withCost call).cost| + |(withCost call).packageCredit| = call.billedTime * call.rate / 60
  rw [abs_cost_withCost h, abs_packageCredit_withCost h]
  push_cast
  ring

/-- An originating leg pays, a terminating one earns. -/
theorem withCost_sign (h : Owes call) :
    if call.orig then (withCost call).cost ≤ 0 else 0 ≤ (withCost call).cost := by
  have hcharge : 0 < call.billedTime - call.packageTime →
      (0 : ℚ) ≤ (call.billedTime - call.packageTime : Int) * call.rate / 60 := by
    intro hpaid
    have hrate := h.rate
    have hpaid' : (0 : ℚ) ≤ (call.billedTime - call.packageTime : Int) := by exact_mod_cast hpaid.le
    positivity
  unfold withCost
  dsimp only
  by_cases hpaid : 0 < call.billedTime - call.packageTime
  · have := hcharge hpaid
    rw [if_pos hpaid]
    cases call.orig with
    | true =>
        simp only [if_true]
        linarith
    | false =>
        simp only [Bool.false_eq_true, if_false]
        linarith
  · rw [if_neg hpaid]
    split
    · exact le_refl 0
    · exact le_refl 0

end Formula

/-! ## Up to the cost -/

/-- A leg that has taken nothing from packages yet.  Its billed time and its rate
may be set already. -/
structure Open (orig : Bool) (number : Int) (billed rated : Bool) (s : PricingState) : Prop where
  orig : s.callInfo.call.orig = orig
  ofNumber : getNumber s.callInfo.call = number
  cost : s.callInfo.call.cost = 0
  packageTime : s.callInfo.call.packageTime = 0
  price : ∀ price, s.callInfo.price = some price → 0 ≤ price.price
  billedTime : billed = true → 0 ≤ s.callInfo.call.billedTime
  rate : rated = true → 0 ≤ s.callInfo.call.rate

/-- A leg whose cost is set next. -/
structure Ready (orig : Bool) (s : PricingState) : Prop where
  orig : s.callInfo.call.orig = orig
  owes : Owes s.callInfo.call

/-- A leg that is charged: an originating one pays, a terminating one earns. -/
structure Charged (orig : Bool) (s : PricingState) : Prop where
  owes : Owes s.callInfo.call
  balanced : Balanced s.callInfo.call
  sign : if orig then s.callInfo.call.cost ≤ 0 else 0 ≤ s.callInfo.call.cost

/-- What `Open` depends on. -/
def openParts (s : PricingState) : Bool × Int × ℚ × Int × Option PricelistPrice × Int × ℚ :=
  (s.callInfo.call.orig, getNumber s.callInfo.call, s.callInfo.call.cost,
    s.callInfo.call.packageTime, s.callInfo.price, s.callInfo.call.billedTime,
    s.callInfo.call.rate)

/-- What `Ready` depends on. -/
def readyParts (s : PricingState) : Bool × Int × Int × ℚ :=
  (s.callInfo.call.orig, s.callInfo.call.packageTime, s.callInfo.call.billedTime,
    s.callInfo.call.rate)

variable {env : PricingEnv} {orig billed rated : Bool} {number : Int}

theorem Open.of_parts {s s' : PricingState} (h : openParts s' = openParts s)
    (hs : Open orig number billed rated s) : Open orig number billed rated s' := by
  simp only [openParts, Prod.mk.injEq] at h
  obtain ⟨horig, hnumber, hcost, hpackage, hprice, hbilled, hrate⟩ := h
  exact {
    orig := horig.trans hs.orig
    ofNumber := hnumber.trans hs.ofNumber
    cost := hcost.trans hs.cost
    packageTime := hpackage.trans hs.packageTime
    price := by rw [hprice]; exact hs.price
    billedTime := by rw [hbilled]; exact hs.billedTime
    rate := by rw [hrate]; exact hs.rate }

theorem Open.ready {s : PricingState} (h : Open orig number true true s) : Ready orig s where
  orig := h.orig
  owes := {
    packageTime := h.packageTime.ge
    within := h.packageTime.trans_le (h.billedTime rfl)
    rate := h.rate rfl }

theorem Ready.of_parts {s s' : PricingState} (h : readyParts s' = readyParts s)
    (hs : Ready orig s) : Ready orig s' := by
  simp only [readyParts, Prod.mk.injEq] at h
  obtain ⟨horig, hpackage, hbilled, hrate⟩ := h
  exact {
    orig := horig.trans hs.orig
    owes := {
      packageTime := hpackage ▸ hs.owes.packageTime
      within := hpackage ▸ hbilled ▸ hs.owes.within
      rate := hrate ▸ hs.owes.rate } }

/-- A step that changes nothing `Open` depends on. -/
theorem open_after {α β : Type} {x : Pricing α} {g : α → Pricing β} {Q : β → PricingState → Prop}
    {f : PricingState → PricingState} (hx : Keeps f x) (hf : ∀ s, openParts s = openParts (f s))
    (hg : ∀ a, Triple (Open orig number billed rated) (g a) Q fun _ => True) :
    Triple (Open orig number billed rated) (x >>= g) Q fun _ => True :=
  (hx.part openParts hf).andThen Open.of_parts (fun _ _ => trivial) hg

theorem ready_after {α β : Type} {x : Pricing α} {g : α → Pricing β}
    {Q : β → PricingState → Prop} {f : PricingState → PricingState} (hx : Keeps f x)
    (hf : ∀ s, readyParts s = readyParts (f s))
    (hg : ∀ a, Triple (Ready orig) (g a) Q fun _ => True) :
    Triple (Ready orig) (x >>= g) Q fun _ => True :=
  (hx.part readyParts hf).andThen Ready.of_parts (fun _ _ => trivial) hg

theorem open_setupBilledTime :
    Triple (Open orig number billed rated) (setupBilledTime env) (fun _ => Open orig number true rated)
      fun _ => True := by
  unfold setupBilledTime
  refine triple_getCallInfo fun callInfo => ?_
  split
  · refine triple_deref (fun _ _ => trivial) fun mainTariff _ => ?_
    exact triple_modifyCall fun s hs =>
      { hs.1 with billedTime := fun _ => getCallLength_nonneg env _ _ _ _ }
  · refine triple_deref (fun _ _ => trivial) fun pricelist _ => ?_
    exact triple_modifyCall fun s hs =>
      { hs.1 with billedTime := fun _ => getCallLength_nonneg env _ _ _ false }

theorem open_setupPricelist (pricelistId : Int) :
    Triple (Open orig number billed rated) (setupPricelist env pricelistId)
      (fun _ => Open orig number billed rated) fun _ => True := by
  unfold setupPricelist
  refine triple_bind (R := fun _ => Open orig number billed rated) (triple_onlyIf (fun _ =>
    triple_modifyCallInfo fun s hs => { hs with }) fun _ s hs => hs) fun _ => ?_
  refine triple_getCallInfo fun callInfo => triple_orThrow (fun _ _ => trivial) fun pricelist _ => ?_
  exact triple_modifyCall fun s hs => { hs.1 with }

variable (hdata : NonNegative env.repository.data)

include hdata

/-- The rate of a leg is that of the price found now or before. -/
theorem open_setupPrice (dstNumber : Int) :
    Triple (Open orig number billed rated) (setupPrice env dstNumber)
      (fun _ => Open orig number billed true) fun _ => True := by
  unfold setupPrice
  refine triple_bind (R := fun _ => Open orig number billed rated) (triple_onlyIf (fun _ => ?_)
    fun _ s hs => hs) fun _ => ?_
  · refine triple_getCallInfo fun callInfo => triple_deref (fun _ _ => trivial)
      fun pricelist _ => ?_
    exact triple_modifyCallInfo fun s hs =>
      { hs.1 with price := fun price hfound => hdata.price hfound }
  · refine triple_getCallInfo fun callInfo => triple_orThrow (fun _ _ => trivial)
      fun price hfound => ?_
    exact triple_modifyCall fun s hs =>
      { hs.1 with rate := fun _ => hs.1.price price (hs.2 ▸ hfound) }

theorem open_setupFoundPrice :
    Triple (Open orig number billed rated) (setupFoundPrice env) (fun _ => Open orig number billed true)
      fun _ => True :=
  triple_bind (open_setupPricelist 0) fun _ => open_setupPrice hdata 0

theorem open_setupOrigPrice (servicePackagePricelist : Option ServicePackage) :
    Triple (Open orig number billed rated) (setupOrigPrice env servicePackagePricelist)
      (fun _ => Open orig number billed true) fun _ => True := by
  unfold setupOrigPrice
  split
  case isFalse => exact open_setupFoundPrice hdata
  case isTrue =>
    unfold setupTariffPrice
    refine triple_bind (R := fun _ => Open orig number billed rated) ?_ fun _ => ?_
    · unfold setupTariff
      refine triple_getCallInfo fun callInfo => triple_deref (fun _ _ => trivial)
        fun logTariff _ => ?_
      refine triple_bind (R := fun _ => Open orig number billed rated)
        (triple_modifyCallInfo fun s hs => { hs.1 with }) fun _ => ?_
      exact triple_orThrow (fun _ _ => trivial) fun _ _ => triple_pure fun s hs => hs
    · refine triple_getCallInfo fun callInfo => triple_deref (fun _ _ => trivial)
        fun tariff _ => ?_
      refine triple_bind ((open_setupPricelist tariff.pricelistId).pre fun s hs => hs.1)
        fun _ => ?_
      exact triple_getCall fun call => (open_setupPrice hdata call.dstNumber).pre fun s hs => hs.1

omit hdata in
theorem getPrice_of_packagePrice {callInfo : CallInfo} {servicePackage : ServicePackage}
    {found : Pricelist × PricelistPrice}
    (h : packagePrice env callInfo servicePackage = some found) :
    ∃ pricelistId number, env.repository.getPrice pricelistId number = some found.2 := by
  unfold packagePrice at h
  obtain ⟨tariff, -, h⟩ := Option.bind_eq_some_iff.mp h
  split at h
  case isTrue => exact absurd h (by simp)
  case isFalse =>
    obtain ⟨pricelist, -, h⟩ := Option.bind_eq_some_iff.mp h
    obtain ⟨price, hprice, h⟩ := Option.bind_eq_some_iff.mp h
    rw [← Option.some.inj h]
    exact ⟨_, _, hprice⟩

/-- The price of a package is a price of the tables. -/
theorem open_setupPackagePricelist :
    Triple (Open orig number billed rated) (setupPackagePricelist env)
      (fun _ => Open orig number billed rated) fun _ => True := by
  refine triple_modifyCallInfo fun s hs => ?_
  refine List.foldlRecOn
    (motive := fun callInfo => Open orig number billed rated { s with callInfo := callInfo })
    (packagesOf env s.callInfo) (applyPackagePrice env) hs fun callInfo hinfo package _ => ?_
  unfold applyPackagePrice
  split
  case h_1 => exact hinfo
  case h_2 found hfound =>
    obtain ⟨pricelistId, number, hlisted⟩ := getPrice_of_packagePrice hfound
    refine { hinfo with price := fun price heq => ?_ }
    rw [← Option.some.inj heq]
    exact hdata.price hlisted

/-! ## Taking seconds from a package -/

omit hdata

theorem ready_setupFreemin :
    Triple (Ready orig) setupFreemin (fun _ => Ready orig) fun _ => True := by
  unfold setupFreemin
  refine triple_getCallInfo fun callInfo => triple_onlyIf (fun _ => ?_) fun _ s hs => hs.1
  refine triple_deref (fun _ _ => trivial) fun mainTariff _ => ?_
  refine triple_deref (fun _ _ => trivial) fun serviceNumber _ => ?_
  refine triple_onlyIf (fun _ => triple_get_bind fun s₀ => ?_) fun _ s hs => hs.1
  refine triple_bind (R := fun _ s => Ready orig s ∧ s.callInfo = callInfo)
    (triple_modify fun s hs => ⟨{ hs.1.1 with }, hs.1.2⟩) fun _ => ?_
  refine triple_onlyIf (fun havailable => ?_) fun _ s hs => hs.1
  refine triple_modifyCall fun s hs => ⟨hs.1.orig, ?_⟩
  have hbilled : s.callInfo.call.billedTime = callInfo.call.billedTime := by rw [hs.2]
  exact {
    packageTime := (of_decide_eq_true havailable).le
    within := (min_le_right _ _).trans_eq hbilled.symm
    rate := hs.1.owes.rate }

/-- The chosen package covers a part of the billed time. -/
theorem choosePackage_within {callInfo : CallInfo} {account : Client}
    (hbilled : 0 ≤ callInfo.call.billedTime) {packages : List ServicePackage}
    {best : Option PrepaidChoice} {m : StatsPackageManager}
    (hbest : ∀ choice, best = some choice →
      0 ≤ choice.packageSeconds ∧ choice.packageSeconds ≤ callInfo.call.billedTime) :
    ∀ choice, (choosePackage env callInfo account packages best m).1 = some choice →
      0 ≤ choice.packageSeconds ∧ choice.packageSeconds ≤ callInfo.call.billedTime := by
  induction packages generalizing best m with
  | nil => exact hbest
  | cons servicePackage packages ih =>
      rw [choosePackage]
      split
      case h_1 => exact ih hbest
      case h_2 tariff _ =>
        dsimp only
        split
        case isTrue =>
          intro choice heq
          rw [← Option.some.inj heq]
          exact ⟨hbilled, le_refl _⟩
        case isFalse hshort =>
          split
          case isTrue =>
            refine ih fun choice heq => ?_
            rw [← Option.some.inj heq]
            exact ⟨le_max_right _ _, (not_le.mp hshort).le⟩
          case isFalse => exact ih hbest

theorem ready_setupPackagePrepaid :
    Triple (Ready orig) (setupPackagePrepaid env) (fun _ => Ready orig) fun _ => True := by
  unfold setupPackagePrepaid
  refine triple_getCallInfo fun callInfo => triple_onlyIf (fun _ => ?_) fun _ s hs => hs.1
  refine triple_deref (fun _ _ => trivial) fun account _ => triple_get_bind fun s₀ => ?_
  refine triple_bind (R := fun _ s => Ready orig s ∧ s.callInfo = callInfo)
    (triple_modify fun s hs => ⟨{ hs.1.1 with }, hs.1.2⟩) fun _ => ?_
  refine triple_whenSome (fun choice hchoice => ?_) fun _ s hs => hs.1
  refine triple_modifyCallInfo fun s hs => ⟨hs.1.orig, ?_⟩
  have howes : Owes callInfo.call := hs.2 ▸ hs.1.owes
  obtain ⟨hpos, hle⟩ := choosePackage_within (howes.packageTime.trans howes.within)
    (fun _ hnone => absurd hnone (by simp)) choice hchoice
  exact {
    packageTime := hpos
    within := hle.trans_eq (by rw [← hs.2]; rfl)
    rate := hs.1.owes.rate }

theorem charged_withCost :
    Triple (Ready orig) (modifyCall withCost) (fun _ => Charged orig) fun _ => True := by
  refine triple_modifyCall fun s hs => ?_
  have hsign := withCost_sign hs.owes
  rw [hs.orig] at hsign
  exact {
    owes := ⟨hs.owes.packageTime, hs.owes.within, hs.owes.rate⟩
    balanced := withCost_balance hs.owes
    sign := hsign }

/-! ## The paths -/

include hdata

theorem charged_calcOrigByNumberV4 :
    Triple (Open orig number billed rated) (calcOrigByNumberV4 env) (fun _ => Charged orig)
      fun _ => True := by
  unfold calcOrigByNumberV4
  refine open_after (keeps_untariffed_setupLogTariff env) (fun _ => rfl) fun _ => ?_
  refine open_after (keeps_untariffed_setupMainTariff env) (fun _ => rfl) fun _ => ?_
  refine triple_bind open_setupBilledTime fun _ => ?_
  refine triple_bind (open_setupPackagePricelist hdata) fun _ => ?_
  refine triple_getCallInfo fun callInfo => ?_
  refine triple_bind ((open_setupOrigPrice hdata _).pre fun s hs => hs.1) fun _ => ?_
  refine triple_bind (ready_setupFreemin.pre fun s hs => hs.ready) fun _ => ?_
  exact triple_bind ready_setupPackagePrepaid fun _ => charged_withCost

theorem charged_calcByTrunkV4 (isOrig : Bool) :
    Triple (Open orig number billed rated) (calcByTrunkV4 env isOrig) (fun _ => Charged orig)
      fun _ => True := by
  unfold calcByTrunkV4
  refine triple_bind (triple_onlyIf (fun _ => open_setupPackagePricelist hdata)
    fun _ s hs => hs) fun _ => ?_
  refine triple_bind (open_setupFoundPrice hdata) fun _ => ?_
  refine triple_bind open_setupBilledTime fun _ => ?_
  refine triple_bind (triple_onlyIf (fun _ => ready_setupPackagePrepaid.pre fun s hs => hs.ready)
    fun _ s hs => hs.ready) fun _ => ?_
  exact ready_after keeps_uninterconnected_setupInterconnect (fun _ => rfl)
    fun _ => charged_withCost

/-! ## Version 5 -/

/-- The rate of a version 5 leg is a price of the tables, or zero. -/
theorem open_withNNPRate (lights : List NNPAccountTariffLight) (nnpDestinationIds : List Int)
    (dstNumber : Int) :
    Triple (Open orig number billed rated)
      (modifyCall (withNNPRate (setupNNPPackagePrice env lights nnpDestinationIds)
        (setupNNPPackagePricelist env lights dstNumber)))
      (fun _ => Open orig number billed true) fun _ => True := by
  have hprice : ∀ found, setupNNPPackagePrice env lights nnpDestinationIds = some found →
      0 ≤ found.1 := by
    intro found hfound
    obtain ⟨hrow, heq⟩ := of_setupNNPPackagePrice hfound
    rw [heq]
    exact hdata.packagePrice _ hrow
  have hpricelist : ∀ found, setupNNPPackagePricelist env lights dstNumber = some found →
      0 ≤ found.1 := by
    intro found hfound
    obtain ⟨-, price, hlisted, heq⟩ := of_setupNNPPackagePricelist hfound
    rw [heq]
    exact hdata.price hlisted
  refine triple_modifyCall fun s hs => ?_
  unfold withNNPRate
  split
  case h_1 price pricelist hfound hfound' =>
    split
    · exact { hs with rate := fun _ => hprice price hfound }
    · exact { hs with rate := fun _ => hpricelist pricelist hfound' }
  case h_2 price hfound _ => exact { hs with rate := fun _ => hprice price hfound }
  case h_3 pricelist _ hfound => exact { hs with rate := fun _ => hpricelist pricelist hfound }
  case h_4 => exact { hs with rate := fun _ => le_refl 0 }

theorem open_setupBilledTimeNNP {id : Int} {nnpPackage : NNPPackage}
    (hfound : env.repository.data.nnpPackage id = some nnpPackage) :
    Triple (Open orig number billed rated) (setupBilledTimeNNP env nnpPackage)
      (fun _ => Open orig number true rated) fun _ => True :=
  triple_modifyCall fun _ hs =>
    { hs with billedTime := fun _ => getCallLengthNNP_nonneg _ (hdata.interval hfound) }

/-- Package minutes are taken for a part of the billed time. -/
theorem ready_applyMinute (lights : List NNPAccountTariffLight)
    (minute : Option MinuteCandidate) :
    Triple (Open orig number billed true) (applyMinute env lights minute) (fun _ => Ready orig)
      fun _ => True := by
  unfold applyMinute
  split
  case h_2 =>
    unfold applyNNPPackage
    refine triple_getCall fun call => triple_orThrow (fun _ _ => trivial)
      fun nnpPackage hfound => ?_
    refine Triple.post ((open_setupBilledTimeNNP hdata hfound).pre fun s hs => hs.1) ?_
    exact fun _ s hs => hs.ready
  case h_1 candidate _ =>
    unfold applyNNPPackageMinute
    refine triple_orThrow (fun _ _ => trivial) fun nnpPackage hfound => ?_
    refine triple_bind (open_setupBilledTimeNNP hdata hfound) fun _ => ?_
    refine triple_getCall fun call => triple_onlyIf (fun hpositive => ?_) fun _ s hs => hs.1.ready
    refine triple_bind (R := fun _ => Ready orig) (triple_modifyCall fun s hs => ?_) fun _ => ?_
    · refine ⟨hs.1.orig, ?_⟩
      have hbilled : s.callInfo.call.billedTime = call.billedTime := by rw [hs.2]
      exact {
        packageTime := (of_decide_eq_true hpositive).le
        within := (min_le_right _ _).trans_eq hbilled.symm
        rate := hs.1.rate rfl }
    · refine triple_deref (fun _ _ => trivial) fun nnpPackageMinute _ => ?_
      refine triple_whenSome (fun light _ => triple_get_bind fun s₀ => ?_) fun _ s hs => hs
      refine triple_bind (R := fun _ => Ready orig) (triple_modify fun s hs => { hs.1 with })
        fun _ => ?_
      exact triple_modifyCall fun s hs => { hs with owes := { hs.owes with } }

theorem charged_calcOrigNNPByNumber :
    Triple (Open orig number billed rated) (calcOrigNNPByNumber env) (fun _ => Charged orig)
      fun _ => True := by
  unfold calcOrigNNPByNumber
  refine triple_getCallInfo fun callInfo => triple_orThrow (fun _ _ => trivial)
    fun serviceNumber _ => ?_
  refine Triple.pre (P := Open orig number billed rated) ?_ fun s hs => hs.1
  dsimp only
  split
  case isTrue => exact triple_throw fun _ _ => trivial
  case isFalse =>
    refine triple_getNNPNumberRange fun range => ?_
    refine open_after (keeps_uncurrent_setupNNPPackageMinute env _ _) (fun _ => rfl)
      fun minute => ?_
    refine triple_bind (open_withNNPRate hdata _ _ _) fun _ => ?_
    refine triple_bind (R := fun _ => Open orig number billed true)
      (triple_modifyCall fun s hs => { hs with packageTime := rfl }) fun _ => ?_
    exact triple_bind (ready_applyMinute hdata _ minute) fun _ => charged_withCost

/-- A version 5 leg by trunk has its rate from its order. -/
theorem charged_chargeNNP {id : Int} {nnpPackage : NNPPackage}
    (hfound : env.repository.data.nnpPackage id = some nnpPackage) :
    Triple (Open orig number billed true) (do
      setupBilledTimeNNP env nnpPackage
      setupNNPInterconnect env
      setupNNPCost) (fun _ => Charged orig) fun _ => True := by
  refine triple_bind ((open_setupBilledTimeNNP hdata hfound)) fun _ => ?_
  refine Triple.pre (P := Ready orig) ?_ fun s hs => hs.ready
  exact ready_after (keeps_uninterconnected_setupNNPInterconnect env) (fun _ => rfl)
    fun _ => charged_withCost

/-! ## The whole -/

omit hdata

/-- Calls to numbers that begin with 7800 are paid by the called. -/
def isNumber7800 (number : Int) : Bool := ['7', '8', '0', '0'].isPrefixOf (sprintfLld number)

/-- How a priced leg is settled: who pays, and whether its cost was computed. -/
structure Settled (pays costed : Bool) (call : Call) : Prop where
  packageTime : 0 ≤ call.packageTime
  rate : 0 ≤ call.rate
  sign : if pays then call.cost ≤ 0 else 0 ≤ call.cost
  balance : costed = true → call.packageTime ≤ call.billedTime ∧ Balanced call

theorem Open.settled {s : PricingState} (h : Open orig number billed true s) (pays : Bool) :
    Settled pays false s.callInfo.call where
  packageTime := h.packageTime.ge
  rate := h.rate rfl
  sign := by
    rw [h.cost]
    simp
  balance := by simp

theorem Charged.settled {s : PricingState} (h : Charged orig s) :
    Settled orig true s.callInfo.call where
  packageTime := h.owes.packageTime
  rate := h.owes.rate
  sign := h.sign
  balance := fun _ => ⟨h.owes.within, h.balanced⟩

include hdata

/-- The owner of a 7800 number pays for the calls to it; no one else pays or earns
by number for a terminating leg. -/
theorem settled_calcTermByNumber :
    Triple (Open false number false true) (calcTermByNumber env)
      (fun _ s => Settled (isNumber7800 number) (isNumber7800 number) s.callInfo.call)
      fun _ => True := by
  unfold calcTermByNumber
  refine open_after (keeps_untariffed_setupLogTariff env) (fun _ => rfl) fun _ => ?_
  refine open_after (keeps_untariffed_setupMainTariff env) (fun _ => rfl) fun _ => ?_
  refine triple_bind open_setupBilledTime fun _ => triple_getCall fun call => ?_
  have husage : ∀ s : PricingState, Open false number true true s ∧ s.callInfo.call = call →
      isUsage7800 call = isNumber7800 number := by
    rintro s ⟨hs, rfl⟩
    rw [← hs.ofNumber]
    rfl
  refine triple_of_fact husage fun heq => triple_onlyIf (fun htrue => ?_) fun hfalse s hs => ?_
  · rw [heq] at htrue
    rw [htrue]
    refine triple_getCallInfo fun callInfo => triple_deref (fun _ _ => trivial)
      fun mainTariff _ => ?_
    refine triple_bind ((open_setupPricelist mainTariff.pricelistId).pre fun s hs => hs.1.1)
      fun _ => triple_getCall fun call => ?_
    refine triple_bind ((open_setupPrice hdata call.srcNumber).pre fun s hs => hs.1) fun _ => ?_
    refine triple_bind (charged_withCost.pre fun s hs => hs.ready) fun _ => ?_
    refine triple_modifyCall fun s hs => ?_
    have hsign : 0 ≤ s.callInfo.call.cost := hs.sign
    exact {
      packageTime := hs.owes.packageTime
      rate := hs.owes.rate
      sign := neg_nonpos.mpr hsign
      balance := fun _ => ⟨hs.owes.within, by
        show |-s.callInfo.call.cost| + _ = _
        rw [abs_neg]
        exact hs.balanced⟩ }
  · rw [heq] at hfalse
    rw [hfalse]
    exact hs.1.settled false

/-- By number the cost of an originating leg is computed unless the call goes to a
service number or is not to be charged here. -/
theorem settled_chargeByNumber {server : Server} (fTarifficationSkip : Bool) :
    Triple (fun s => Open orig number false true s ∧ s.callInfo.server = some server)
      (chargeByNumber env fTarifficationSkip)
      (fun _ s => Settled (orig || isNumber7800 number)
        (if orig then !isServiceCall env server && !fTarifficationSkip else isNumber7800 number)
        s.callInfo.call) fun _ => True := by
  unfold chargeByNumber
  refine triple_getCallInfo fun callInfo => ?_
  refine triple_of_fact (fun s hs => hs.2 ▸ hs.1.1.orig) fun (horig : callInfo.call.orig = orig) => ?_
  rw [horig]
  cases orig with
  | false =>
      simp only [Bool.false_or, Bool.false_eq_true, if_false]
      exact (settled_calcTermByNumber hdata).pre fun s hs => hs.1.1
  | true =>
      simp only [Bool.true_or, if_true]
      refine triple_of_fact (fun s hs => hs.2 ▸ hs.1.2)
        fun (hserver : callInfo.server = some server) => ?_
      rw [hserver]
      refine triple_deref_some ?_
      split
      case isTrue hservice =>
        rw [hservice]
        refine triple_modifyCall fun s hs => ?_
        -- a service call costs nothing
        have hsettled := hs.1.1.settled true
        exact { hsettled with balance := by simp }
      case isFalse hservice =>
        rw [Bool.not_eq_true] at hservice
        rw [hservice]
        refine triple_onlyIf (fun hcharged => ?_) fun hskip s hs => ?_
        · rw [hcharged]
          refine Triple.post (Q := fun _ => Charged true) ?_ fun _ s hs => hs.settled
          refine Triple.pre (P := Open true number false true) ?_ fun s hs => hs.1.1
          unfold calcOrigByNumber
          refine triple_getCall fun call => ?_
          dsimp only
          split
          case isTrue => exact (charged_calcOrigNNPByNumber hdata).pre fun s hs => hs.1
          case isFalse =>
            split
            case isTrue => exact (charged_calcOrigByNumberV4 hdata).pre fun s hs => hs.1
            case isFalse => exact triple_throw fun _ _ => trivial
        · rw [hskip]
          exact hs.1.1.settled true

omit hdata

variable {s₀ s : PricingState} {trunk : Trunk}

theorem OfNumber.opened {server : Server} {serviceNumber : ServiceNumber} {account : Client}
    (h : OfNumber env s₀ trunk server serviceNumber account s)
    (hs₀ : Open orig number false true s₀) :
    Open orig (getNumber s.callInfo.call) false true s where
  orig := (congrArg (fun p => p.callInfo.call.orig) h.bill).trans hs₀.orig
  ofNumber := rfl
  cost := (congrArg (fun p => p.callInfo.call.cost) h.bill).trans hs₀.cost
  packageTime := (congrArg (fun p => p.callInfo.call.packageTime) h.bill).trans hs₀.packageTime
  price := by
    have hprice : s.callInfo.price = s₀.callInfo.price :=
      congrArg (fun p => p.callInfo.price) h.bill
    rw [hprice]
    exact hs₀.price
  billedTime := by simp
  rate := by
    have hrate : s.callInfo.call.rate = s₀.callInfo.call.rate :=
      congrArg (fun p => p.callInfo.call.rate) h.bill
    rw [hrate]
    exact hs₀.rate

include hdata

/-- The price of an order is one of the tables. -/
theorem OfTrunk.opened {order : ServiceTrunkOrder} {account : Client} {dstNumber : Int}
    (h : OfTrunk s₀ order account s) (horder : OrderOf env.repository trunk dstNumber order account)
    (hs₀ : Open orig number false true s₀) :
    Open orig (getNumber s.callInfo.call) false (decide (account.accountVersion = 5)) s where
  orig := (congrArg (fun p => p.callInfo.call.orig) h.unsettled).trans hs₀.orig
  ofNumber := rfl
  cost := (congrArg (fun p => p.callInfo.call.cost) h.unsettled).trans hs₀.cost
  packageTime :=
    (congrArg (fun p => p.callInfo.call.packageTime) h.unsettled).trans hs₀.packageTime
  price := by
    intro price hfound
    rw [h.ofPrice] at hfound
    cases horder.priced with
    | byPricelist pricelist price' version hpricelist hprice listed =>
        obtain ⟨pricelistId, listedNumber, hlisted⟩ := listed
        rw [← Option.some.inj (hprice.symm.trans hfound)]
        exact hdata.price hlisted
    | byPackage trunkSettings version priced => exact absurd priced.noPrice (by simp [hfound])
  billedTime := by simp
  rate := by
    intro hversion
    have hfive := of_decide_eq_true hversion
    rw [(h.ofPackage hfive).2.2.2.2.2]
    cases horder.priced with
    | byPricelist pricelist price version _ _ _ => exact absurd hfive (by omega)
    | byPackage trunkSettings version priced =>
        rcases priced.priced with
          ⟨price, hrow, -, -, -, heq⟩ | ⟨pricelist, -, -, -, -, price, hlisted, heq⟩
        · rw [heq]
          exact hdata.packagePrice price hrow
        · rw [heq]
          exact hdata.price hlisted

theorem settled_chargeByTrunk {order : ServiceTrunkOrder} {account : Client} {dstNumber : Int}
    {s' : PricingState} (h : OfTrunk s₀ order account s)
    (horder : OrderOf env.repository trunk dstNumber order account)
    (hs₀ : Open orig number false true s₀) (isOrig : Bool)
    (hexec : exec (chargeByTrunk env isOrig) s = (.ok (), s')) :
    Settled orig true s'.callInfo.call := by
  have hopen := h.opened hdata horder hs₀
  unfold chargeByTrunk at hexec
  rw [exec_bind_ok (exec_getCallInfo s), h.accountVersion] at hexec
  cases horder.priced with
  | byPricelist pricelist price version _ _ _ =>
      rw [if_pos version] at hexec
      have hends := charged_calcByTrunkV4 hdata isOrig s hopen
      rw [hexec] at hends
      exact Charged.settled hends
  | byPackage trunkSettings version priced =>
      rw [if_neg (by omega), if_pos version, (h.ofPackage version).1] at hexec
      cases hpackage : order.nnpPackage with
      | none =>
          rw [hpackage] at hexec
          exact absurd (congrArg Prod.fst hexec) (by simp [exec_bind])
      | some nnpPackage =>
          rw [hpackage, exec_bind_ok (exec_deref_some nnpPackage s)] at hexec
          rw [decide_eq_true version] at hopen
          have hends := charged_chargeNNP hdata (priced.nnpPackage.symm.trans hpackage) s hopen
          rw [hexec] at hends
          exact Charged.settled hends

omit hdata

/-- The leg is paid for by the account it is settled with: an originating leg, and a
terminating leg by number to a 7800 number. -/
def isPaid (env : PricingEnv) (s₀ : PricingState) : Bool :=
  s₀.callInfo.call.orig ||
    match legPath env s₀ with
    | .byNumber trunk _ _ _ =>
        isNumber7800 (legNumbers env trunk s₀.callInfo.call.orig s₀.numbers).2
    | _ => false

/-- The path of the leg runs `setupCost` or `setupNNPCost`. -/
def isCosted (env : PricingEnv) (s₀ : PricingState) : Bool :=
  match legPath env s₀ with
  | .stopped => false
  | .byNumber trunk server _ _ =>
      if s₀.callInfo.call.orig then
        !isServiceCall env server && !isForceOrigTarifficationSkip env
      else
        isNumber7800 (legNumbers env trunk s₀.callInfo.call.orig s₀.numbers).2
  | .byTrunk _ _ => true

include hdata

/-- **Every priced leg is settled**, on whichever path. -/
theorem settled_of_priced {priced : PricingState} (hs₀ : Unpriced s₀)
    (hopen : Open orig number false true s₀)
    (hexec : exec (tariffication env) s₀ = (.ok (), priced)) :
    Settled (isPaid env s₀) (isCosted env s₀) priced.callInfo.call := by
  have hpath := @tariffication_path env s₀ hs₀
  unfold isPaid isCosted
  cases hleg : legPath env s₀ with
  | stopped =>
      rw [hleg] at hpath
      obtain ⟨_, _, hstop, -⟩ := hpath
      exact absurd (congrArg Prod.fst (hstop.symm.trans hexec)) (by simp)
  | byNumber trunk server serviceNumber account =>
      rw [hleg] at hpath
      obtain ⟨s, hof, hcharge⟩ := hpath
      obtain ⟨s₁, hcharged, rfl⟩ := exec_setVatFlag_ok.mp (hcharge.symm.trans hexec)
      have hends := settled_chargeByNumber hdata (isForceOrigTarifficationSkip env) s
        ⟨hof.opened hopen, hof.onServer⟩
      rw [hcharged] at hends
      have hsettled : Settled _ _ s₁.callInfo.call := hends
      have horig := hopen.orig
      subst horig
      cases horig : s₀.callInfo.call.orig with
      | true =>
          rw [horig] at hsettled
          exact { hsettled with }
      | false =>
          -- a terminating leg belongs to the called number
          have hnumber : getNumber s.callInfo.call =
              (legNumbers env trunk s₀.callInfo.call.orig s₀.numbers).2 := by
            rw [← hof.dstNumber, getNumber, (hof.opened hopen).orig, horig]
            rfl
          rw [hnumber, horig] at hsettled
          exact { hsettled with }
  | byTrunk trunk order =>
      rw [hleg] at hpath
      obtain ⟨account, s, horder, hof, hcharge⟩ := hpath
      obtain ⟨s₁, hcharged, rfl⟩ := exec_setVatFlag_ok.mp (hcharge.symm.trans hexec)
      have hsettled := settled_chargeByTrunk hdata hof horder hopen _ hcharged
      rw [← hopen.orig] at hsettled
      simp only [Bool.or_false]
      exact { hsettled with }

end BillingCall

/-- **Conservation and sign.**  Of a leg that is priced to the end, the package time
and the rate are not negative, the cost has the sign of the side that pays, and where
a cost was computed the package time is a part of the billed time and cost and credit
together are the billed time at the rate. -/
theorem priced_leg_balance (env : BillingEnv) (hdata : NonNegative env.data) (sys : PricingSys)
    (leg : Leg) (priced : PricingState)
    (h : exec (BillingCall.tariffication (leg.pricingEnv env)) (sys.start leg) =
      (.ok (), priced)) :
    0 ≤ priced.callInfo.call.packageTime ∧
    0 ≤ priced.callInfo.call.rate ∧
    (if BillingCall.isPaid (leg.pricingEnv env) (sys.start leg) then priced.callInfo.call.cost ≤ 0
      else 0 ≤ priced.callInfo.call.cost) ∧
    (BillingCall.isCosted (leg.pricingEnv env) (sys.start leg) = true →
      priced.callInfo.call.packageTime ≤ priced.callInfo.call.billedTime ∧
      |priced.callInfo.call.cost| + |priced.callInfo.call.packageCredit| =
        priced.callInfo.call.billedTime * priced.callInfo.call.rate / 60) := by
  have hopen : BillingCall.Open leg.orig (BillingCall.getNumber leg.call) false true
      (sys.start leg) :=
    ⟨rfl, rfl, rfl, rfl, fun _ hnone => absurd hnone (by simp [PricingSys.start]),
      by simp, fun _ => le_refl 0⟩
  have hsettled := BillingCall.settled_of_priced hdata (sys.start_unpriced leg) hopen h
  exact ⟨hsettled.packageTime, hsettled.rate, hsettled.sign, hsettled.balance⟩

def splitLight : NNPAccountTariffLight :=
  { id := 1, serviceNumberId := 9, accountClientId := 3, nnpTariffId := 10, coefficient := 1,
    deactivateFrom := 5000 }

def splitMinute : NNPPackageMinute :=
  { id := 20, nnpTariffId := 10, nnpDestinationId := 5, minute := 1 }

/-- A number of a version 5 account whose tariff has one package minute and a price. -/
def splitTables : DataContainer where
  trunkByName := fun _ _ => some { id := 1, serverId := 1, ourTrunk := true, authByNumber := true }
  server := fun _ => some { id := 1 }
  instanceSettings := fun _ => some { id := 1 }
  client := fun _ => some { id := 3, accountVersion := 5 }
  serviceNumber := fun _ _ => some { id := 9, clientAccountId := 3 }
  nnpNumberRange := fun _ => some 1
  nnpNumberRangePrefix := fun _ => [4]
  nnpPrefixDestination := fun _ => [{ nnpDestinationId := 5 }]
  nnpPackage := fun _ => some { id := 10 }
  nnpPackagePrice := [{ id := 30, nnpTariffId := 10, nnpDestinationId := 5, price := 2 }]
  nnpPackageMinute := { data := [splitMinute] }
  nnpAccountTariffLight := { data := [splitLight] }

theorem splitTables_nonNegative : NonNegative splitTables where
  price := by
    intro pricelistId number time price hfound
    exact absurd hfound (by simp [splitTables])
  packagePrice := by decide
  interval := by
    intro id nnpPackage hfound
    rw [← Option.some.inj hfound]

def splitLeg : Leg where
  cdr := { connectTime := 1000, sessionTime := 90, srcRoute := ['t'] }
  orig := true

def splitSys : PricingSys :=
  { PricingSys.empty with numberRanges := (∅ : IntMap NNPNumberRange).insert 1 { id := 1 } }

/-- Of 90 seconds at 2 a minute, 60 are taken from the package and 30 are paid for. -/
theorem splitLeg_balance :
    ∃ priced, exec (BillingCall.tariffication (splitLeg.pricingEnv { data := splitTables }))
        (splitSys.start splitLeg) = (.ok (), priced) ∧
      priced.callInfo.call.cost = -1 ∧ priced.callInfo.call.packageCredit = -2 ∧
      |priced.callInfo.call.cost| + |priced.callInfo.call.packageCredit| =
        priced.callInfo.call.billedTime * priced.callInfo.call.rate / 60 := by
  have hreturns : (exec (BillingCall.tariffication (splitLeg.pricingEnv { data := splitTables }))
      (splitSys.start splitLeg)).1 = .ok () := by
    decide +kernel
  have hexec := Prod.ext (y := (_, (exec (BillingCall.tariffication
    (splitLeg.pricingEnv { data := splitTables })) (splitSys.start splitLeg)).2)) hreturns rfl
  have hbalance := priced_leg_balance _ splitTables_nonNegative _ _ _ hexec
  exact ⟨_, hexec, by decide +kernel, by decide +kernel,
    (hbalance.2.2.2 (by decide +kernel)).2⟩

end VoipBill
