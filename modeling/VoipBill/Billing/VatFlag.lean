import VoipBill.Billing.ChargeFrame

/-!
# The VAT flag and the price of a leg

`setVatFlag` reads the flag off the NNP package or the package price list that
pricing has left in `CallInfo`.  The order of a trunk brings both along.  A version 5
leg by number notes the ids of its price in the call and leaves the pointers null, so
its flag is never set.

* `legPrice`: the price the rate of a version 5 leg comes from;
* `Recorded`: the ids and the rate of the call are those of that price;
* `VatFollows`: the flag of the call is that of its price.
-/

namespace VoipBill

open Lib Lib.Hoare

/-- The price the rate of a version 5 leg comes from. -/
inductive AppliedPrice where
  | none
  | packagePrice (price : NNPPackagePrice)
  | packagePricelist (pricelist : NNPPackagePricelist)
deriving DecidableEq, Repr

namespace AppliedPrice

/-- What the package of a price says about VAT. -/
def vatOfPackage (data : DataContainer) (price : NNPPackagePrice) : Bool :=
  (data.nnpPackage price.nnpTariffId).elim false (·.isIncludeVat)

/-- What the price list of a package says about VAT. -/
def vatOfPricelist (data : DataContainer) (pricelist : NNPPackagePricelist) : Bool :=
  (data.pricelist pricelist.pricelistId).elim false (·.priceIncludeVat)

/-- The price has an id, and it includes VAT. -/
def includesVat (data : DataContainer) : AppliedPrice → Bool
  | .none => false
  | .packagePrice price => price.id != 0 && vatOfPackage data price
  | .packagePricelist pricelist => pricelist.id != 0 && vatOfPricelist data pricelist

end AppliedPrice

/-- The call carries the id and the rate of its price. -/
def Recorded (r : Repository) (call : Call) : AppliedPrice → Prop
  | .none => call.nnpPackagePriceId = 0 ∧ call.nnpPackagePricelistId = 0
  | .packagePrice price => price ∈ r.data.nnpPackagePrice ∧ call.nnpPackagePriceId = price.id ∧
      call.nnpPackagePricelistId = 0 ∧ call.rate = price.price
  | .packagePricelist pricelist => pricelist ∈ r.data.nnpPackagePricelist ∧
      call.nnpPackagePriceId = 0 ∧ call.nnpPackagePricelistId = pricelist.id ∧
      ∃ number price, r.getPrice pricelist.pricelistId number = some price ∧
        call.rate = price.price

/-- The flag of the call is that of its price, if the price is noted in the call. -/
def VatFollows (data : DataContainer) (call : Call) : AppliedPrice → Prop
  | .none => True
  | .packagePrice price => call.nnpPackagePriceId ≠ 0 →
      call.priceIncludesVat = AppliedPrice.vatOfPackage data price
  | .packagePricelist pricelist => call.nnpPackagePricelistId ≠ 0 →
      call.priceIncludesVat = AppliedPrice.vatOfPricelist data pricelist

namespace BillingCall

/-- The part of a call that says where its rate comes from. -/
def ratedBy (s : PricingState) : Int × Int × ℚ :=
  (s.callInfo.call.nnpPackagePriceId, s.callInfo.call.nnpPackagePricelistId,
    s.callInfo.call.rate)

theorem Recorded.of_ratedBy {r : Repository} {s s' : PricingState} {applied : AppliedPrice}
    (heq : ratedBy s' = ratedBy s) (h : Recorded r s.callInfo.call applied) :
    Recorded r s'.callInfo.call applied := by
  simp only [ratedBy, Prod.mk.injEq] at heq
  obtain ⟨hprice, hpricelist, hrate⟩ := heq
  cases applied with
  | none => exact ⟨hprice.trans h.1, hpricelist.trans h.2⟩
  | packagePrice price =>
      exact ⟨h.1, hprice.trans h.2.1, hpricelist.trans h.2.2.1, hrate.trans h.2.2.2⟩
  | packagePricelist pricelist =>
      obtain ⟨hrow, hzero, hid, number, price, hlisted, heq⟩ := h
      exact ⟨hrow, hprice.trans hzero, hpricelist.trans hid, number, price, hlisted,
        hrate.trans heq⟩

/-! ## By number -/

/-- The choice `withNNPRate` makes. -/
def chosenPrice (price : Option (ℚ × NNPPackagePrice))
    (pricelist : Option (ℚ × NNPPackagePricelist)) : AppliedPrice :=
  match price, pricelist with
  | some price, some pricelist =>
      if |price.1| ≤ |pricelist.1| then .packagePrice price.2 else .packagePricelist pricelist.2
  | some price, none => .packagePrice price.2
  | none, some pricelist => .packagePricelist pricelist.2
  | none, none => .none

/-- The price of an originating version 5 leg of a number. -/
def numberPrice (env : PricingEnv) (accountId connectTime serviceNumberId dstNumber : Int)
    (nnpDestinationIds : List Int) : AppliedPrice :=
  let lights := env.repository.data.nnpAccountTariffLight.findAllActiveByClientID accountId
    connectTime serviceNumberId
  chosenPrice (setupNNPPackagePrice env lights nnpDestinationIds)
    (setupNNPPackagePricelist env lights dstNumber)

variable {env : PricingEnv}

theorem recorded_withNNPRate {call : Call} {price : Option (ℚ × NNPPackagePrice)}
    {pricelist : Option (ℚ × NNPPackagePricelist)}
    (hids : call.nnpPackagePriceId = 0 ∧ call.nnpPackagePricelistId = 0)
    (hprice : ∀ found, price = some found →
      found.2 ∈ env.repository.data.nnpPackagePrice ∧ found.1 = found.2.price)
    (hpricelist : ∀ found, pricelist = some found →
      found.2 ∈ env.repository.data.nnpPackagePricelist ∧ ∃ number listed,
        env.repository.getPrice found.2.pricelistId number = some listed ∧
          found.1 = listed.price) :
    Recorded env.repository (withNNPRate price pricelist call) (chosenPrice price pricelist) := by
  have hbyPrice : ∀ found, price = some found →
      Recorded env.repository (withNNPPackagePrice found call) (.packagePrice found.2) := by
    intro found hfound
    obtain ⟨hrow, heq⟩ := hprice found hfound
    exact ⟨hrow, rfl, hids.2, heq⟩
  have hbyPricelist : ∀ found, pricelist = some found →
      Recorded env.repository (withNNPPackagePricelist found call)
        (.packagePricelist found.2) := by
    intro found hfound
    obtain ⟨hrow, hlisted⟩ := hpricelist found hfound
    exact ⟨hrow, hids.1, rfl, hlisted⟩
  cases price with
  | none =>
      cases pricelist with
      | none => exact ⟨hids.1, rfl⟩
      | some pricelist => exact hbyPricelist pricelist rfl
  | some price =>
      cases pricelist with
      | none => exact hbyPrice price rfl
      | some pricelist =>
          simp only [withNNPRate, chosenPrice]
          split
          · exact hbyPrice price rfl
          · exact hbyPricelist pricelist rfl

theorem keeps_ratedBy_setupNNPPackageMinute (lights : List NNPAccountTariffLight)
    (nnpDestinationIds : List Int) :
    Keeps ratedBy (setupNNPPackageMinute env lights nnpDestinationIds) :=
  (keeps_uncurrent_setupNNPPackageMinute env lights nnpDestinationIds).part ratedBy fun _ => rfl

/-- What follows the choice of a price changes neither its ids nor the rate. -/
theorem keeps_ratedBy_takeMinutes (lights : List NNPAccountTariffLight)
    (minute : Option MinuteCandidate) :
    Keeps ratedBy (do
      modifyCall fun call => { call with packageTime := 0 }
      applyMinute env lights minute
      setupNNPCost) := by
  refine keeps_bind (keeps_modifyCall fun _ => rfl) fun _ => ?_
  refine keeps_bind ((keeps_unminuted_applyMinute env lights minute).part ratedBy fun _ => rfl)
    fun _ => ?_
  exact keeps_uncosted_withCost.part ratedBy fun _ => rfl

/-- Version 5 by number notes the price it has chosen. -/
theorem recorded_calcOrigNNPByNumber {s : PricingState} {serviceNumber : ServiceNumber}
    (hnumber : s.callInfo.serviceNumber = some serviceNumber)
    (hids : s.callInfo.call.nnpPackagePriceId = 0 ∧ s.callInfo.call.nnpPackagePricelistId = 0) :
    Triple (fun t => t = s) (calcOrigNNPByNumber env)
      (fun _ t => Recorded env.repository t.callInfo.call
        (numberPrice env s.callInfo.call.accountId s.callInfo.call.connectTime serviceNumber.id
          s.callInfo.call.dstNumber (destinationsOf env s.numberRanges s.callInfo.call.dstNumber)))
      fun _ => True := by
  unfold calcOrigNNPByNumber
  refine triple_bind (R := fun callInfo t => t = s ∧ callInfo = s.callInfo) ?_ fun callInfo => ?_
  · rintro t rfl
    exact ⟨rfl, rfl⟩
  refine triple_of_fact (fun t ht => ht.2) fun hinfo => ?_
  subst hinfo
  rw [hnumber]
  refine triple_orThrow (fun _ _ => trivial) fun found hfound => ?_
  obtain rfl := Option.some.inj hfound
  dsimp only
  split
  case isTrue => exact triple_throw fun _ _ => trivial
  case isFalse =>
    refine triple_bind (R := fun range t => t = s ∧
      range = (env.repository.data.nnpNumberRange s.callInfo.call.dstNumber).bind
        fun row => s.numberRanges[row]?) ?_ fun range => ?_
    · rintro t ⟨rfl, -⟩
      exact ⟨rfl, rfl⟩
    refine triple_of_fact (fun t ht => ht.2) fun hrange => ?_
    subst hrange
    -- a package minute changes neither ids nor rate
    refine triple_bind (R := fun _ t => ratedBy t = ratedBy s) ?_ fun minute => ?_
    · refine ((keeps_ratedBy_setupNNPPackageMinute _ _).value (ratedBy s)
        fun _ _ => trivial).pre ?_
      rintro t ⟨rfl, -⟩
      rfl
    refine triple_bind (R := fun _ t => Recorded env.repository t.callInfo.call
      (numberPrice env s.callInfo.call.accountId s.callInfo.call.connectTime serviceNumber.id
        s.callInfo.call.dstNumber (destinationsOf env s.numberRanges s.callInfo.call.dstNumber)))
      ?_ fun _ => ?_
    · refine triple_modifyCall fun t ht => ?_
      simp only [ratedBy, Prod.mk.injEq] at ht
      refine recorded_withNNPRate ⟨ht.1.trans hids.1, ht.2.1.trans hids.2⟩ ?_ ?_
      · exact fun found hfound => of_setupNNPPackagePrice hfound
      · intro found hfound
        obtain ⟨hrow, listed⟩ := of_setupNNPPackagePricelist hfound
        exact ⟨hrow, _, listed⟩
    exact (keeps_ratedBy_takeMinutes _ minute).triple Recorded.of_ratedBy (fun _ _ => trivial)
      fun _ _ ht => ht

/-- The ids of a version 5 price. -/
def priceIds (s : PricingState) : Int × Int :=
  (s.callInfo.call.nnpPackagePriceId, s.callInfo.call.nnpPackagePricelistId)

theorem keeps_priceIds_calcTermByNumber : Keeps priceIds (calcTermByNumber env) := by
  unfold calcTermByNumber
  refine keeps_bind ((keeps_untariffed_setupLogTariff env).part priceIds fun _ => rfl) fun _ => ?_
  refine keeps_bind ((keeps_untariffed_setupMainTariff env).part priceIds fun _ => rfl)
    fun _ => ?_
  refine keeps_bind ((keeps_unbilled_setupBilledTime env).part priceIds fun _ => rfl) fun _ => ?_
  refine keeps_bind keeps_getCall fun _ => keeps_onlyIf ?_
  refine keeps_bind keeps_getCallInfo fun _ => keeps_bind (keeps_deref _) fun _ => ?_
  refine keeps_bind ((keeps_unpriced_setupPricelist env _).part priceIds fun _ => rfl) fun _ => ?_
  refine keeps_bind keeps_getCall fun _ => ?_
  refine keeps_bind ((keeps_unpriced_setupPrice env _).part priceIds fun _ => rfl) fun _ => ?_
  refine keeps_bind (keeps_uncosted_withCost.part priceIds fun _ => rfl) fun _ => ?_
  exact keeps_modifyCall fun _ => rfl

/-- What `setVatFlag` reads the flag off. -/
def vatSource (s : PricingState) : Option NNPPackage × Option NNPPackagePricelist × Bool :=
  (s.callInfo.nnpPackage, s.callInfo.nnpPackagePricelist, s.callInfo.call.priceIncludesVat)

theorem vatSource_bill (s : PricingState) : vatSource s.bill = vatSource s := rfl

theorem vatSource_uncharged (s : PricingState) : vatSource s.uncharged = vatSource s := rfl

theorem vat_withVatFlag {callInfo : CallInfo} (hversion : callInfo.call.accountVersion = 5) :
    (withVatFlag env callInfo).call.priceIncludesVat =
      if callInfo.call.nnpPackagePriceId ≠ 0 then callInfo.nnpPackage.elim false (·.isIncludeVat)
      else if callInfo.call.nnpPackagePricelistId ≠ 0 then
        match callInfo.nnpPackagePricelist.bind fun package =>
            env.repository.data.pricelist package.pricelistId with
        | some pricelist => pricelist.priceIncludeVat
        | none => callInfo.call.priceIncludesVat
      else callInfo.call.priceIncludesVat := by
  unfold withVatFlag
  dsimp only
  rw [if_neg (by omega)]
  exact if_neg (by omega)

section Paths

variable {s₀ s s₁ : PricingState} {trunk : Trunk} {server : Server}
  {serviceNumber : ServiceNumber} {account : Client}

/-- A leg by number is charged where it stands. -/
def isChargedHere (env : PricingEnv) (server : Server) (orig : Bool) : Bool :=
  orig && !isServiceCall env server && !isForceOrigTarifficationSkip env

theorem recorded_chargeByNumber (h : OfNumber env s₀ trunk server serviceNumber account s)
    (hversion : account.accountVersion = 5) (hids : priceIds s₀ = (0, 0))
    (hexec : exec (chargeByNumber env (isForceOrigTarifficationSkip env)) s = (.ok (), s₁)) :
    Recorded env.repository s₁.callInfo.call
      (if isChargedHere env server s₀.callInfo.call.orig then
        numberPrice env account.id s₀.callInfo.call.connectTime serviceNumber.id
          (legNumbers env trunk s₀.callInfo.call.orig s₀.numbers).2
          (destinationsOf env s₀.numberRanges
            (legNumbers env trunk s₀.callInfo.call.orig s₀.numbers).2)
      else .none) := by
  have horig : s.callInfo.call.orig = s₀.callInfo.call.orig :=
    congrArg (fun p => p.callInfo.call.orig) h.bill
  have hconnect : s.callInfo.call.connectTime = s₀.callInfo.call.connectTime :=
    congrArg (fun p => p.callInfo.call.connectTime) h.bill
  have hzero : priceIds s = (0, 0) := (congrArg (fun p => priceIds p) h.bill).trans hids
  unfold chargeByNumber at hexec
  rw [exec_bind_ok (exec_getCallInfo s), horig, h.onServer] at hexec
  unfold isChargedHere
  cases hleg : s₀.callInfo.call.orig with
  | false =>
      rw [hleg, if_neg Bool.false_ne_true] at hexec
      have hkept := @keeps_priceIds_calcTermByNumber env s
      rw [hexec, hzero] at hkept
      exact Prod.mk.inj hkept
  | true =>
      rw [hleg, if_pos rfl, exec_bind_ok (exec_deref_some server s)] at hexec
      -- a service call and a leg the mega trunk skips get no price
      cases hservice : isServiceCall env server with
      | true =>
          rw [hservice, if_pos rfl] at hexec
          obtain ⟨-, rfl⟩ := Prod.mk.inj hexec
          exact Prod.mk.inj hzero
      | false =>
          rw [hservice, if_neg Bool.false_ne_true] at hexec
          cases hskip : isForceOrigTarifficationSkip env with
          | true =>
              rw [hskip] at hexec
              obtain ⟨-, rfl⟩ := Prod.mk.inj hexec
              exact Prod.mk.inj hzero
          | false =>
              rw [hskip] at hexec
              have hnnp : exec (calcOrigNNPByNumber env) s = (.ok (), s₁) := by
                rw [← hexec]
                show _ = exec (calcOrigByNumber env) s
                unfold calcOrigByNumber
                rw [exec_bind_ok (exec_getCall s), h.accountVersion, if_pos hversion]
              have hends := @recorded_calcOrigNNPByNumber env s _ h.ofService (Prod.mk.inj hzero) s rfl
              rw [hnnp, h.accountId, hconnect, h.dstNumber, h.destinations, hleg] at hends
              exact hends

/-- What a leg by number brings to `setVatFlag`: no package, no price list. -/
theorem vat_byNumber (h : OfNumber env s₀ trunk server serviceNumber account s)
    (hversion : account.accountVersion = 5) (hs₀ : vatSource s₀ = (none, none, false))
    (hcharged : s₁.uncharged = s.uncharged) :
    (withVatFlag env s₁.callInfo).call.priceIncludesVat = false := by
  have hfound : vatSource s = vatSource s₀ := by rw [← vatSource_bill, h.bill, vatSource_bill]
  have hkept : vatSource s₁ = vatSource s := by
    rw [← vatSource_uncharged, hcharged, vatSource_uncharged]
  have haccount : s₁.callInfo.call.accountVersion = s.callInfo.call.accountVersion :=
    congrArg (fun p => p.callInfo.call.accountVersion) hcharged
  have hsource := hkept.trans (hfound.trans hs₀)
  simp only [vatSource, Prod.mk.injEq] at hsource
  obtain ⟨hpackage, hpricelist, hflag⟩ := hsource
  rw [vat_withVatFlag (haccount.trans (h.accountVersion.trans hversion)), hpackage, hpricelist,
    hflag]
  simp

/-- The price of an order. -/
def orderPrice (order : ServiceTrunkOrder) : AppliedPrice :=
  match order.nnpPackagePrice, order.nnpPackagePricelist with
  | some price, _ => .packagePrice price
  | none, some pricelist => .packagePricelist pricelist
  | none, none => .none

variable {order : ServiceTrunkOrder} {dstNumber : Int} {orig : Bool}

/-- Charging a version 5 leg by trunk changes neither the ids nor the rate. -/
theorem ratedBy_chargeByTrunk (h : OfTrunk s₀ order account s)
    (hversion : account.accountVersion = 5)
    (hexec : exec (chargeByTrunk env orig) s = (.ok (), s₁)) : ratedBy s₁ = ratedBy s := by
  have hkeeps : ∀ found, Keeps ratedBy (do
      let nnpPackage ← deref found
      setupBilledTimeNNP env nnpPackage
      setupNNPInterconnect env
      setupNNPCost) := by
    intro found
    refine keeps_bind (keeps_deref found) fun nnpPackage => ?_
    refine keeps_bind (keeps_modifyCall fun _ => rfl) fun _ => ?_
    refine keeps_bind ((keeps_uninterconnected_setupNNPInterconnect env).part ratedBy
      fun _ => rfl) fun _ => ?_
    exact keeps_uncosted_withCost.part ratedBy fun _ => rfl
  unfold chargeByTrunk at hexec
  rw [exec_bind_ok (exec_getCallInfo s), h.accountVersion, if_neg (by omega),
    if_pos hversion] at hexec
  have hkept := hkeeps s.callInfo.nnpPackage s
  rw [hexec] at hkept
  exact hkept

/-- By trunk the order brings the package and the price list along, and the flag
follows. -/
theorem vat_byTrunk (h : OfTrunk s₀ order account s)
    (horder : OrderOf env.repository trunk dstNumber order account)
    (hversion : account.accountVersion = 5) (hids : priceIds s₀ = (0, 0))
    (hs₀ : s₀.callInfo.call.priceIncludesVat = false)
    (hexec : exec (chargeByTrunk env orig) s = (.ok (), s₁)) :
    Recorded env.repository s₁.callInfo.call (orderPrice order) ∧
      VatFollows env.repository.data (withVatFlag env s₁.callInfo).call (orderPrice order) := by
  have hrated := ratedBy_chargeByTrunk h hversion hexec
  have hcharged : s₁.uncharged = s.uncharged := by
    have hkept := @keeps_uncharged_chargeByTrunk env orig s
    rw [hexec] at hkept
    exact hkept
  have hsource : vatSource s₁ = vatSource s := by
    rw [← vatSource_uncharged, hcharged, vatSource_uncharged]
  have hflag : s.callInfo.call.priceIncludesVat = s₀.callInfo.call.priceIncludesVat :=
    congrArg (fun p => p.callInfo.call.priceIncludesVat) h.unsettled
  have haccount : s₁.callInfo.call.accountVersion = s.callInfo.call.accountVersion :=
    congrArg (fun p => p.callInfo.call.accountVersion) hcharged
  obtain ⟨hpackage, -, hpricelist, hpriceId, hpricelistId, hrate⟩ := h.ofPackage hversion
  obtain ⟨hzero, hzero'⟩ := Prod.mk.inj hids
  simp only [ratedBy, vatSource, Prod.mk.injEq, hpackage, hpricelist, hpriceId, hpricelistId,
    hrate, hzero, hzero', hflag, hs₀] at hrated hsource
  obtain ⟨hpriceId₁, hpricelistId₁, hrate₁⟩ := hrated
  obtain ⟨hpackage₁, hpricelist₁, hflag₁⟩ := hsource
  have hvat := @vat_withVatFlag env _ (haccount.trans (h.accountVersion.trans hversion))
  rw [hpackage₁, hpricelist₁, hflag₁, hpriceId₁, hpricelistId₁] at hvat
  -- an account of version 5 has its price from a package
  cases horder.priced with
  | byPricelist pricelist price version _ _ _ => exact absurd hversion (by omega)
  | byPackage trunkSettings version priced =>
      rcases priced.priced with
        ⟨price, hrow, htariff, hprice, hnone, heq⟩ | ⟨pricelist, hrow, -, hnone, hlist, listed⟩
      · simp only [hprice, hnone, Option.elim_some, Option.elim_none] at hvat hpriceId₁ hpricelistId₁
        have happlied : orderPrice order = .packagePrice price := by rw [orderPrice, hprice]
        rw [happlied]
        refine ⟨⟨hrow, hpriceId₁, hpricelistId₁, hrate₁.trans heq⟩, fun hset => ?_⟩
        have hid : price.id ≠ 0 := by
          rw [← hpriceId₁]
          exact hset
        rw [hvat, if_pos hid, priced.nnpPackage, ← htariff]
        rfl
      · simp only [hlist, hnone, Option.elim_some, Option.elim_none] at hvat hpriceId₁ hpricelistId₁
        have happlied : orderPrice order = .packagePricelist pricelist := by
          rw [orderPrice, hnone, hlist]
        obtain ⟨price, hlisted, heq⟩ := listed
        rw [happlied]
        refine ⟨⟨hrow, hpriceId₁, hpricelistId₁, dstNumber, price, hlisted, hrate₁.trans heq⟩,
          fun hset => ?_⟩
        have hid : pricelist.id ≠ 0 := by
          rw [← hpricelistId₁]
          exact hset
        rw [hvat, if_neg (by simp), if_pos hid, Option.bind_some, AppliedPrice.vatOfPricelist]
        cases env.repository.data.pricelist pricelist.pricelistId with
        | none => rfl
        | some found => rfl

end Paths

/-- A flag that is not set follows the price exactly where this does not include
VAT. -/
theorem vatFollows_of_unset {r : Repository} {call : Call} {applied : AppliedPrice}
    (hrecorded : Recorded r call applied) (hflag : call.priceIncludesVat = false) :
    VatFollows r.data call applied ↔ applied.includesVat r.data = false := by
  cases applied with
  | none => simp [VatFollows, AppliedPrice.includesVat]
  | packagePrice price =>
      have hid : call.nnpPackagePriceId = price.id := hrecorded.2.1
      simp only [VatFollows, AppliedPrice.includesVat, hid, hflag]
      by_cases hzero : price.id = 0
      · simp [hzero]
      · simp [hzero]
  | packagePricelist pricelist =>
      have hid : call.nnpPackagePricelistId = pricelist.id := hrecorded.2.2.1
      simp only [VatFollows, AppliedPrice.includesVat, hid, hflag]
      by_cases hzero : pricelist.id = 0
      · simp [hzero]
      · simp [hzero]

/-! ## The whole -/

/-- The leg is charged by number. -/
def isByNumber (env : PricingEnv) (s₀ : PricingState) : Bool :=
  match legPath env s₀ with
  | .byNumber _ _ _ _ => true
  | _ => false

/-- The price of a version 5 leg, read off what is there before it is priced. -/
def legPrice (env : PricingEnv) (s₀ : PricingState) : AppliedPrice :=
  match legPath env s₀ with
  | .stopped => .none
  | .byNumber trunk server serviceNumber account =>
      let dstNumber := (legNumbers env trunk s₀.callInfo.call.orig s₀.numbers).2
      if isChargedHere env server s₀.callInfo.call.orig then
        numberPrice env account.id s₀.callInfo.call.connectTime serviceNumber.id dstNumber
          (destinationsOf env s₀.numberRanges dstNumber)
      else .none
  | .byTrunk _ order => orderPrice order

theorem recorded_withVatFlag {s₁ : PricingState} {applied : AppliedPrice}
    (h : Recorded env.repository s₁.callInfo.call applied) :
    Recorded env.repository (withVatFlag env s₁.callInfo).call applied :=
  @Recorded.of_ratedBy env.repository s₁ { s₁ with callInfo := withVatFlag env s₁.callInfo }
    applied rfl h

end BillingCall

open BillingCall

/-- **When the VAT flag follows the price.**  A priced version 5 leg carries the id and
the rate of the price it was charged with.  By trunk its flag is that of the price;
by number it is so exactly where the price does not include VAT. -/
theorem vat_follows_price_iff (env : BillingEnv) (sys : PricingSys) (leg : Leg)
    (priced : PricingState)
    (h : exec (tariffication (leg.pricingEnv env)) (sys.start leg) = (.ok (), priced))
    (hversion : priced.callInfo.call.accountVersion = 5) :
    Recorded (leg.pricingEnv env).repository priced.callInfo.call
      (legPrice (leg.pricingEnv env) (sys.start leg)) ∧
    (VatFollows env.data priced.callInfo.call (legPrice (leg.pricingEnv env) (sys.start leg)) ↔
      (isByNumber (leg.pricingEnv env) (sys.start leg) = true →
        (legPrice (leg.pricingEnv env) (sys.start leg)).includesVat env.data = false)) := by
  have hpath := @tariffication_path (leg.pricingEnv env) _ (sys.start_unpriced leg)
  unfold legPrice isByNumber
  cases hleg : legPath (leg.pricingEnv env) (sys.start leg) with
  | stopped =>
      rw [hleg] at hpath
      obtain ⟨_, _, hstop, -⟩ := hpath
      exact absurd (congrArg Prod.fst (hstop.symm.trans h)) (by simp)
  | byNumber trunk server serviceNumber account =>
      rw [hleg] at hpath
      obtain ⟨s, hof, hexec⟩ := hpath
      obtain ⟨s₁, hcharge, rfl⟩ := exec_setVatFlag_ok.mp (hexec.symm.trans h)
      have hcharged : s₁.uncharged = s.uncharged := by
        have hkept := @keeps_uncharged_chargeByNumber (leg.pricingEnv env)
          (isForceOrigTarifficationSkip (leg.pricingEnv env)) s
        rw [hcharge] at hkept
        exact hkept
      have hkeptVersion : s₁.callInfo.call.accountVersion = s.callInfo.call.accountVersion :=
        congrArg (fun p => p.callInfo.call.accountVersion) hcharged
      have haccount : account.accountVersion = 5 :=
        hof.accountVersion.symm.trans (hkeptVersion.symm.trans hversion)
      have hrecorded := recorded_withVatFlag (recorded_chargeByNumber hof haccount rfl hcharge)
      refine ⟨hrecorded, ?_⟩
      simp only [forall_const]
      -- a leg by number never gets the flag
      exact vatFollows_of_unset hrecorded (vat_byNumber hof haccount rfl hcharged)
  | byTrunk trunk order =>
      rw [hleg] at hpath
      obtain ⟨account, s, horder, hof, hexec⟩ := hpath
      obtain ⟨s₁, hcharge, rfl⟩ := exec_setVatFlag_ok.mp (hexec.symm.trans h)
      have hcharged : s₁.uncharged = s.uncharged := by
        have hkept := @keeps_uncharged_chargeByTrunk (leg.pricingEnv env) leg.orig s
        rw [show exec (chargeByTrunk (leg.pricingEnv env) leg.orig) s = _ from hcharge] at hkept
        exact hkept
      have hkeptVersion : s₁.callInfo.call.accountVersion = s.callInfo.call.accountVersion :=
        congrArg (fun p => p.callInfo.call.accountVersion) hcharged
      have haccount : account.accountVersion = 5 :=
        hof.accountVersion.symm.trans (hkeptVersion.symm.trans hversion)
      obtain ⟨hrecorded, hfollows⟩ := vat_byTrunk hof horder haccount rfl rfl hcharge
      exact ⟨recorded_withVatFlag hrecorded, iff_of_true hfollows (by simp)⟩

/-! ## A price with VAT, by trunk and by number -/

def vatLight : NNPAccountTariffLight :=
  { id := 1, serviceNumberId := 9, accountClientId := 3, nnpTariffId := 10, coefficient := 1,
    deactivateFrom := 5000 }

/-- A version 5 account whose tariff has a price that includes VAT, on a trunk that is
charged by number or not. -/
def vatTables (authByNumber : Bool) : DataContainer where
  trunkByName := fun _ _ =>
    some { id := 1, serverId := 1, ourTrunk := true, authByNumber := authByNumber }
  server := fun _ => some { id := 1 }
  instanceSettings := fun _ => some { id := 1 }
  client := fun _ => some { id := 3, accountVersion := 5 }
  serviceNumber := fun _ _ => some { id := 9, clientAccountId := 3 }
  serviceTrunks := fun _ _ => [{ id := 7, clientAccountId := 3, trunkId := 1 }]
  serviceTrunkSettings := fun _ _ => [{ id := 8, trunkId := 7, nnpTariffId := 10 }]
  nnpNumberRange := fun _ => some 1
  nnpNumberRangePrefix := fun _ => [4]
  nnpPrefixDestination := fun _ => [{ nnpDestinationId := 5 }]
  nnpPackage := fun _ => some { id := 10, isIncludeVat := true }
  nnpPackagePrice := [{ id := 30, nnpTariffId := 10, nnpDestinationId := 5, price := 2 }]
  nnpAccountTariffLight := { data := [vatLight] }

def vatLeg : Leg where
  cdr := { connectTime := 1000, sessionTime := 90, srcRoute := ['t'] }
  orig := true

def vatSys : PricingSys :=
  { PricingSys.empty with numberRanges := (∅ : IntMap NNPNumberRange).insert 1 { id := 1 } }

/-- What pricing the leg ends with. -/
def vatResult (authByNumber : Bool) : Except CalcStop Unit × PricingState :=
  exec (tariffication (vatLeg.pricingEnv { data := vatTables authByNumber }))
    (vatSys.start vatLeg)

theorem vatResult_eq (authByNumber : Bool) :
    vatResult authByNumber = (.ok (), (vatResult authByNumber).2) := by
  refine Prod.ext ?_ rfl
  cases authByNumber with
  | false => decide +kernel
  | true => decide +kernel

/-- By trunk the flag is set. -/
theorem vat_follows_price_of_trunk :
    (vatResult false).2.callInfo.call.priceIncludesVat = true ∧
      VatFollows (vatTables false) (vatResult false).2.callInfo.call
        (legPrice (vatLeg.pricingEnv { data := vatTables false }) (vatSys.start vatLeg)) := by
  refine ⟨by decide +kernel, ?_⟩
  refine (vat_follows_price_iff { data := vatTables false } vatSys vatLeg (vatResult false).2
    (vatResult_eq false) (by decide +kernel)).2.mpr fun hnumber => ?_
  exact absurd hnumber (by decide +kernel)

/-- By number the leg has the id of the price, and the flag is not set. -/
theorem vat_does_not_follow_price_of_number :
    ¬ ∀ (env : BillingEnv) (sys : PricingSys) (leg : Leg) (priced : PricingState),
      exec (tariffication (leg.pricingEnv env)) (sys.start leg) = (.ok (), priced) →
      priced.callInfo.call.accountVersion = 5 →
      ∀ price ∈ env.data.nnpPackagePrice, price.id ≠ 0 →
        priced.callInfo.call.nnpPackagePriceId = price.id →
        priced.callInfo.call.priceIncludesVat =
          (env.data.nnpPackage price.nnpTariffId).elim false (·.isIncludeVat) := by
  intro h
  have hflag := h { data := vatTables true } vatSys vatLeg (vatResult true).2 (vatResult_eq true)
    (by decide +kernel)
    { id := 30, nnpTariffId := 10, nnpDestinationId := 5, price := 2 } (by decide) (by decide)
    (by decide +kernel)
  have hunset : (vatResult true).2.callInfo.call.priceIncludesVat = false := by decide +kernel
  rw [hunset] at hflag
  exact absurd hflag (by decide)

end VoipBill
