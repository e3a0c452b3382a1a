import VoipBill.Billing.LegFindings

/-!
# The order a leg by trunk is settled under

A leg by trunk is settled under the first of the orders that the settings of its
trunk give for its numbers.  `trunkOrder` is that order, read off the tables and
the counters before `calc` runs: an originating leg takes the cheapest order, for
a terminating leg orders whose minimum is not used up come first.

`OrderOf` says what an order of a trunk carries: a service of the trunk, the
account of the service, and a price by the version of the account.  The one thing
it may lack is the NNP package of a version 5 order.

`calcByTrunk_cases` splits `calcByTrunk`: without an order it stops with a
`CalcException`, else the leg is charged under the order.

`legPath` puts the findings together: it says, before a leg is priced, whether it
is going to be stopped, charged by number or charged by trunk, and
`tariffication_path` is the rule for proofs about `calc` that go path by path.
-/

namespace VoipBill

open Lib Lib.Hoare

/-! ## What an order carries -/

theorem Repository.mem_of_cheapest {τ : Type} {found : List (ℚ × Nat × τ)} {price : ℚ} {t : τ}
    (h : Repository.cheapest found = some (price, t)) : ∃ place, (price, place, t) ∈ found := by
  obtain ⟨⟨price', place, t'⟩, hmem, heq⟩ := Option.map_eq_some_iff.mp h
  obtain ⟨rfl, rfl⟩ := Prod.mk.inj heq
  exact ⟨place, mem_of_setBegin hmem⟩

theorem Repository.of_mem_findNNPPackagePriceIds {r : Repository} {tariffId : Int}
    {ids : List Int} {price : ℚ} {place : Nat} {package : NNPPackagePrice}
    (h : (price, place, package) ∈ r.findNNPPackagePriceIds tariffId ids) :
    package ∈ r.data.nnpPackagePrice ∧ package.nnpTariffId = tariffId ∧ price = package.price := by
  obtain ⟨⟨package', place'⟩, hrow, heq⟩ := List.mem_map.mp h
  obtain ⟨hzip, hfilter⟩ := List.mem_filter.mp hrow
  simp only [Prod.mk.injEq] at heq
  obtain ⟨rfl, -, rfl⟩ := heq
  simp only [Bool.and_eq_true, beq_iff_eq] at hfilter
  exact ⟨(List.mem_zipIdx' hzip).2 ▸ List.getElem_mem _, hfilter.1, rfl⟩

theorem Repository.of_mem_findNNPPackagePricelistIds {r : Repository} {tariffId num : Int}
    {price : ℚ} {place : Nat} {package : NNPPackagePricelist}
    (h : (price, place, package) ∈ r.findNNPPackagePricelistIds tariffId num) :
    package ∈ r.data.nnpPackagePricelist ∧ package.nnpTariffId = tariffId ∧
      ∃ found, r.getPrice package.pricelistId num = some found ∧ price = found.price := by
  obtain ⟨⟨package', place'⟩, hrow, heq⟩ := List.mem_filterMap.mp h
  obtain ⟨hzip, hfilter⟩ := List.mem_filter.mp hrow
  obtain ⟨found, hfound, heq⟩ := Option.map_eq_some_iff.mp heq
  simp only [Prod.mk.injEq] at heq
  obtain ⟨rfl, -, rfl⟩ := heq
  exact ⟨(List.mem_zipIdx' hzip).2 ▸ List.getElem_mem _, by simpa using hfilter, found, hfound, rfl⟩

theorem Repository.of_cheapest_price {r : Repository} {tariffId : Int} {ids : List Int} {price : ℚ}
    {package : NNPPackagePrice}
    (h : Repository.cheapest (r.findNNPPackagePriceIds tariffId ids) = some (price, package)) :
    package ∈ r.data.nnpPackagePrice ∧ package.nnpTariffId = tariffId ∧ price = package.price := by
  obtain ⟨place, hmem⟩ := Repository.mem_of_cheapest h
  exact Repository.of_mem_findNNPPackagePriceIds hmem

theorem Repository.of_cheapest_pricelist {r : Repository} {tariffId num : Int} {price : ℚ}
    {package : NNPPackagePricelist}
    (h : Repository.cheapest (r.findNNPPackagePricelistIds tariffId num) =
      some (price, package)) :
    package ∈ r.data.nnpPackagePricelist ∧ package.nnpTariffId = tariffId ∧
      ∃ found, r.getPrice package.pricelistId num = some found ∧ price = found.price := by
  obtain ⟨place, hmem⟩ := Repository.mem_of_cheapest h
  exact Repository.of_mem_findNNPPackagePricelistIds hmem

namespace BillingCall

/-- The package price of a version 5 leg by number is a row of the table. -/
theorem of_setupNNPPackagePrice {env : PricingEnv} {lights : List NNPAccountTariffLight}
    {nnpDestinationIds : List Int} {price : ℚ} {package : NNPPackagePrice}
    (h : setupNNPPackagePrice env lights nnpDestinationIds = some (price, package)) :
    package ∈ env.repository.data.nnpPackagePrice ∧ price = package.price := by
  obtain ⟨place, hmem⟩ := Repository.mem_of_cheapest h
  obtain ⟨light, -, hlight⟩ := List.mem_flatMap.mp hmem
  obtain ⟨hrow, -, hprice⟩ := Repository.of_mem_findNNPPackagePriceIds hlight
  exact ⟨hrow, hprice⟩

theorem of_setupNNPPackagePricelist {env : PricingEnv} {lights : List NNPAccountTariffLight}
    {dstNumber : Int} {price : ℚ} {package : NNPPackagePricelist}
    (h : setupNNPPackagePricelist env lights dstNumber = some (price, package)) :
    package ∈ env.repository.data.nnpPackagePricelist ∧
      ∃ found, env.repository.getPrice package.pricelistId dstNumber = some found ∧
        price = found.price := by
  obtain ⟨place, hmem⟩ := Repository.mem_of_cheapest h
  obtain ⟨light, -, hlight⟩ := List.mem_flatMap.mp hmem
  obtain ⟨hrow, -, hprice⟩ := Repository.of_mem_findNNPPackagePricelistIds hlight
  exact ⟨hrow, hprice⟩

/-- The price of a version 5 order: that of a package price or of a package price
list of the tariff of the setting. -/
structure NNPPriced (r : Repository) (trunkSettings : ServiceTrunkSettings) (dstNumber : Int)
    (order : ServiceTrunkOrder) : Prop where
  nnpPackage : order.nnpPackage = r.data.nnpPackage trunkSettings.nnpTariffId
  noPrice : order.price = none
  noPricelist : order.pricelist = none
  priced :
    (∃ price ∈ r.data.nnpPackagePrice, price.nnpTariffId = trunkSettings.nnpTariffId ∧
      order.nnpPackagePrice = some price ∧ order.nnpPackagePricelist = none ∧
      order.nnpPrice = price.price) ∨
    ∃ pricelist ∈ r.data.nnpPackagePricelist,
      pricelist.nnpTariffId = trunkSettings.nnpTariffId ∧ order.nnpPackagePrice = none ∧
      order.nnpPackagePricelist = some pricelist ∧
      ∃ price, r.getPrice pricelist.pricelistId dstNumber = some price ∧
        order.nnpPrice = price.price

/-- The price of an order, by the version of its account. -/
inductive OrderPriced (r : Repository) (dstNumber : Int) (order : ServiceTrunkOrder)
    (account : Client) : Prop
  | byPricelist (pricelist : Pricelist) (price : PricelistPrice)
      (version : account.accountVersion = 4) (hpricelist : order.pricelist = some pricelist)
      (hprice : order.price = some price)
      (listed : ∃ pricelistId number, r.getPrice pricelistId number = some price)
  | byPackage (trunkSettings : ServiceTrunkSettings) (version : account.accountVersion = 5)
      (priced : NNPPriced r trunkSettings dstNumber order)

/-- What an order of a trunk carries. -/
structure OrderOf (r : Repository) (trunk : Trunk) (dstNumber : Int) (order : ServiceTrunkOrder)
    (account : Client) : Prop where
  ofAccount : order.account = some account
  ofSettings : order.trunkSettings.isSome = true
  ofService : ∃ serviceTrunk ∈ r.getAllServiceTrunk trunk.id,
    order.serviceTrunk = some serviceTrunk ∧
      r.data.client serviceTrunk.clientAccountId = some account
  priced : OrderPriced r dstNumber order account

/-- The trunk, the counter and the priority that are added to an order later do not
belong to it. -/
theorem OrderOf.placed {r : Repository} {trunk : Trunk} {dstNumber : Int}
    {order : ServiceTrunkOrder} {account : Client} (h : OrderOf r trunk dstNumber order account)
    (trunk' : Option Trunk) (stats : Option StatsTrunkSettings) (priority : Int) :
    OrderOf r trunk dstNumber
      { order with trunk := trunk', statsTrunkSettings := stats, priority := priority }
      account where
  ofAccount := h.ofAccount
  ofSettings := h.ofSettings
  ofService := h.ofService
  priced := by
    cases h.priced with
    | byPricelist pricelist price version hpricelist hprice listed =>
        exact .byPricelist pricelist price version hpricelist hprice listed
    | byPackage trunkSettings version priced =>
        exact .byPackage trunkSettings version { priced with }

theorem getPrice_of_checkTrunkSettings {r : Repository} {trunkSettings : ServiceTrunkSettings}
    {srcNumber dstNumber : Int} {found : Pricelist × PricelistPrice}
    (h : r.checkTrunkSettingsOldPricelistConditions trunkSettings srcNumber dstNumber =
      some found) :
    ∃ pricelistId number, r.getPrice pricelistId number = some found.2 := by
  unfold Repository.checkTrunkSettingsOldPricelistConditions at h
  split at h
  case isTrue => exact absurd h (by simp)
  case isFalse =>
    split at h
    case isTrue => exact absurd h (by simp)
    case isFalse =>
      obtain ⟨pricelist, -, h⟩ := Option.bind_eq_some_iff.mp h
      split at h
      case isTrue =>
        obtain ⟨networkTypeId, -, h⟩ := Option.bind_eq_some_iff.mp h
        obtain ⟨price, hprice, h⟩ := Option.bind_eq_some_iff.mp h
        cases h
        exact ⟨_, _, hprice⟩
      case isFalse =>
        obtain ⟨price, hprice, h⟩ := Option.bind_eq_some_iff.mp h
        cases h
        exact ⟨_, _, hprice⟩

/-- A version 5 order keeps what it was made from and adds its price. -/
theorem nnpTrunkOrder_spec {r : Repository} {base order : ServiceTrunkOrder}
    {trunkSettings : ServiceTrunkSettings} {ids : List Int} {dstNumber : Int}
    (hbase : base.nnpPackagePrice = none ∧ base.nnpPackagePricelist = none ∧
      base.price = none ∧ base.pricelist = none)
    (h : r.nnpTrunkOrder base trunkSettings ids dstNumber = some order) :
    order.account = base.account ∧ order.trunkSettings = base.trunkSettings ∧
      order.serviceTrunk = base.serviceTrunk ∧ NNPPriced r trunkSettings dstNumber order := by
  -- both ways to a price, whichever lookup found it
  have hprice : ∀ {price}, Repository.cheapest
      (r.findNNPPackagePriceIds trunkSettings.nnpTariffId ids) = some price →
      NNPPriced r trunkSettings dstNumber { base with
        nnpPackage := r.data.nnpPackage trunkSettings.nnpTariffId
        nnpPackagePrice := some price.2
        nnpPrice := price.1 } := by
    intro price hfound
    obtain ⟨hmem, htariff, heq⟩ := Repository.of_cheapest_price hfound
    exact ⟨rfl, hbase.2.2.1, hbase.2.2.2, Or.inl ⟨price.2, hmem, htariff, rfl, hbase.2.1, heq⟩⟩
  have hpricelist : ∀ {pricelist}, Repository.cheapest
      (r.findNNPPackagePricelistIds trunkSettings.nnpTariffId dstNumber) = some pricelist →
      NNPPriced r trunkSettings dstNumber { base with
        nnpPackage := r.data.nnpPackage trunkSettings.nnpTariffId
        nnpPackagePricelist := some pricelist.2
        nnpPrice := pricelist.1 } := by
    intro pricelist hfound
    obtain ⟨hmem, htariff, price, hlisted, heq⟩ := Repository.of_cheapest_pricelist hfound
    exact ⟨rfl, hbase.2.2.1, hbase.2.2.2,
      Or.inr ⟨pricelist.2, hmem, htariff, hbase.1, rfl, price, hlisted, heq⟩⟩
  unfold Repository.nnpTrunkOrder at h
  split at h
  case h_1 => exact absurd h (by simp)
  case h_2 price hfound _ =>
    cases h
    exact ⟨rfl, rfl, rfl, hprice hfound⟩
  case h_3 pricelist _ hfound =>
    cases h
    exact ⟨rfl, rfl, rfl, hpricelist hfound⟩
  case h_4 price pricelist hfound hfound' =>
    split at h
    case isTrue =>
      cases h
      exact ⟨rfl, rfl, rfl, hprice hfound⟩
    case isFalse =>
      cases h
      exact ⟨rfl, rfl, rfl, hpricelist hfound'⟩

theorem orderOf_trunkSettingsOrder {r : Repository} {trunk : Trunk} {serviceTrunk : ServiceTrunk}
    {trunkSettings : ServiceTrunkSettings} {ids : List Int} {srcNumber dstNumber : Int}
    {order : ServiceTrunkOrder} (hservice : serviceTrunk ∈ r.getAllServiceTrunk trunk.id)
    (h : r.trunkSettingsOrder serviceTrunk trunkSettings ids srcNumber dstNumber = some order) :
    ∃ account, OrderOf r trunk dstNumber order account := by
  unfold Repository.trunkSettingsOrder at h
  split at h
  case h_1 => exact absurd h (by simp)
  case h_2 account haccount =>
    refine ⟨account, ?_⟩
    split at h
    case isTrue hversion =>
      obtain ⟨found, hfound, rfl⟩ := Option.map_eq_some_iff.mp h
      exact ⟨rfl, rfl, ⟨serviceTrunk, hservice, rfl, haccount⟩,
        .byPricelist found.1 found.2 hversion rfl rfl
          (getPrice_of_checkTrunkSettings hfound)⟩
    case isFalse =>
      split at h
      case isTrue hversion =>
        split at h
        case isTrue =>
          obtain ⟨hacc, hsettings, hserv, hpriced⟩ := nnpTrunkOrder_spec ⟨rfl, rfl, rfl, rfl⟩ h
          exact ⟨hacc, by rw [hsettings]; rfl, ⟨serviceTrunk, hservice, hserv, haccount⟩,
            .byPackage trunkSettings hversion hpriced⟩
        case isFalse => exact absurd h (by simp)
      case isFalse => exact absurd h (by simp)

/-- Every order of the list is an order of the trunk. -/
theorem orderOf_of_mem {r : Repository} {trunk : Trunk} {ids : List Int}
    {srcNumber dstNumber destinationType : Int} {order : ServiceTrunkOrder}
    (h : order ∈ r.getTrunkSettingsOrderList trunk ids srcNumber dstNumber destinationType) :
    ∃ account, OrderOf r trunk dstNumber order account := by
  obtain ⟨serviceTrunk, hmem, horder⟩ := List.mem_flatMap.mp h
  obtain ⟨trunkSettings, -, hmap⟩ := List.mem_filterMap.mp horder
  obtain ⟨unplaced, hsome, rfl⟩ := Option.map_eq_some_iff.mp hmap
  obtain ⟨account, hof⟩ := orderOf_trunkSettingsOrder hmem hsome
  exact ⟨account, hof.placed (some trunk) unplaced.statsTrunkSettings unplaced.priority⟩

/-! ## The order of the orders -/

/-- Look up the counters of the orders, one after the other; a missing one is
created. -/
def lookUpStats (connectTime : Int) :
    List ServiceTrunkOrder → StatsTrunkSettingsManager →
      List (ServiceTrunkOrder × ServiceTrunkSettings × StatsTrunkSettings) ×
        StatsTrunkSettingsManager
  | [], m => ([], m)
  | order :: orders, m =>
      match order.account, order.trunkSettings with
      | some account, some trunkSettings =>
          let found := StatsTrunkSettingsManager.getCurrent m connectTime account trunkSettings
          let rest := lookUpStats connectTime orders found.2
          (({ order with statsTrunkSettings := some found.1 }, trunkSettings, found.1) :: rest.1,
            rest.2)
      | _, _ => lookUpStats connectTime orders m

/-- The orders of a terminating trunk in the order they are tried, by the counters
before pricing. -/
def termOrders (env : PricingEnv) (m : StatsTrunkSettingsManager)
    (orders : List ServiceTrunkOrder) (fUseMinimalki : Bool) (connectTime : Int) :
    List ServiceTrunkOrder :=
  let found := (lookUpStats connectTime orders m).1
  let free := (found.filter fun order => isFree fUseMinimalki order.2.1 order.2.2).map (·.1)
  let pay := (found.filter fun order => !isFree fUseMinimalki order.2.1 order.2.2).map (·.1)
  (env.repository.sortByPrice free ++ env.repository.sortByPrice pay).mergeSort
    fun left right => !decide (left.priority < right.priority)

section Stats

variable {env : PricingEnv} {connectTime : Int} {orders : List ServiceTrunkOrder}
  {m : StatsTrunkSettingsManager}

/-- A found counter only adds itself to the order it was looked up for. -/
theorem of_mem_lookUpStats
    {found : ServiceTrunkOrder × ServiceTrunkSettings × StatsTrunkSettings}
    (h : found ∈ (lookUpStats connectTime orders m).1) :
    ∃ order ∈ orders, found.1 = { order with statsTrunkSettings := some found.2.2 } := by
  induction orders generalizing m with
  | nil => exact absurd h (by simp [lookUpStats])
  | cons order orders ih =>
      rw [lookUpStats] at h
      split at h
      case h_1 account trunkSettings _ _ =>
        rcases List.mem_cons.mp h with rfl | hrest
        · exact ⟨order, List.mem_cons_self, rfl⟩
        · obtain ⟨order', hmem, heq⟩ := ih hrest
          exact ⟨order', List.mem_cons_of_mem order hmem, heq⟩
      case h_2 =>
        obtain ⟨order', hmem, heq⟩ := ih h
        exact ⟨order', List.mem_cons_of_mem order hmem, heq⟩

theorem of_mem_termOrders {fUseMinimalki : Bool} {order : ServiceTrunkOrder}
    (h : order ∈ termOrders env m orders fUseMinimalki connectTime) :
    ∃ order' ∈ orders, ∃ stats, order = { order' with statsTrunkSettings := some stats } := by
  have hfound : ∃ found ∈ (lookUpStats connectTime orders m).1, found.1 = order := by
    unfold termOrders Repository.sortByPrice at h
    simp only [List.mem_mergeSort, List.mem_append, List.mem_map, List.mem_filter] at h
    rcases h with ⟨found, ⟨hmem, -⟩, heq⟩ | ⟨found, ⟨hmem, -⟩, heq⟩
    · exact ⟨found, hmem, heq⟩
    · exact ⟨found, hmem, heq⟩
  obtain ⟨found, hmem, rfl⟩ := hfound
  obtain ⟨order', hmem', heq⟩ := of_mem_lookUpStats hmem
  exact ⟨order', hmem', _, heq⟩

/-- The state with other counters of trunk settings. -/
def withStatsOf (m : StatsTrunkSettingsManager) (s : PricingState) : PricingState :=
  { s with billingData := { s.billingData with statsTrunkSettings := m } }

theorem exec_mapM_withStats {s : PricingState}
    (h : ∀ order ∈ orders, order.account.isSome = true ∧ order.trunkSettings.isSome = true) :
    exec (orders.mapM (withStatsTrunkSettings connectTime)) s =
      (.ok (lookUpStats connectTime orders s.billingData.statsTrunkSettings).1,
        withStatsOf (lookUpStats connectTime orders s.billingData.statsTrunkSettings).2 s) := by
  induction orders generalizing s with
  | nil => rfl
  | cons order orders ih =>
      obtain ⟨haccount, hsettings⟩ := h order List.mem_cons_self
      obtain ⟨account, haccount⟩ := Option.isSome_iff_exists.mp haccount
      obtain ⟨trunkSettings, hsettings⟩ := Option.isSome_iff_exists.mp hsettings
      have hfirst : exec (withStatsTrunkSettings connectTime order) s =
          (.ok ({ order with statsTrunkSettings := some (StatsTrunkSettingsManager.getCurrent
              s.billingData.statsTrunkSettings connectTime account trunkSettings).1 },
              trunkSettings, (StatsTrunkSettingsManager.getCurrent
                s.billingData.statsTrunkSettings connectTime account trunkSettings).1),
            withStatsOf (StatsTrunkSettingsManager.getCurrent
              s.billingData.statsTrunkSettings connectTime account trunkSettings).2 s) := by
        unfold withStatsTrunkSettings
        rw [haccount, hsettings]
        rfl
      have hrest := ih (s := withStatsOf (StatsTrunkSettingsManager.getCurrent
        s.billingData.statsTrunkSettings connectTime account trunkSettings).2 s)
        fun order' hmem => h order' (List.mem_cons_of_mem order hmem)
      rw [List.mapM_cons, exec_bind_ok hfirst, exec_bind_ok hrest]
      simp only [lookUpStats, haccount, hsettings]
      rfl

/-- The source orders by the counters as `termOrders` does, and creates the
counters that are missing. -/
theorem exec_orderTermTrunkSettingsOrderList {s : PricingState} (fUseMinimalki : Bool)
    (h : ∀ order ∈ orders, order.account.isSome = true ∧ order.trunkSettings.isSome = true) :
    exec (orderTermTrunkSettingsOrderList env orders fUseMinimalki connectTime) s =
      (.ok (termOrders env s.billingData.statsTrunkSettings orders fUseMinimalki connectTime),
        withStatsOf (lookUpStats connectTime orders s.billingData.statsTrunkSettings).2 s) := by
  unfold orderTermTrunkSettingsOrderList
  rw [exec_bind_ok (exec_mapM_withStats h)]
  rfl

end Stats

/-! ## By trunk -/

/-- The orders the trunk has for the leg. -/
def legOrders (env : PricingEnv) (s₀ : PricingState) (trunk : Trunk) : List ServiceTrunkOrder :=
  let numbers := legNumbers env trunk s₀.callInfo.call.orig s₀.numbers
  env.repository.getTrunkSettingsOrderList trunk (destinationsOf env s₀.numberRanges numbers.2)
    numbers.1 numbers.2
    (if s₀.callInfo.call.orig then serviceTrunkSettingsOrigination
      else serviceTrunkSettingsTermination)

/-- The order the leg is settled under. -/
def trunkOrder (env : PricingEnv) (s₀ : PricingState) (trunk : Trunk) :
    Option ServiceTrunkOrder :=
  if s₀.callInfo.call.orig then
    (env.repository.orderOrigTrunkSettingsOrderList (legOrders env s₀ trunk)).head?
  else
    (env.repository.getTrunkByName env.cdr.srcRoute env.origRegion).bind fun origTrunk =>
      (termOrders env s₀.billingData.statsTrunkSettings (legOrders env s₀ trunk)
        origTrunk.swMinimalki s₀.callInfo.call.connectTime).head?

/-- The account of an order is a version 5 one. -/
def isNNPOrder (order : ServiceTrunkOrder) : Bool :=
  order.account.elim false fun account => account.accountVersion == 5

/-- What the leg takes over from its order. -/
def settledUnder (orig : Bool) (order : ServiceTrunkOrder) (callInfo : CallInfo) : CallInfo :=
  { callInfo with
    account := order.account
    serviceTrunk := order.serviceTrunk
    trunkSettings := order.trunkSettings
    pricelist := order.pricelist
    price := order.price
    nnpPackage := if isNNPOrder order then order.nnpPackage else callInfo.nnpPackage
    nnpPackagePricelist :=
      if isNNPOrder order then order.nnpPackagePricelist else callInfo.nnpPackagePricelist
    nnpPackagePrice := if isNNPOrder order then order.nnpPackagePrice else callInfo.nnpPackagePrice
    call :=
      { callInfo.call with
        trunkSettingsStatsId :=
          if orig then callInfo.call.trunkSettingsStatsId
          else order.statsTrunkSettings.elim callInfo.call.trunkSettingsStatsId (·.id)
        nnpPackagePriceId :=
          if isNNPOrder order then
            order.nnpPackagePrice.elim callInfo.call.nnpPackagePriceId (·.id)
          else callInfo.call.nnpPackagePriceId
        nnpPackagePricelistId :=
          if isNNPOrder order then
            order.nnpPackagePricelist.elim callInfo.call.nnpPackagePricelistId (·.id)
          else callInfo.call.nnpPackagePricelistId
        nnpPackageId :=
          if isNNPOrder order then order.nnpPackage.elim callInfo.call.nnpPackageId (·.id)
          else callInfo.call.nnpPackageId
        rate := if isNNPOrder order then order.nnpPrice else callInfo.call.rate } }

/-- What follows in `calcByTrunk` when the account is known. -/
def chargeByTrunk (env : PricingEnv) (orig : Bool) : Pricing Unit := do
  let callInfo ← getCallInfo
  if callInfo.call.accountVersion = 4 then
    calcByTrunkV4 env orig
  else if callInfo.call.accountVersion = 5 then
    let nnpPackage ← deref callInfo.nnpPackage
    setupBilledTimeNNP env nnpPackage
    setupNNPInterconnect env
    setupNNPCost
  else
    throw (.calcException "UNKNOW ACCOUNT VERSION")

section Settle

variable {env : PricingEnv} {order : ServiceTrunkOrder} {s₀ s : PricingState} {trunk : Trunk}
  {server : Server}

theorem exec_applyOrigOrder :
    exec (applyOrder order >>= fun _ => applyNNPOrder order) s =
      (.ok (), { s with callInfo := settledUnder true order s.callInfo }) := by
  unfold applyOrder applyNNPOrder settledUnder
  rw [exec_bind_ok (exec_modifyCallInfo _ s)]
  show exec (onlyIf (isNNPOrder order) _) _ = _
  cases isNNPOrder order with
  | false => rfl
  | true => rfl

theorem exec_applyTermOrder {stats : StatsTrunkSettings}
    (hstats : order.statsTrunkSettings = some stats) :
    exec (do
        applyOrder order
        let stats ← deref order.statsTrunkSettings
        modifyCall fun call => { call with trunkSettingsStatsId := stats.id }
        applyNNPOrder order) s =
      (.ok (), { s with callInfo := settledUnder false order s.callInfo }) := by
  unfold applyOrder applyNNPOrder settledUnder
  rw [exec_bind_ok (exec_modifyCallInfo _ s), hstats]
  show exec (onlyIf (isNNPOrder order) _) _ = _
  cases isNNPOrder order with
  | false => rfl
  | true => rfl

theorem legOrders_eq (h : Classified env s₀ trunk server s) :
    legOrders env s₀ trunk = env.repository.getTrunkSettingsOrderList trunk
      (destinationsOf env s.numberRanges s.callInfo.call.dstNumber) s.callInfo.call.srcNumber
      s.callInfo.call.dstNumber
      (if s₀.callInfo.call.orig then serviceTrunkSettingsOrigination
        else serviceTrunkSettingsTermination) := by
  rw [h.destinations, h.srcNumber, h.dstNumber, legOrders]

theorem orders_complete :
    ∀ order ∈ legOrders env s₀ trunk,
      order.account.isSome = true ∧ order.trunkSettings.isSome = true := by
  intro order hmem
  obtain ⟨account, horder⟩ := orderOf_of_mem hmem
  exact ⟨by rw [horder.ofAccount]; rfl, horder.ofSettings⟩

theorem exec_setupEffectiveOrigTrunkSettings (h : Classified env s₀ trunk server s)
    (horig : s₀.callInfo.call.orig = true) :
    exec (setupEffectiveOrigTrunkSettings env) s =
      exec (whenSome (trunkOrder env s₀ trunk) fun order =>
        applyOrder order >>= fun _ => applyNNPOrder order) s := by
  have horders := legOrders_eq h
  rw [horig, if_pos rfl] at horders
  have hlist : exec (getTrunkSettingsOrderList env trunk s.callInfo.call.srcNumber
      s.callInfo.call.dstNumber serviceTrunkSettingsOrigination) s =
      (.ok (legOrders env s₀ trunk), s) := by
    rw [horders]
    rfl
  unfold setupEffectiveOrigTrunkSettings trunkOrder
  rw [exec_bind_ok (exec_getCallInfo s), h.onTrunk, exec_bind_ok (exec_deref_some trunk s),
    exec_bind_ok hlist, horig, if_pos rfl]

theorem exec_setupEffectiveTermTrunkSettings_none (h : Classified env s₀ trunk server s)
    (hnone : env.repository.getTrunkByName env.cdr.srcRoute env.origRegion = none) :
    exec (setupEffectiveTermTrunkSettings env) s =
      (.error (.calcException "ORIG TRUNK WAS NOT FOUND"), s) := by
  unfold setupEffectiveTermTrunkSettings
  rw [exec_bind_ok (exec_getCallInfo s), h.onTrunk, exec_bind_ok (exec_deref_some trunk s), hnone]
  rfl

theorem exec_setupEffectiveTermTrunkSettings_some {origTrunk : Trunk}
    (h : Classified env s₀ trunk server s) (horig : s₀.callInfo.call.orig = false)
    (hsome : env.repository.getTrunkByName env.cdr.srcRoute env.origRegion = some origTrunk) :
    exec (setupEffectiveTermTrunkSettings env) s =
      exec (whenSome (trunkOrder env s₀ trunk) fun order => do
        applyOrder order
        let stats ← deref order.statsTrunkSettings
        modifyCall fun call => { call with trunkSettingsStatsId := stats.id }
        applyNNPOrder order)
        (withStatsOf (lookUpStats s₀.callInfo.call.connectTime (legOrders env s₀ trunk)
          s₀.billingData.statsTrunkSettings).2 s) := by
  have horders := legOrders_eq h
  rw [horig, if_neg Bool.false_ne_true] at horders
  have hlist : exec (getTrunkSettingsOrderList env trunk s.callInfo.call.srcNumber
      s.callInfo.call.dstNumber serviceTrunkSettingsTermination) s =
      (.ok (legOrders env s₀ trunk), s) := by
    rw [horders]
    rfl
  have hstats : s.billingData.statsTrunkSettings = s₀.billingData.statsTrunkSettings :=
    congrArg (fun p => p.billingData.statsTrunkSettings) h.bill
  unfold setupEffectiveTermTrunkSettings trunkOrder
  rw [exec_bind_ok (exec_getCallInfo s), h.onTrunk, exec_bind_ok (exec_deref_some trunk s),
    exec_bind_ok hlist, hsome, exec_bind_ok (exec_orThrow_some _ origTrunk s),
    exec_bind_ok (exec_orderTermTrunkSettingsOrderList _ orders_complete), horig,
    if_neg Bool.false_ne_true, h.connectTime, hstats]
  rfl

/-- The order a leg is settled under is one of its trunk, and a terminating leg has
its counter. -/
theorem orderOf_trunkOrder (h : trunkOrder env s₀ trunk = some order) :
    (∃ account, OrderOf env.repository trunk
      (legNumbers env trunk s₀.callInfo.call.orig s₀.numbers).2 order account) ∧
    (s₀.callInfo.call.orig = false → order.statsTrunkSettings.isSome = true) := by
  unfold trunkOrder at h
  cases horig : s₀.callInfo.call.orig with
  | true =>
      rw [horig, if_pos rfl] at h
      refine ⟨?_, by simp⟩
      have hmem := orderOf_of_mem
        (Repository.mem_orderOrigTrunkSettingsOrderList (List.mem_of_head? h))
      rwa [horig] at hmem
  | false =>
      rw [horig, if_neg Bool.false_ne_true] at h
      obtain ⟨origTrunk, -, hhead⟩ := Option.bind_eq_some_iff.mp h
      obtain ⟨order', hmem, stats, rfl⟩ := of_mem_termOrders (List.mem_of_head? hhead)
      obtain ⟨account, horder⟩ := orderOf_of_mem hmem
      rw [horig] at horder
      exact ⟨⟨account, horder.placed _ _ _⟩, fun _ => rfl⟩

/-- The settings of a trunk are looked up with the result of `trunkOrder`. -/
theorem setupEffectiveTrunkSettings_cases (h : Classified env s₀ trunk server s) :
    (trunkOrder env s₀ trunk = none ∧
      ((∃ message, exec (setupEffectiveTrunkSettings env s₀.callInfo.call.orig) s =
        (.error (.calcException message), s)) ∨
      ∃ m, exec (setupEffectiveTrunkSettings env s₀.callInfo.call.orig) s =
        (.ok (), withStatsOf m s))) ∨
    ∃ order m, trunkOrder env s₀ trunk = some order ∧
      exec (setupEffectiveTrunkSettings env s₀.callInfo.call.orig) s =
        (.ok (), { withStatsOf m s with
          callInfo := settledUnder s₀.callInfo.call.orig order s.callInfo }) := by
  unfold setupEffectiveTrunkSettings
  cases horig : s₀.callInfo.call.orig with
  | true =>
      rw [if_pos rfl, exec_setupEffectiveOrigTrunkSettings h horig]
      cases horder : trunkOrder env s₀ trunk with
      | none => exact Or.inl ⟨rfl, Or.inr ⟨s.billingData.statsTrunkSettings, rfl⟩⟩
      | some order =>
          exact Or.inr ⟨order, s.billingData.statsTrunkSettings, rfl, exec_applyOrigOrder⟩
  | false =>
      rw [if_neg Bool.false_ne_true]
      cases hname : env.repository.getTrunkByName env.cdr.srcRoute env.origRegion with
      | none =>
          refine Or.inl ⟨?_, Or.inl ⟨_, exec_setupEffectiveTermTrunkSettings_none h hname⟩⟩
          rw [trunkOrder, horig, if_neg Bool.false_ne_true, hname]
          rfl
      | some origTrunk =>
          rw [exec_setupEffectiveTermTrunkSettings_some h horig hname]
          cases horder : trunkOrder env s₀ trunk with
          | none => exact Or.inl ⟨rfl, Or.inr ⟨_, rfl⟩⟩
          | some order =>
              obtain ⟨stats, hstats⟩ := Option.isSome_iff_exists.mp
                ((orderOf_trunkOrder horder).2 horig)
              exact Or.inr ⟨order, _, rfl, exec_applyTermOrder hstats⟩

/-- A leg by trunk under its order, with its account found. -/
structure OfTrunk (s₀ : PricingState) (order : ServiceTrunkOrder) (account : Client)
    (s : PricingState) : Prop where
  unsettled : s.unsettled = s₀.unsettled
  noNumber : s.callInfo.serviceNumber = none
  ofService : s.callInfo.serviceTrunk = order.serviceTrunk
  ofAccount : s.callInfo.account = some account
  accountVersion : s.callInfo.call.accountVersion = account.accountVersion
  ofPricelist : s.callInfo.pricelist = order.pricelist
  ofPrice : s.callInfo.price = order.price
  ofPackage : account.accountVersion = 5 → s.callInfo.nnpPackage = order.nnpPackage ∧
    s.callInfo.nnpPackagePrice = order.nnpPackagePrice ∧
    s.callInfo.nnpPackagePricelist = order.nnpPackagePricelist ∧
    s.callInfo.call.nnpPackagePriceId =
      order.nnpPackagePrice.elim s₀.callInfo.call.nnpPackagePriceId (·.id) ∧
    s.callInfo.call.nnpPackagePricelistId =
      order.nnpPackagePricelist.elim s₀.callInfo.call.nnpPackagePricelistId (·.id) ∧
    s.callInfo.call.rate = order.nnpPrice

theorem unsettled_of_bill {s s' : PricingState} (h : s'.bill = s.bill) :
    s'.unsettled = s.unsettled := by
  unfold PricingState.unsettled
  rw [h, show s'.billingData = s.billingData from congrArg (fun p => p.billingData) h]

/-- The leg carries the id of its trunk service. -/
def onTrunkService (serviceTrunk : ServiceTrunk) (s : PricingState) : PricingState :=
  { s with
    callInfo :=
      { s.callInfo with call := { s.callInfo.call with trunkServiceId := serviceTrunk.id } } }

theorem bill_onTrunkService (serviceTrunk : ServiceTrunk) (s : PricingState) :
    (onTrunkService serviceTrunk s).bill = s.bill := rfl

theorem unsettled_settledUnder (orig : Bool) (m : StatsTrunkSettingsManager) (s : PricingState) :
    PricingState.unsettled { withStatsOf m s with
      callInfo := settledUnder orig order s.callInfo } = s.unsettled := rfl

/-- Settling a leg under its order leads to the account of the order. -/
theorem exec_calcTrunkService {account : Client} {dstNumber : Int} (orig : Bool)
    (h : OrderOf env.repository trunk dstNumber order account)
    (hnumber : s.callInfo.serviceNumber = none)
    (hservice : s.callInfo.serviceTrunk = order.serviceTrunk) :
    ∃ serviceTrunk, exec (calcTrunkService env orig) s =
      exec (chargeByTrunk env orig) ((onTrunkService serviceTrunk s).withAccount account) := by
  obtain ⟨serviceTrunk, -, hsome, haccount⟩ := h.ofService
  refine ⟨serviceTrunk, ?_⟩
  have hfirst : exec setupServiceTrunk s = (.ok (), onTrunkService serviceTrunk s) := by
    unfold setupServiceTrunk
    rw [exec_bind_ok (exec_getCallInfo s), hservice, hsome]
    rfl
  have hfind : findAccount env (onTrunkService serviceTrunk s).callInfo = some account := by
    have hnumber' : (onTrunkService serviceTrunk s).callInfo.serviceNumber = none := hnumber
    have hservice' : (onTrunkService serviceTrunk s).callInfo.serviceTrunk = some serviceTrunk :=
      hservice.trans hsome
    unfold findAccount
    rw [hnumber', hservice']
    exact haccount
  unfold calcTrunkService
  rw [exec_bind_ok hfirst, exec_bind_ok (exec_setupAccount_some hfind)]
  rfl

/-- A leg without an order has no trunk service. -/
theorem exec_calcTrunkService_none (orig : Bool) (hservice : s.callInfo.serviceTrunk = none) :
    exec (calcTrunkService env orig) s =
      (.error (.calcException "SERVICE TRUNK WAS NOT FOUND"), s) := by
  have hfirst : exec setupServiceTrunk s =
      (.error (.calcException "SERVICE TRUNK WAS NOT FOUND"), s) := by
    unfold setupServiceTrunk
    rw [exec_bind_ok (exec_getCallInfo s), hservice]
    rfl
  unfold calcTrunkService
  exact exec_bind_error hfirst

/-- **How a leg by trunk starts.**  It stops without an order, and else goes on under
the order with the account of the order. -/
theorem calcByTrunk_cases (h : Classified env s₀ trunk server s)
    (hnumber : s₀.callInfo.serviceNumber = none) (hservice : s₀.callInfo.serviceTrunk = none) :
    (trunkOrder env s₀ trunk = none ∧ ∃ message s',
      exec (calcByTrunk env) s = (.error (.calcException message), s') ∧
        s'.unsettled = s₀.unsettled ∧ s'.callInfo = s.callInfo) ∨
    ∃ order account s', trunkOrder env s₀ trunk = some order ∧
      OrderOf env.repository trunk (legNumbers env trunk s₀.callInfo.call.orig s₀.numbers).2
        order account ∧
      OfTrunk s₀ order account s' ∧
      exec (calcByTrunk env) s = exec (chargeByTrunk env s₀.callInfo.call.orig) s' := by
  have hunsettled := unsettled_of_bill h.bill
  have hunfold : exec (calcByTrunk env) s =
      exec (setupEffectiveTrunkSettings env s₀.callInfo.call.orig >>= fun _ =>
        calcTrunkService env s₀.callInfo.call.orig) s := by
    unfold calcByTrunk
    rw [exec_bind_ok (exec_getCall s), h.orig]
  rw [hunfold]
  rcases setupEffectiveTrunkSettings_cases h with
    ⟨hnone, ⟨message, hexec⟩ | ⟨m, hexec⟩⟩ | ⟨order, m, hsome, hexec⟩
  · exact Or.inl ⟨hnone, message, s, exec_bind_error hexec, hunsettled, rfl⟩
  · refine Or.inl ⟨hnone, "SERVICE TRUNK WAS NOT FOUND", withStatsOf m s, ?_, hunsettled, rfl⟩
    rw [exec_bind_ok hexec]
    exact exec_calcTrunkService_none _ (h.serviceTrunk.trans hservice)
  · obtain ⟨⟨account, horder⟩, -⟩ := orderOf_trunkOrder hsome
    refine Or.inr ⟨order, account, ?_⟩
    rw [exec_bind_ok hexec]
    obtain ⟨serviceTrunk, hcharge⟩ := @exec_calcTrunkService env order
      { withStatsOf m s with callInfo := settledUnder s₀.callInfo.call.orig order s.callInfo }
      trunk account _ s₀.callInfo.call.orig horder (h.serviceNumber.trans hnumber) rfl
    refine ⟨_, hsome, horder, ?_, hcharge⟩
    have hnnp : isNNPOrder order = decide (account.accountVersion = 5) := by
      rw [isNNPOrder, horder.ofAccount]
      rfl
    have hprice : s.callInfo.call.nnpPackagePriceId = s₀.callInfo.call.nnpPackagePriceId :=
      congrArg (fun p => p.callInfo.call.nnpPackagePriceId) h.bill
    have hpricelist :
        s.callInfo.call.nnpPackagePricelistId = s₀.callInfo.call.nnpPackagePricelistId :=
      congrArg (fun p => p.callInfo.call.nnpPackagePricelistId) h.bill
    exact {
      unsettled := by
        rw [unsettled_of_bill (PricingState.bill_withAccount _ account),
          unsettled_of_bill (bill_onTrunkService serviceTrunk _), unsettled_settledUnder, hunsettled]
      noNumber := h.serviceNumber.trans hnumber
      ofService := rfl
      ofAccount := rfl
      accountVersion := rfl
      ofPricelist := rfl
      ofPrice := rfl
      ofPackage := by
        intro hversion
        have htrue : isNNPOrder order = true := by rw [hnnp, decide_eq_true hversion]
        rw [← hprice, ← hpricelist]
        simp only [PricingState.withAccount, onTrunkService, settledUnder, htrue, if_true,
          and_self] }

end Settle

/-! ## The path of a leg -/

/-- How a leg is going to be charged. -/
inductive LegPath where
  | stopped
  | byNumber (trunk : Trunk) (server : Server) (serviceNumber : ServiceNumber) (account : Client)
  | byTrunk (trunk : Trunk) (order : ServiceTrunkOrder)
deriving DecidableEq, Repr

/-- The path of a leg, read off what is there before it is priced. -/
def legPath (env : PricingEnv) (s₀ : PricingState) : LegPath :=
  match legObjects env s₀.callInfo.call.orig with
  | none => .stopped
  | some (trunk, server, _) =>
      if trunk.authByNumber || isNeedForceCalcByNumber env s₀.callInfo.call.orig then
        match numberAccount env trunk (ownNumber env trunk s₀.callInfo.call.orig s₀.numbers) with
        | none => .stopped
        | some (serviceNumber, account) => .byNumber trunk server serviceNumber account
      else
        match trunkOrder env s₀ trunk with
        | none => .stopped
        | some order => .byTrunk trunk order

/-- A leg before it is priced. -/
structure Unpriced (s₀ : PricingState) : Prop where
  noNumber : s₀.callInfo.serviceNumber = none
  noTrunk : s₀.callInfo.serviceTrunk = none

section Path

variable {env : PricingEnv} {s₀ : PricingState}

theorem exec_charging {trunk : Trunk} {server : Server} {s : PricingState}
    (h : Classified env s₀ trunk server s) (orig : Bool) :
    exec (charging env orig) s =
      if trunk.authByNumber || isNeedForceCalcByNumber env orig then
        exec (calcByNumber env (isForceOrigTarifficationSkip env)) s
      else exec (calcByTrunk env) s := by
  unfold charging
  rw [exec_bind_ok (exec_getCallInfo s), h.onTrunk, exec_bind_ok (exec_deref_some trunk s)]
  split
  · rfl
  · rfl

/-- **The three ways of pricing.**  A leg is stopped before it is charged, or is
charged by number or by trunk, as its path says. -/
theorem tariffication_path (hs₀ : Unpriced s₀) :
    match legPath env s₀ with
    | .stopped => ∃ message s', exec (tariffication env) s₀ = (.error (.calcException message), s') ∧
        s'.unsettled = s₀.unsettled ∧
        s'.callInfo.call.trunkSettingsStatsId = s₀.callInfo.call.trunkSettingsStatsId
    | .byNumber trunk server serviceNumber account => ∃ s,
        OfNumber env s₀ trunk server serviceNumber account s ∧
        exec (tariffication env) s₀ =
          exec (chargeByNumber env (isForceOrigTarifficationSkip env) >>= fun _ =>
            setVatFlag env) s
    | .byTrunk trunk order => ∃ account s,
        OrderOf env.repository trunk (legNumbers env trunk s₀.callInfo.call.orig s₀.numbers).2
          order account ∧
        OfTrunk s₀ order account s ∧
        exec (tariffication env) s₀ =
          exec (chargeByTrunk env s₀.callInfo.call.orig >>= fun _ => setVatFlag env) s := by
  have hstats : ∀ {s : PricingState}, s.bill = s₀.bill →
      s.callInfo.call.trunkSettingsStatsId = s₀.callInfo.call.trunkSettingsStatsId :=
    fun h => congrArg (fun p => p.callInfo.call.trunkSettingsStatsId) h
  unfold legPath
  rcases tariffication_cases env s₀ with
    ⟨hnone, message, s', hexec, hbill⟩ | ⟨trunk, server, settings, s, hsome, hclass, hexec⟩
  · rw [hnone]
    exact ⟨message, s', hexec, unsettled_of_bill hbill, hstats hbill⟩
  rw [hsome, hexec]
  dsimp only
  -- the leg is charged by number or by trunk
  have hcharging := exec_charging hclass s₀.callInfo.call.orig
  split at hcharging
  case isTrue hby =>
    rw [if_pos hby]
    rcases calcByNumber_cases hclass (isForceOrigTarifficationSkip env) with
      ⟨hnone, message, s', hstop, hbill⟩ | ⟨serviceNumber, account, s', hfound, hof, hgo⟩
    · rw [hnone]
      exact ⟨message, s', exec_bind_error (hcharging.trans hstop), unsettled_of_bill hbill,
        hstats hbill⟩
    · rw [hfound]
      refine ⟨s', hof, ?_⟩
      rw [exec_bind, exec_bind, hcharging, hgo]
  case isFalse hby =>
    rw [if_neg hby]
    rcases calcByTrunk_cases hclass hs₀.noNumber hs₀.noTrunk with
      ⟨hnone, message, s', hstop, hkept, hinfo⟩ | ⟨order, account, s', horder, hof, hon, hgo⟩
    · rw [hnone]
      refine ⟨message, s', exec_bind_error (hcharging.trans hstop), hkept, ?_⟩
      rw [hinfo]
      exact hstats hclass.bill
    · rw [horder]
      refine ⟨account, s', hof, hon, ?_⟩
      rw [exec_bind, exec_bind, hcharging, hgo]

/-- **The rule of `tariffication`.**  What holds of a leg that is stopped, and after
charging by number and by trunk, holds of the leg however its pricing ends. -/
theorem tariffication_ends {Q : PricingState → Prop} (hs₀ : Unpriced s₀)
    (hvat : ∀ s, Q s → Q { s with callInfo := withVatFlag env s.callInfo })
    (hstopped : ∀ s, legPath env s₀ = .stopped → s.unsettled = s₀.unsettled → Q s)
    (hnumber : ∀ trunk server serviceNumber account s,
      legPath env s₀ = .byNumber trunk server serviceNumber account →
      OfNumber env s₀ trunk server serviceNumber account s →
      Q (exec (chargeByNumber env (isForceOrigTarifficationSkip env)) s).2)
    (htrunk : ∀ trunk order account s, legPath env s₀ = .byTrunk trunk order →
      OfTrunk s₀ order account s → Q (exec (chargeByTrunk env s₀.callInfo.call.orig) s).2) :
    Q (exec (tariffication env) s₀).2 := by
  have hpath := @tariffication_path env s₀ hs₀
  have hflag : ∀ (x : Pricing Unit) (s : PricingState), Q (exec x s).2 →
      Q (exec (x >>= fun _ => setVatFlag env) s).2 := by
    intro x s hx
    rw [exec_bind]
    generalize exec x s = result at hx
    match result with
    | (.ok _, s') => exact hvat s' hx
    | (.error _, s') => exact hx
  cases hleg : legPath env s₀ with
  | stopped =>
      rw [hleg] at hpath
      obtain ⟨message, s', hexec, hkept, -⟩ := hpath
      rw [hexec]
      exact hstopped s' hleg hkept
  | byNumber trunk server serviceNumber account =>
      rw [hleg] at hpath
      obtain ⟨s, hof, hexec⟩ := hpath
      rw [hexec]
      exact hflag _ s (hnumber trunk server serviceNumber account s hleg hof)
  | byTrunk trunk order =>
      rw [hleg] at hpath
      obtain ⟨account, s, -, hof, hexec⟩ := hpath
      rw [hexec]
      exact hflag _ s (htrunk trunk order account s hleg hof)

/-- The number service of a leg by number and its account are those of the tables. -/
theorem of_legPath_byNumber {trunk : Trunk} {server : Server} {serviceNumber : ServiceNumber}
    {account : Client} (h : legPath env s₀ = .byNumber trunk server serviceNumber account) :
    (∃ number, env.repository.getServiceNumber number = some serviceNumber) ∧
      env.repository.data.client serviceNumber.clientAccountId = some account := by
  have hfound : ∃ trunk' number, numberAccount env trunk' number =
      some (serviceNumber, account) := by
    unfold legPath at h
    split at h
    case h_1 => exact absurd h (by simp)
    case h_2 trunk' server' settings _ =>
      split at h
      case isTrue =>
        split at h
        case h_1 => exact absurd h (by simp)
        case h_2 hnumber =>
          obtain ⟨rfl, rfl, rfl, rfl⟩ := LegPath.byNumber.inj h
          exact ⟨_, _, hnumber⟩
      case isFalse =>
        split at h
        case h_1 => exact absurd h (by simp)
        case h_2 => exact absurd h (by simp)
  obtain ⟨trunk', number, hfound⟩ := hfound
  unfold numberAccount at hfound
  obtain ⟨serviceNumber', hservice, hrest⟩ := Option.bind_eq_some_iff.mp hfound
  split at hrest
  case isTrue =>
    obtain ⟨account', haccount, hpair⟩ := Option.bind_eq_some_iff.mp hrest
    obtain ⟨rfl, rfl⟩ := Prod.mk.inj (Option.some.inj hpair)
    exact ⟨⟨number, hservice⟩, haccount⟩
  case isFalse => exact absurd hrest (by simp)

/-- The VAT flag comes last and cannot fail. -/
theorem exec_setVatFlag_error {x : Pricing Unit} {s s' : PricingState} {e : CalcStop} :
    exec (x >>= fun _ => setVatFlag env) s = (.error e, s') ↔ exec x s = (.error e, s') := by
  rw [exec_bind]
  match exec x s with
  | (.ok _, s₁) =>
      constructor
      · exact fun h => absurd (congrArg Prod.fst h) (by simp [setVatFlag])
      · exact fun h => absurd (congrArg Prod.fst h) (by simp)
  | (.error _, _) => exact Iff.rfl

theorem exec_setVatFlag_ok {x : Pricing Unit} {s s' : PricingState} :
    exec (x >>= fun _ => setVatFlag env) s = (.ok (), s') ↔
      ∃ s₁, exec x s = (.ok (), s₁) ∧ s' = { s₁ with callInfo := withVatFlag env s₁.callInfo } := by
  rw [exec_bind]
  match exec x s with
  | (.ok _, s₁) =>
      constructor
      · exact fun h => ⟨s₁, rfl, (Prod.mk.inj h).2.symm⟩
      · rintro ⟨_, h, rfl⟩
        rw [(Prod.mk.inj h).2]
        rfl
  | (.error _, _) =>
      constructor
      · exact fun h => absurd (congrArg Prod.fst h) (by simp)
      · exact fun ⟨_, h, _⟩ => absurd (congrArg Prod.fst h) (by simp)

end Path

end BillingCall

theorem PricingSys.start_unpriced (sys : PricingSys) (leg : Leg) :
    BillingCall.Unpriced (sys.start leg) := ⟨rfl, rfl⟩

end VoipBill
