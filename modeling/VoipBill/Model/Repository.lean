import VoipBill.Lib.IntMap
import VoipBill.Model.UsageManagers

/-!
# The loaded tables

`DataContainer` holds the tables pricing reads.  A table that is only searched
by its key is given by that search; it may come back empty for any key.  The
tables whose rows pricing selects itself are lists in the order they are loaded
in: connected packages, package minutes and connected version 5 tariffs.

`Repository` is the container as of one time: `currentTime` is the connect time
of the call that is priced.
-/

namespace VoipBill

/-- `begin()` of a `std::set` after inserting the elements of a list: the least
one, and of equivalent ones the first. -/
def setBegin {α : Type} (lt : α → α → Bool) : List α → Option α
  | [] => none
  | a :: inserted =>
      some (inserted.foldl (fun least b => if lt b least then b else least) a)

theorem foldl_least_mem {α : Type} (lt : α → α → Bool) (inserted : List α) (a : α) :
    inserted.foldl (fun least b => if lt b least then b else least) a ∈ a :: inserted := by
  induction inserted generalizing a with
  | nil => simp
  | cons b inserted ih =>
      rw [List.foldl_cons]
      have hmem := ih (if lt b a then b else a)
      split at hmem
      case isTrue hlt =>
        rw [if_pos hlt]
        exact List.mem_cons_of_mem a hmem
      case isFalse hlt =>
        rw [if_neg hlt]
        exact List.cons_subset_cons a (List.subset_cons_self b inserted) hmem

theorem mem_of_setBegin {α : Type} {lt : α → α → Bool} {inserted : List α} {a : α}
    (h : setBegin lt inserted = some a) : a ∈ inserted := by
  match inserted with
  | [] => exact absurd h (by simp [setBegin])
  | b :: inserted =>
      rw [setBegin, Option.some.injEq] at h
      exact h ▸ foldl_least_mem lt inserted b

/-- `operator<` of `std::pair`. -/
def pairLess {α β : Type} [LT α] [LT β] [DecidableLT α] [DecidableLT β] (left right : α × β) :
    Bool :=
  decide (left.1 < right.1) || !decide (right.1 < left.1) && decide (left.2 < right.2)

/-- Package minutes; the table is keyed by `id` and loaded in that order. -/
structure NNPPackageMinuteList where
  data : List NNPPackageMinute := []
  nodup_id : (data.map (·.id)).Nodup := by decide

namespace NNPPackageMinuteList

/-- The table without rows. -/
def empty : NNPPackageMinuteList := {}

def find (list : NNPPackageMinuteList) (id : Int) : Option NNPPackageMinute :=
  list.data.find? fun nnpPackageMinute => nnpPackageMinute.id == id

/-- The package minutes of a tariff, multiplied by the coefficient of the
connection. -/
def findAllByTariffID (list : NNPPackageMinuteList) (nnpTariffId : Int) (coefficient : ℚ) :
    List NNPPackageMinute :=
  (list.data.filter fun nnpPackageMinute => nnpPackageMinute.nnpTariffId == nnpTariffId).map
    fun nnpPackageMinute =>
      { nnpPackageMinute with minute := nnpPackageMinute.minute * coefficient }

/-- The table is keyed: a row is found under its id. -/
theorem find_eq_some {list : NNPPackageMinuteList} {nnpPackageMinute : NNPPackageMinute}
    (h : nnpPackageMinute ∈ list.data) :
    list.find nnpPackageMinute.id = some nnpPackageMinute := by
  obtain ⟨row, hrow⟩ : ∃ row, list.find nnpPackageMinute.id = some row := by
    rw [← Option.isSome_iff_exists, find, List.find?_isSome]
    exact ⟨nnpPackageMinute, h, by simp⟩
  have hmem : row ∈ list.data := List.mem_of_find?_eq_some hrow
  have hid : row.id = nnpPackageMinute.id := by simpa using List.find?_some hrow
  rw [hrow, List.inj_on_of_nodup_map list.nodup_id hmem h hid]

theorem mem_findAllByTariffID {list : NNPPackageMinuteList} {nnpTariffId : Int}
    {coefficient : ℚ} {nnpPackageMinute : NNPPackageMinute}
    (h : nnpPackageMinute ∈ list.findAllByTariffID nnpTariffId coefficient) :
    ∃ row ∈ list.data, row.nnpTariffId = nnpTariffId ∧
      nnpPackageMinute = { row with minute := row.minute * coefficient } := by
  obtain ⟨row, hrow, heq⟩ := List.mem_map.mp h
  obtain ⟨hmem, htariff⟩ := List.mem_filter.mp hrow
  exact ⟨row, hmem, by simpa using htariff, heq.symm⟩

end NNPPackageMinuteList

/-- Connected version 5 tariffs; the table is keyed by `id` and loaded in that
order. -/
structure NNPAccountTariffLightList where
  data : List NNPAccountTariffLight := []
  nodup_id : (data.map (·.id)).Nodup := by decide

namespace NNPAccountTariffLightList

/-- The table without rows. -/
def empty : NNPAccountTariffLightList := {}

/-- A tariff is active at the connect time for an account and a service. -/
def isActive (clientId connectTime serviceNumberId : Int) (light : NNPAccountTariffLight) :
    Bool :=
  light.accountClientId == clientId &&
    (light.serviceNumberId == serviceNumberId || light.serviceTrunkId == serviceNumberId) &&
    decide (light.activateFrom ≤ connectTime) && decide (connectTime ≤ light.deactivateFrom)

def findAllActiveByClientID (list : NNPAccountTariffLightList)
    (clientId connectTime serviceNumberId : Int) : List NNPAccountTariffLight :=
  list.data.filter (isActive clientId connectTime serviceNumberId)

theorem mem_findAllActiveByClientID {list : NNPAccountTariffLightList}
    {clientId connectTime serviceNumberId : Int} {light : NNPAccountTariffLight}
    (h : light ∈ list.findAllActiveByClientID clientId connectTime serviceNumberId) :
    light ∈ list.data ∧ light.activateFrom ≤ connectTime ∧
      connectTime ≤ light.deactivateFrom := by
  obtain ⟨hmem, hactive⟩ := List.mem_filter.mp h
  simp only [isActive, Bool.and_eq_true, decide_eq_true_eq] at hactive
  exact ⟨hmem, hactive.1.2, hactive.2⟩

end NNPAccountTariffLightList

/-- The loaded tables. -/
structure DataContainer where
  /-- By name or alias, among the trunks of a server and of its sibling regions. -/
  trunkByName : List Char → Int → Option Trunk := fun _ _ => none
  trunk : Int → Option Trunk := fun _ => none
  server : Int → Option Server := fun _ => none
  /-- The regions on the hub of a server. -/
  simblingRegion : Int → List Int := fun _ => []
  isRegionOnHub : Int → Bool := fun _ => false
  instanceSettings : Int → Option InstanceSettings := fun _ => none
  /-- The rules of a trunk of order 1, 2, … up to the first order without one. -/
  trunkNumberPreprocessing : Int → List TrunkNumberPreprocessing := fun _ => []
  client : Int → Option Client := fun _ => none
  /-- By number and time. -/
  serviceNumber : Int → Int → Option ServiceNumber := fun _ _ => none
  serviceNumberByTechNumber : Int → Int → Option ServiceNumber := fun _ _ => none
  /-- By trunk and time. -/
  serviceTrunk : Int → Int → Option ServiceTrunk := fun _ _ => none
  serviceTrunks : Int → Int → List ServiceTrunk := fun _ _ => []
  /-- By account, whatever their time. -/
  serviceTrunkByClientId : Int → List ServiceTrunk := fun _ => []
  /-- By trunk service and type. -/
  serviceTrunkSettings : Int → Int → List ServiceTrunkSettings := fun _ _ => []
  /-- Packages of numbers and trunks, by activation time and id. -/
  servicePackage : List ServicePackage := []
  tariffPackage : Int → Option TariffPackage := fun _ => none
  /-- By service and time. -/
  tariffChangeLog : Int → Int → Option TariffChangeLog := fun _ _ => none
  tariff : Int → Option Tariff := fun _ => none
  pricelist : Int → Option Pricelist := fun _ => none
  /-- By price list, number and time. -/
  pricelistPrice : Int → Int → Int → Option PricelistPrice := fun _ _ _ => none
  /-- The type of a network, by configuration, number and time. -/
  networkPrefix : Int → Int → Int → Option Int := fun _ _ _ => none
  /-- The prefix lists of a number list match a number. -/
  matchNumber : Int → Int → Bool := fun _ _ => false
  statDestinationPrefixlists : Int → List Int := fun _ => []
  statPrefixlist : Int → Option StatPrefixlist := fun _ => none
  mobPrefix : Int → Option MobPrefix := fun _ => none
  geoPrefix : Int → Option GeoPrefix := fun _ => none
  geo : Int → Option Geo := fun _ => none
  currencyRate : List Char → Option ℚ := fun _ => none
  /-- The row of the number range table a number falls into. -/
  nnpNumberRange : Int → Option Int := fun _ => none
  /-- Prefix and code of the country of a number. -/
  nnpCountryPrefix : Int → Int × Int := fun _ => (0, 0)
  nnpCountryCode : Int → Int := fun _ => 0
  nnpNumberRangePrefix : Int → List Int := fun _ => []
  nnpPrefixDestination : Int → List NNPPrefixDestination := fun _ => []
  nnpPackage : Int → Option NNPPackage := fun _ => none
  nnpPackagePrice : List NNPPackagePrice := []
  nnpPackagePricelist : List NNPPackagePricelist := []
  nnpPackageMinute : NNPPackageMinuteList := .empty
  nnpAccountTariffLight : NNPAccountTariffLightList := .empty
  /-- Seconds used in other regions, by connected tariff and package minute. -/
  globalNNPPackageMinuteCounters : Option (Int → Int → Int) := none

structure Repository where
  data : DataContainer
  currentTime : Int

namespace Repository

/-- A call without a connect time is priced as of now. -/
def prepare (data : DataContainer) (connectTime now : Int) : Repository where
  data := data
  currentTime := if connectTime = 0 then now else connectTime

variable (r : Repository)

def getTrunkByName (trunkName : List Char) (orgServerId : Int) : Option Trunk :=
  if trunkName = [] then none else r.data.trunkByName trunkName orgServerId

def getServiceNumber (number : Int) : Option ServiceNumber :=
  r.data.serviceNumber number r.currentTime

def getServiceNumberByTechnicalNumber (technicalNumber : Int) : Option ServiceNumber :=
  r.data.serviceNumberByTechNumber technicalNumber r.currentTime

def getServiceTrunk (trunkId : Int) : Option ServiceTrunk :=
  r.data.serviceTrunk trunkId r.currentTime

def getAllServiceTrunk (trunkId : Int) : List ServiceTrunk :=
  r.data.serviceTrunks trunkId r.currentTime

def getPrice (pricelistId number : Int) : Option PricelistPrice :=
  r.data.pricelistPrice pricelistId number r.currentTime

def getTariffLog (usageId : Int) : Option TariffChangeLog :=
  r.data.tariffChangeLog usageId r.currentTime

/-! ## Connected packages -/

def isInForce (servicePackage : ServicePackage) : Bool :=
  decide (servicePackage.activationDt ≤ r.currentTime) &&
    decide (r.currentTime < servicePackage.expireDt)

def getAllServiceNumberPackage (serviceNumberId : Int) : List ServicePackage :=
  r.data.servicePackage.filter fun servicePackage =>
    decide (0 < servicePackage.serviceNumberId) &&
      servicePackage.serviceNumberId == serviceNumberId && r.isInForce servicePackage

def getAllServiceTrunkPackage (serviceTrunkId : Int) : List ServicePackage :=
  r.data.servicePackage.filter fun servicePackage =>
    decide (0 < servicePackage.serviceTrunkId) &&
      servicePackage.serviceTrunkId == serviceTrunkId && r.isInForce servicePackage

theorem pos_of_mem_getAllServiceNumberPackage {r : Repository} {id : Int}
    {servicePackage : ServicePackage} (h : servicePackage ∈ r.getAllServiceNumberPackage id) :
    0 < id := by
  have hfilter := (List.mem_filter.mp h).2
  simp only [Bool.and_eq_true, decide_eq_true_eq, beq_iff_eq] at hfilter
  rw [← hfilter.1.2]
  exact hfilter.1.1

theorem isInForce_of_mem_getAllServiceNumberPackage {r : Repository} {id : Int}
    {servicePackage : ServicePackage} (h : servicePackage ∈ r.getAllServiceNumberPackage id) :
    r.isInForce servicePackage = true := by
  have hfilter := (List.mem_filter.mp h).2
  simp only [Bool.and_eq_true] at hfilter
  exact hfilter.2

theorem mem_servicePackage_of_number {r : Repository} {id : Int}
    {servicePackage : ServicePackage} (h : servicePackage ∈ r.getAllServiceNumberPackage id) :
    servicePackage ∈ r.data.servicePackage :=
  (List.mem_filter.mp h).1

/-! ## Destinations of a number -/

/-- Destinations that some prefix of the range is added to and none is taken
out of. -/
def getNNPDestinationsByPrefix (nnpPrefixIds : List Int) : List Int :=
  let links := nnpPrefixIds.flatMap r.data.nnpPrefixDestination
  let idsIns := (links.filter (·.isAddition)).map (·.nnpDestinationId)
  let idsDel := (links.filter (!·.isAddition)).map (·.nnpDestinationId)
  idsIns.filter fun id => !idsDel.contains id

def getNNPDestinationByNumberRange (nnpNumberRange : Option NNPNumberRange) : List Int :=
  match nnpNumberRange with
  | none => []
  | some range =>
      if range.id < 1 then []
      else r.getNNPDestinationsByPrefix (r.data.nnpNumberRangePrefix range.id)

/-! ## Prices of version 5 tariffs

A `set<pair<double, T *>>` is ordered by the price and then by the place of the
row in its table. -/

/-- Prices of a tariff for the destinations, with their places in the table. -/
def findNNPPackagePriceIds (tariffId : Int) (nnpDestinationIds : List Int) :
    List (ℚ × Nat × NNPPackagePrice) :=
  (r.data.nnpPackagePrice.zipIdx.filter fun package =>
    package.1.nnpTariffId == tariffId &&
      nnpDestinationIds.contains package.1.nnpDestinationId).map
    fun package => (package.1.price, package.2, package.1)

def findNNPPackagePricelistIds (tariffId num : Int) :
    List (ℚ × Nat × NNPPackagePricelist) :=
  (r.data.nnpPackagePricelist.zipIdx.filter fun package =>
    package.1.nnpTariffId == tariffId).filterMap
    fun package => (r.getPrice package.1.pricelistId num).map fun pricelistPrice =>
      (pricelistPrice.price, package.2, package.1)

/-- The first element of such a set. -/
def cheapest {τ : Type} (found : List (ℚ × Nat × τ)) : Option (ℚ × τ) :=
  (setBegin (fun left right => pairLess (left.1, left.2.1) (right.1, right.2.1)) found).map
    fun package => (package.1, package.2.2)

/-! ## The settings of a trunk -/

/-- The price list and the price of a setting of a version 4 account. -/
def checkTrunkSettingsOldPricelistConditions (trunkSettings : ServiceTrunkSettings)
    (srcNumber dstNumber : Int) : Option (Pricelist × PricelistPrice) :=
  if 0 < trunkSettings.srcNumberId ∧
      !r.data.matchNumber trunkSettings.srcNumberId srcNumber then
    none
  else if 0 < trunkSettings.dstNumberId ∧
      !r.data.matchNumber trunkSettings.dstNumberId dstNumber then
    none
  else do
    let pricelist ← r.data.pricelist trunkSettings.pricelistId
    if pricelist.isLocal then
      let networkTypeId ←
        r.data.networkPrefix pricelist.localNetworkConfigId dstNumber r.currentTime
      let price ← r.getPrice trunkSettings.pricelistId networkTypeId
      return (pricelist, price)
    else
      let price ← r.getPrice trunkSettings.pricelistId dstNumber
      return (pricelist, price)

def checkNNPTrunkSettingsConditions (trunkSettings : ServiceTrunkSettings)
    (srcNumber dstNumber : Int) : Bool :=
  trunkSettings.nnpTariffId != 0 &&
    !(decide (0 < trunkSettings.srcNumberId) &&
      !r.data.matchNumber trunkSettings.srcNumberId srcNumber) &&
    !(decide (0 < trunkSettings.dstNumberId) &&
      !r.data.matchNumber trunkSettings.dstNumberId dstNumber)

/-- The order of a setting of a version 5 account: its cheapest price, a package
price before a price list of the same price. -/
def nnpTrunkOrder (order : ServiceTrunkOrder) (trunkSettings : ServiceTrunkSettings)
    (nnpDestinationIds : List Int) (dstNumber : Int) : Option ServiceTrunkOrder :=
  let nnpPackage := r.data.nnpPackage trunkSettings.nnpTariffId
  match cheapest (r.findNNPPackagePriceIds trunkSettings.nnpTariffId nnpDestinationIds),
      cheapest (r.findNNPPackagePricelistIds trunkSettings.nnpTariffId dstNumber) with
  | none, none => none
  | some price, none =>
      some { order with
        nnpPackage := nnpPackage, nnpPackagePrice := some price.2, nnpPrice := price.1 }
  | none, some pricelist =>
      some { order with
        nnpPackage := nnpPackage
        nnpPackagePricelist := some pricelist.2
        nnpPrice := pricelist.1 }
  | some price, some pricelist =>
      if price.1 ≤ pricelist.1 then
        some { order with
          nnpPackage := nnpPackage, nnpPackagePrice := some price.2, nnpPrice := price.1 }
      else
        some { order with
          nnpPackage := nnpPackage
          nnpPackagePricelist := some pricelist.2
          nnpPrice := pricelist.1 }

/-- The order of one setting, if its conditions hold. -/
def trunkSettingsOrder (serviceTrunk : ServiceTrunk) (trunkSettings : ServiceTrunkSettings)
    (nnpDestinationIds : List Int) (srcNumber dstNumber : Int) : Option ServiceTrunkOrder :=
  match r.data.client serviceTrunk.clientAccountId with
  | none => none
  | some account =>
      let order : ServiceTrunkOrder :=
        { account := some account
          serviceTrunk := some serviceTrunk
          trunkSettings := some trunkSettings }
      if account.accountVersion = 4 then
        (r.checkTrunkSettingsOldPricelistConditions trunkSettings srcNumber dstNumber).map
          fun found => { order with pricelist := some found.1, price := some found.2 }
      else if account.accountVersion = 5 then
        if r.checkNNPTrunkSettingsConditions trunkSettings srcNumber dstNumber then
          r.nnpTrunkOrder order trunkSettings nnpDestinationIds dstNumber
        else
          none
      else
        none

def getTrunkSettingsOrderList (trunk : Trunk) (nnpDestinationIds : List Int)
    (srcNumber dstNumber destinationType : Int) : List ServiceTrunkOrder :=
  (r.getAllServiceTrunk trunk.id).flatMap fun serviceTrunk =>
    (r.data.serviceTrunkSettings serviceTrunk.id destinationType).filterMap
      fun trunkSettings =>
        (r.trunkSettingsOrder serviceTrunk trunkSettings nnpDestinationIds srcNumber
          dstNumber).map fun order => { order with trunk := some trunk }

theorem nnpTrunkOrder_serviceTrunk {r : Repository} {order order' : ServiceTrunkOrder}
    {trunkSettings : ServiceTrunkSettings} {nnpDestinationIds : List Int} {dstNumber : Int}
    (h : r.nnpTrunkOrder order trunkSettings nnpDestinationIds dstNumber = some order') :
    order'.serviceTrunk = order.serviceTrunk := by
  unfold nnpTrunkOrder at h
  split at h
  · exact absurd h (by simp)
  · rw [← Option.some.inj h]
  · rw [← Option.some.inj h]
  · split at h
    · rw [← Option.some.inj h]
    · rw [← Option.some.inj h]

theorem trunkSettingsOrder_serviceTrunk {r : Repository} {serviceTrunk : ServiceTrunk}
    {trunkSettings : ServiceTrunkSettings} {nnpDestinationIds : List Int}
    {srcNumber dstNumber : Int} {order : ServiceTrunkOrder}
    (h : r.trunkSettingsOrder serviceTrunk trunkSettings nnpDestinationIds srcNumber dstNumber =
      some order) :
    order.serviceTrunk = some serviceTrunk := by
  unfold trunkSettingsOrder at h
  split at h
  case h_1 => exact absurd h (by simp)
  case h_2 account haccount =>
    split at h
    case isTrue =>
      obtain ⟨found, -, rfl⟩ := Option.map_eq_some_iff.mp h
      rfl
    case isFalse =>
      split at h
      case isTrue =>
        split at h
        · rw [nnpTrunkOrder_serviceTrunk h]
        · exact absurd h (by simp)
      case isFalse => exact absurd h (by simp)

/-- Every order is about a service of the trunk. -/
theorem serviceTrunk_of_mem_getTrunkSettingsOrderList {r : Repository} {trunk : Trunk}
    {nnpDestinationIds : List Int} {srcNumber dstNumber destinationType : Int}
    {order : ServiceTrunkOrder}
    (h : order ∈ r.getTrunkSettingsOrderList trunk nnpDestinationIds srcNumber dstNumber
      destinationType) :
    ∃ serviceTrunk ∈ r.getAllServiceTrunk trunk.id, order.serviceTrunk = some serviceTrunk := by
  obtain ⟨serviceTrunk, hmem, horder⟩ := List.mem_flatMap.mp h
  obtain ⟨trunkSettings, -, hmap⟩ := List.mem_filterMap.mp horder
  obtain ⟨unplaced, hsome, rfl⟩ := Option.map_eq_some_iff.mp hmap
  have hservice := trunkSettingsOrder_serviceTrunk hsome
  exact ⟨serviceTrunk, hmem, hservice⟩

/-! ## Ordering by price -/

/-- The price an order is compared by, with its currency. -/
def orderPrice (order : ServiceTrunkOrder) : Option (ℚ × List Char) :=
  match order.account with
  | none => none
  | some account =>
      if account.accountVersion = 5 then
        order.nnpPackage.map fun nnpPackage => (order.nnpPrice, nnpPackage.currencyId)
      else if account.accountVersion = 4 then
        match order.price, order.pricelist with
        | some price, some pricelist => some (price.price, pricelist.currencyId)
        | _, _ => none
      else
        none

/-- The rate of a currency; an unknown or vanishing rate counts as 1. -/
def rateOf (currency : List Char) : ℚ :=
  match r.data.currencyRate currency with
  | some rate => if 0.00000001 < rate then rate else 1
  | none => 1

/-- `Price::operator<`: a present price is less than a missing one. -/
def trunkOrderLessThan (left right : ServiceTrunkOrder) : Bool :=
  match orderPrice left, orderPrice right with
  | some _, none => true
  | none, _ => false
  | some leftPrice, some rightPrice =>
      if leftPrice.2 = rightPrice.2 then decide (leftPrice.1 < rightPrice.1)
      else decide (leftPrice.1 * r.rateOf leftPrice.2 < rightPrice.1 * r.rateOf rightPrice.2)

def sortByPrice (orders : List ServiceTrunkOrder) : List ServiceTrunkOrder :=
  orders.mergeSort fun left right => !r.trunkOrderLessThan right left

def orderOrigTrunkSettingsOrderList (orders : List ServiceTrunkOrder) :
    List ServiceTrunkOrder :=
  r.sortByPrice orders

theorem mem_orderOrigTrunkSettingsOrderList {r : Repository} {orders : List ServiceTrunkOrder}
    {order : ServiceTrunkOrder} (h : order ∈ r.orderOrigTrunkSettingsOrderList orders) :
    order ∈ orders :=
  List.mem_mergeSort.mp h

end Repository
end VoipBill
