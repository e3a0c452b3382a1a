import Mathlib.Tactic

/-!
# Records of the billing daemon

The structs of `models/` that the billing core reads and writes.  An `int`, a
`long long` and a `time_t` (seconds since 1970) are integers, a `double` is a
rational number, a C string is the list of its characters before the
terminator, and a pointer that may be null is an `Option`.

Every field has the default its struct's constructor gives it (or zero, the
value `std::map::operator[]` gives a fresh entry), so that a record is written
by naming the fields that differ.
-/

namespace VoipBill

/-- The settings of `app().conf` that pricing reads. -/
structure Conf where
  instanceId : Int := 0
  billingFreeSeconds : Int := 0
deriving DecidableEq, Inhabited, Repr

/-- A call detail record as the switch delivers it. -/
structure Cdr where
  id : Int := 0
  connectTime : Int := 0
  setupTime : Int := 0
  sessionTime : Int := 0
  srcNumber : List Char := []
  dstNumber : List Char := []
  dstReplace : List Char := []
  redirectNumber : List Char := []
  srcRoute : List Char := []
  dstRoute : List Char := []
  srcNoa : Int := 0
  dstNoa : Int := 0
  callId : Int := 0
  disconnectCause : Int := 0
  inSigCallId : List Char := []
  outSigCallId : List Char := []
  hash : List Char := []
deriving DecidableEq, Inhabited, Repr

/-- One leg of a call; the row that is written to `calls_raw`. -/
structure Call where
  id : Int := 0
  peerId : Int := 0
  cdrId : Int := 0
  connectTime : Int := 0
  orig : Bool := false
  our : Bool := false
  trunkId : Int := 0
  accountId : Int := 0
  trunkServiceId : Int := 0
  numberServiceId : Int := 0
  srcNumber : Int := 0
  dstNumber : Int := 0
  billedTime : Int := 0
  rate : ℚ := 0
  cost : ℚ := 0
  priceIncludesVat : Bool := false
  taxCost : ℚ := 0
  interconnectRate : ℚ := 0
  interconnectCost : ℚ := 0
  servicePackageId : Int := 0
  servicePackageStatsId : Int := 0
  packageTime : Int := 0
  packageCredit : ℚ := 0
  trunkSettingsStatsId : Int := 0
  pricelistId : Int := 0
  pricePrefix : Int := 0
  destinationId : Int := 2
  mob : Bool := false
  geoId : Int := 0
  geoMob : Bool := false
  geoOperatorId : Int := 0
  cdrCallId : Int := 0
  disconnectCause : Int := 0
  isServiceNumber : Bool := false
  accountVersion : Int := 4
  statsNnpPackageMinuteId : Int := 0
  nnpOperatorId : Int := 0
  nnpRegionId : Int := 0
  nnpCityId : Int := 0
  nnpCountryPrefix : Int := 0
  nnpCountryCode : Int := 0
  nnpNdc : Int := 0
  nnpIsMob : Bool := false
  nnpPackageMinuteId : Int := 0
  nnpPackagePriceId : Int := 0
  nnpPackagePricelistId : Int := 0
  nnpPackageId : Int := 0
  nnpNumberRangeId : Int := 0
  serverId : Int := 0
  signallingCallId : List Char := []
  hash : List Char := []
  pdd : Int := 0
deriving DecidableEq, Inhabited, Repr

namespace Call

def isLocal (call : Call) : Bool := call.destinationId < 0

def isZonaMob (call : Call) : Bool := call.destinationId == 0 && call.mob

def isZonaStd (call : Call) : Bool := call.destinationId == 0 && !call.mob

def isRussianMob (call : Call) : Bool := call.destinationId == 1 && call.mob

def isRussianStd (call : Call) : Bool := call.destinationId == 1 && !call.mob

def isInternational (call : Call) : Bool := call.destinationId == 2

end Call

/-- A client account with its limits. -/
structure Client where
  id : Int := 0
  limitD : Int := 0
  limitDMn : Int := 0
  credit : Int := 0
  balance : ℚ := 0
  disabled : Bool := false
  amountDate : Int := 0
  organizationId : Int := 0
  priceIncludeVat : Bool := false
  timezoneOffset : Int := 0
  isBlocked : Bool := false
  antiFraudDisabled : Bool := false
  isTrunkClient : Bool := false
  isNumClient : Bool := false
  accountVersion : Int := 0
  effectiveVatRate : Int := 0
deriving DecidableEq, Inhabited, Repr

namespace Client

def hasCreditLimit (client : Client) : Bool := 0 ≤ client.credit

def hasDailyLimit (client : Client) : Bool := 0 < client.limitD && !client.isTrunkClient

def hasDailyMNLimit (client : Client) : Bool := 0 < client.limitDMn && !client.isTrunkClient

def isConsumedCreditLimit (client : Client) (value : ℚ) : Bool :=
  client.hasCreditLimit && decide (client.balance + client.credit + value < 0.00001)

def isConsumedDailyLimit (client : Client) (value : ℚ) : Bool :=
  !client.isTrunkClient &&
    (client.hasDailyLimit && decide (client.limitD + value < 0.00001) ||
      decide (client.limitD ≤ 0))

def isConsumedDailyMNLimit (client : Client) (value : ℚ) : Bool :=
  !client.isTrunkClient &&
    (client.hasDailyMNLimit && decide (client.limitDMn + value < 0.00001) ||
      decide (client.limitDMn ≤ 0))

end Client

/-- A prepaid package connected to a number or to a trunk. -/
structure ServicePackage where
  id : Int := 0
  serviceNumberId : Int := 0
  serviceTrunkId : Int := 0
  activationDt : Int := 0
  expireDt : Int := 0
  tariffPackageId : Int := 0
  periodical : Bool := false
deriving DecidableEq, Inhabited, Repr

structure TariffPackage where
  id : Int := 0
  destinationId : Int := 0
  prepaidMinutes : Int := 0
  pricelistId : Int := 0
deriving DecidableEq, Inhabited, Repr

def TariffPackage.getPrepaidSeconds (tariff : TariffPackage) : Int :=
  tariff.prepaidMinutes * 60

/-- Conditions a trunk service is settled under. -/
structure ServiceTrunkSettings where
  id : Int := 0
  trunkId : Int := 0
  type : Int := 0
  order : Int := 0
  srcNumberId : Int := 0
  dstNumberId : Int := 0
  pricelistId : Int := 0
  minimumMinutes : Int := 0
  minimumCost : Int := 0
  nnpTariffId : Int := 0
  minimumMarginType : Int := 0
  minimumMargin : ℚ := 0
deriving DecidableEq, Inhabited, Repr

/-- A package of minutes of a version 5 tariff for one destination. -/
structure NNPPackageMinute where
  id : Int := 0
  nnpTariffId : Int := 0
  nnpDestinationId : Int := 0
  minute : ℚ := 0
deriving DecidableEq, Inhabited, Repr

/-- A tariff connected to a number or trunk of an account for some time. -/
structure NNPAccountTariffLight where
  id : Int := 0
  serviceNumberId : Int := 0
  serviceTrunkId : Int := 0
  accountClientId : Int := 0
  nnpTariffId : Int := 0
  coefficient : ℚ := 0
  activateFrom : Int := 0
  deactivateFrom : Int := 0
  serviceTypeId : Int := 0
  price : ℚ := 0
deriving DecidableEq, Inhabited, Repr

/-! ## Counter rows -/

/-- Money spent by an account: since the last invoice, this day, this month. -/
structure StatsAccount where
  accountId : Int := 0
  sum : ℚ := 0
  sumDay : ℚ := 0
  sumMnDay : ℚ := 0
  sumMonth : ℚ := 0
  amountDay : Int := 0
  amountMonth : Int := 0
  amountDate : Int := 0
deriving DecidableEq, Inhabited, Repr

/-- Free minutes a number has used in one month. -/
structure StatsFreemin where
  id : Int := 0
  serviceNumberId : Int := 0
  monthDt : Int := 0
  usedSeconds : Int := 0
  usedCredit : ℚ := 0
  minCallId : Int := 0
  maxCallId : Int := 0
deriving DecidableEq, Inhabited, Repr

/-- Prepaid seconds of a package used in one validity window. -/
structure StatsPackage where
  id : Int := 0
  packageId : Int := 0
  activationDt : Int := 0
  expireDt : Int := 0
  usedSeconds : Int := 0
  usedCredit : ℚ := 0
  paidSeconds : Int := 0
  minCallId : Int := 0
  maxCallId : Int := 0
deriving DecidableEq, Inhabited, Repr

/-- Traffic of one trunk setting in one month. -/
structure StatsTrunkSettings where
  id : Int := 0
  trunkSettingsId : Int := 0
  activationDt : Int := 0
  expireDt : Int := 0
  usedSeconds : Int := 0
  usedCredit : ℚ := 0
  minCallId : Int := 0
  maxCallId : Int := 0
deriving DecidableEq, Inhabited, Repr

/-- Package minutes used by one connected version 5 tariff. -/
structure StatsNNPPackageMinute where
  id : Int := 0
  nnpAccountTariffLightId : Int := 0
  nnpPackageMinuteId : Int := 0
  activateFrom : Int := 0
  deactivateFrom : Int := 0
  usedSeconds : Int := 0
  usedCredit : ℚ := 0
  paidSeconds : Int := 0
  minCallId : Int := 0
  maxCallId : Int := 0
deriving DecidableEq, Inhabited, Repr

/-! ## Reference data -/

structure Trunk where
  id : Int := 0
  serverId : Int := 0
  trunkName : List Char := []
  ourTrunk : Bool := false
  authByNumber : Bool := false
  origRedirectNumber7800 : Bool := false
  origRedirectNumber : Bool := false
  swMinimalki : Bool := false
  techTrunk : Bool := false
  pstnTrunk : Bool := false
  autoRouting : Bool := false
  swShared : Bool := false
  termRedirectNumber : Bool := false
  sourceTrunkRuleDefaultAllowed : Bool := false
  sourceRuleDefaultAllowed : Bool := false
  destinationRuleDefaultAllowed : Bool := false
  defaultPriority : Int := 0
  /-- Regions the trunk is a road to. -/
  roadToRegions : List Int := []
deriving DecidableEq, Inhabited, Repr

structure Server where
  id : Int := 0
  minPriceForAutorouting : Int := 0
  serviceNumbers : List (List Char) := []
deriving DecidableEq, Inhabited, Repr

/-- Settings of an instance; `regionIds` is what `getRegionIds` parses. -/
structure InstanceSettings where
  id : Int := 0
  regionIds : List Int := []
  countryId : Int := 0
  cityId : Int := 0
  autoLockFinance : Bool := false
deriving DecidableEq, Inhabited, Repr

structure ServiceNumber where
  id : Int := 0
  serverId : Int := 0
  clientAccountId : Int := 0
  did : List Char := []
  linesCount : Int := 0
deriving DecidableEq, Inhabited, Repr

structure ServiceTrunk where
  id : Int := 0
  serverId : Int := 0
  clientAccountId : Int := 0
  trunkId : Int := 0
  activationDt : Int := 0
  expireDt : Int := 0
  origEnabled : Bool := false
  termEnabled : Bool := false
deriving DecidableEq, Inhabited, Repr

structure Tariff where
  id : Int := 0
  freemin : Int := 0
  freeminForNumber : Bool := false
  pricelistId : Int := 0
  tarifficationByMinutes : Bool := false
  tarifficationFullFirstMinute : Bool := false
  tarifficationFreeFirstSeconds : Bool := false
deriving DecidableEq, Inhabited, Repr

structure TariffChangeLog where
  tariffIdLocal : Int := 0
  tariffIdLocalMob : Int := 0
  tariffIdRussia : Int := 0
  tariffIdRussiaMob : Int := 0
  tariffIdIntern : Int := 0
deriving DecidableEq, Inhabited, Repr

/-- A price list; `isLocal` is the source's flag `local`. -/
structure Pricelist where
  id : Int := 0
  tarifficationByMinutes : Bool := false
  tarifficationFullFirstMinute : Bool := false
  isLocal : Bool := false
  localNetworkConfigId : Int := 0
  initiateMgmnCost : ℚ := 0
  initiateZonaCost : ℚ := 0
  priceIncludeVat : Bool := false
  currencyId : List Char := []
deriving DecidableEq, Inhabited, Repr

structure PricelistPrice where
  pricePrefix : List Char := []
  price : ℚ := 0
deriving DecidableEq, Inhabited, Repr

structure Geo where
  id : Int := 0
  countryId : Int := 0
  regionId : Int := 0
  cityId : Int := 0
deriving DecidableEq, Inhabited, Repr

structure GeoPrefix where
  geoId : Int := 0
  geoOperatorId : Int := 0
deriving DecidableEq, Inhabited, Repr

structure MobPrefix where
  mob : Bool := false
deriving DecidableEq, Inhabited, Repr

/-- A rule that completes a number from a trunk with leading digits. -/
structure TrunkNumberPreprocessing where
  src : Bool := false
  noa : Int := 0
  length : Nat := 0
  numberPrefix : List Char := []
deriving DecidableEq, Inhabited, Repr

structure StatPrefixlist where
  id : Int := 0
  typeId : Int := 0
  prefixes : List Int := []
  subType : Int := 0
  countryId : Int := 0
  regionId : Int := 0
  cityId : Int := 0
  excludeOperators : Bool := false
  operators : List Int := []
deriving DecidableEq, Inhabited, Repr

structure NNPNumberRange where
  id : Int := 0
  ndc : Int := 0
  isMob : Bool := false
  nnpOperatorId : Int := 0
  nnpRegionId : Int := 0
  nnpCityId : Int := 0
  countryPrefix : Int := 0
  countryCode : Int := 0
deriving DecidableEq, Inhabited, Repr

structure NNPPackage where
  id : Int := 0
  tarificationFreeSeconds : Int := 0
  tarificationIntervalSeconds : Int := 0
  tarificationType : Int := 0
  tarificationMinPaidSeconds : Int := 0
  currencyId : List Char := []
  isIncludeVat : Bool := false
deriving DecidableEq, Inhabited, Repr

/-- A link of a number prefix to a destination: the prefix is added to it or
taken out of it. -/
structure NNPPrefixDestination where
  nnpDestinationId : Int := 0
  isAddition : Bool := true
deriving DecidableEq, Inhabited, Repr

structure NNPPackagePrice where
  id : Int := 0
  nnpTariffId : Int := 0
  nnpDestinationId : Int := 0
  price : ℚ := 0
  interconnectPrice : ℚ := 0
deriving DecidableEq, Inhabited, Repr

structure NNPPackagePricelist where
  id : Int := 0
  nnpTariffId : Int := 0
  pricelistId : Int := 0
deriving DecidableEq, Inhabited, Repr

/-- A candidate setting of a trunk with everything found for it. -/
structure ServiceTrunkOrder where
  trunk : Option Trunk := none
  account : Option Client := none
  serviceTrunk : Option ServiceTrunk := none
  trunkSettings : Option ServiceTrunkSettings := none
  pricelist : Option Pricelist := none
  price : Option PricelistPrice := none
  statsTrunkSettings : Option StatsTrunkSettings := none
  nnpPackage : Option NNPPackage := none
  nnpPackagePrice : Option NNPPackagePrice := none
  nnpPackagePricelist : Option NNPPackagePricelist := none
  nnpPrice : ℚ := 0
  priority : Int := 0
deriving DecidableEq, Inhabited, Repr

/-! ## What pricing collects about a leg -/

structure DT where
  day : Int := 0
  month : Int := 0
deriving DecidableEq, Inhabited, Repr

/-- A leg with the objects found while it was priced. -/
structure CallInfo where
  call : Call := {}
  server : Option Server := none
  instanceSettings : Option InstanceSettings := none
  trunk : Option Trunk := none
  account : Option Client := none
  serviceNumber : Option ServiceNumber := none
  serviceTrunk : Option ServiceTrunk := none
  servicePackagePrepaid : Option ServicePackage := none
  servicePackagePricelist : Option ServicePackage := none
  trunkSettings : Option ServiceTrunkSettings := none
  logTariff : Option TariffChangeLog := none
  mainTariff : Option Tariff := none
  tariff : Option Tariff := none
  tariffPackagePrepaid : Option TariffPackage := none
  pricelist : Option Pricelist := none
  price : Option PricelistPrice := none
  geo : Option Geo := none
  nnpNumberRange : Option NNPNumberRange := none
  nnpPackage : Option NNPPackage := none
  nnpPackagePrice : Option NNPPackagePrice := none
  nnpPackagePricelist : Option NNPPackagePricelist := none
  callIncomingFromMegatrunk : Bool := false
  dt : DT := {}
  dtUtc : DT := {}
deriving DecidableEq, Inhabited, Repr

end VoipBill
