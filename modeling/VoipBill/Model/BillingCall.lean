import VoipBill.Lib.Hoare
import VoipBill.Model.DataBillingContainer
import VoipBill.Model.Repository

/-!
# Pricing one leg of a call

`BillingCall::calc` works on the leg and on what it has found about it, and
looks up the counters of packages, free minutes and trunk settings on the way,
which may create counter rows.  A `CalcException` ends the pricing and is
caught: whatever was written to the leg before stays.  Using a null pointer
ends the process.

The setup steps stand in the order of the source file, the version 5 steps
after them; `calcLeg` at the end is `calc`, the whole.  Tracing is off.
-/

namespace VoipBill

open Lib Lib.Hoare

/-! ## C strings -/

/-- `sprintf(s, "%lld", n)`. -/
def sprintfLld (n : Int) : List Char :=
  if n < 0 then '-' :: Nat.toDigits 10 n.natAbs else Nat.toDigits 10 n.natAbs

/-- The number the leading digits of a string form. -/
def leadingDigits (s : List Char) : Int :=
  (s.takeWhile Char.isDigit).foldl (fun acc c => acc * 10 + (c.toNat - '0'.toNat : Int)) 0

/-- `atoll`: spaces, a sign, and digits up to the first other character. -/
def atoll (s : List Char) : Int :=
  match s.dropWhile Char.isWhitespace with
  | '-' :: digits => -leadingDigits digits
  | '+' :: digits => leadingDigits digits
  | digits => leadingDigits digits

/-- The rest of a string behind the first occurrence of `pattern`. -/
def afterStrstr (pattern : List Char) : List Char → Option (List Char)
  | [] => if pattern = [] then some [] else none
  | c :: s =>
      if pattern.isPrefixOf (c :: s) then some ((c :: s).drop pattern.length)
      else afterStrstr pattern s

/-! ## The pricing of a leg -/

inductive CalcStop where
  | calcException (message : String)
  | nullPointer
deriving DecidableEq, Repr

/-- What `StateMegaTrunk` answers about the call. -/
structure StateMegaTrunk where
  isForceOrgAuthByNumber : Bool := false
  isForceTermAuthByNumber : Bool := false
  isForceOrigTarifficationSkip : Bool := false
deriving DecidableEq, Inhabited, Repr

structure PricingEnv where
  conf : Conf := {}
  repository : Repository
  cdr : Cdr
  stateMegaTrunk : Option StateMegaTrunk := none
  origRegion : Int := 0
  now : Int := 0

/-- The leg with what is found about it, the counters, the counters of current
calls, and the rows of the number range table. -/
structure PricingState where
  callInfo : CallInfo
  billingData : DataBillingContainer
  currentNNPPackageMinute : StatsNNPPackageMinuteManager
  numberRanges : IntMap NNPNumberRange

abbrev Pricing (α : Type) : Type := Prog CalcStop PricingState α

namespace BillingCall

def getCallInfo : Pricing CallInfo := do return (← get).callInfo

def getCall : Pricing Call := do return (← get).callInfo.call

def modifyCallInfo (f : CallInfo → CallInfo) : Pricing Unit :=
  modify fun s => { s with callInfo := f s.callInfo }

def modifyCall (f : Call → Call) : Pricing Unit :=
  modifyCallInfo fun callInfo => { callInfo with call := f callInfo.call }

/-- `if (p != nullptr) …`. -/
def whenSome {α : Type} (o : Option α) (x : α → Pricing Unit) : Pricing Unit :=
  match o with
  | some a => x a
  | none => pure ()

/-- `if (condition) …`. -/
def onlyIf (condition : Bool) (x : Pricing Unit) : Pricing Unit :=
  if condition then x else pure ()

/-- Use a pointer. -/
def deref {α : Type} : Option α → Pricing α
  | some a => pure a
  | none => throw .nullPointer

/-- Use a pointer that was checked: a missing object is a `CalcException`. -/
def orThrow {α : Type} (message : String) : Option α → Pricing α
  | some a => pure a
  | none => throw (.calcException message)

variable (env : PricingEnv)

def getNumber (call : Call) : Int := if call.orig then call.srcNumber else call.dstNumber

def getRemoteNumber (call : Call) : Int := if call.orig then call.dstNumber else call.srcNumber

def getRoute (cdr : Cdr) (call : Call) : List Char :=
  if call.orig then cdr.srcRoute else cdr.dstRoute

/-- The number range of a number, as the table has it now. -/
def getNNPNumberRange (num : Int) : Pricing (Option NNPNumberRange) := do
  let numberRanges := (← get).numberRanges
  return (env.repository.data.nnpNumberRange num).bind fun row => numberRanges[row]?

/-- The server of the trunk and its settings. -/
def setupTrunkServer (found : Option Trunk) : Pricing Unit := do
  modifyCall fun call => { call with serverId := env.conf.instanceId }
  let trunk ← orThrow "TRUNK WAS NOT FOUND" found
  modifyCall fun call =>
    { call with trunkId := trunk.id, our := trunk.ourTrunk || trunk.authByNumber }
  let foundServer := env.repository.data.server trunk.serverId
  modifyCallInfo fun callInfo => { callInfo with server := foundServer }
  let server ← orThrow "SERVER WAS NOT FOUND" foundServer
  modifyCall fun call => { call with serverId := server.id }
  let foundSettings := env.repository.data.instanceSettings trunk.serverId
  modifyCallInfo fun callInfo => { callInfo with instanceSettings := foundSettings }
  let _ ← orThrow "INSTANCESETTINGS WAS NOT FOUND" foundSettings

def setupTrunk : Pricing Unit := do
  let call ← getCall
  let found := env.repository.getTrunkByName (getRoute env.cdr call) env.origRegion
  modifyCallInfo fun callInfo => { callInfo with trunk := found }
  setupTrunkServer env found

def processSignalingCallId : Pricing Unit := do
  whenSome (← getCallInfo).trunk fun trunk =>
    onlyIf trunk.ourTrunk do
      modifyCall fun call =>
        { call with
          signallingCallId := if call.orig then env.cdr.inSigCallId else env.cdr.outSigCallId }

/-- The digits of a rule before a number. -/
def prependDigits (rule : TrunkNumberPreprocessing) (number : Int) : Int :=
  atoll (rule.numberPrefix ++ sprintfLld number)

/-- The first rule that applies to the number of one side. -/
def findPreprocessing (rules : List TrunkNumberPreprocessing) (src : Bool) (noa : Int)
    (number : List Char) : Option TrunkNumberPreprocessing :=
  rules.find? fun rule => rule.src == src && rule.noa == noa && rule.length == number.length

/-- A side is completed by the first rule that applies to it, once. -/
def numberPreprocessing : Pricing Unit := do
  let trunk ← deref (← getCallInfo).trunk
  let rules := env.repository.data.trunkNumberPreprocessing trunk.id
  whenSome (findPreprocessing rules true env.cdr.srcNoa env.cdr.srcNumber) fun rule =>
    modifyCall fun call => { call with srcNumber := prependDigits rule call.srcNumber }
  whenSome (findPreprocessing rules false env.cdr.dstNoa env.cdr.dstNumber) fun rule =>
    modifyCall fun call => { call with dstNumber := prependDigits rule call.dstNumber }

/-- A line without a number of its own stands behind `=2A`, `=2B`, `*` or `+`. -/
def lineNumber (cdrNum : List Char) : Int :=
  atoll ((afterStrstr ['=', '2', 'A'] cdrNum <|> afterStrstr ['=', '2', 'B'] cdrNum <|>
    afterStrstr ['*'] cdrNum <|> afterStrstr ['+'] cdrNum).getD cdrNum)

def processLineWithoutNumber (cdrNum : List Char) : Pricing Unit :=
  modifyCall fun call => { call with srcNumber := lineNumber cdrNum }

def processRedirectNumber : Pricing Unit := do
  let trunk ← deref (← getCallInfo).trunk
  if trunk.origRedirectNumber then
    onlyIf (0 < atoll env.cdr.redirectNumber) do
      processLineWithoutNumber env.cdr.redirectNumber
  else
    onlyIf trunk.origRedirectNumber7800 do
      let remoteNumber := getRemoteNumber (← getCall)
      whenSome (env.repository.getServiceNumberByTechnicalNumber remoteNumber) fun serviceNumber =>
        onlyIf (0 < atoll serviceNumber.did) do
          modifyCall fun call => { call with dstNumber := atoll serviceNumber.did }

def processGeo : Pricing Unit := do
  let remoteNumber := getRemoteNumber (← getCall)
  whenSome (env.repository.data.mobPrefix remoteNumber) fun mobPrefix =>
    modifyCall fun call => { call with geoMob := mobPrefix.mob }
  whenSome (env.repository.data.geoPrefix remoteNumber) fun geoPrefix =>
    modifyCall fun call =>
      { call with geoId := geoPrefix.geoId, geoOperatorId := geoPrefix.geoOperatorId }

/-- How far a call goes: -1 local, 0 in the zone, 1 in the country, 2 abroad. -/
def destOf (settings : InstanceSettings) (mob : Bool) (geo : Geo) : Int :=
  if !mob ∧ 0 < settings.cityId ∧ geo.cityId = settings.cityId then -1
  else if geo.regionId ∈ settings.regionIds then 0
  else if 0 < settings.countryId ∧ geo.countryId = settings.countryId then 1
  else 2

def getDest (geoId : Int) : Pricing Int := do
  let found := env.repository.data.geo geoId
  modifyCallInfo fun callInfo => { callInfo with geo := found }
  match found with
  | none => return 2
  | some geo =>
      let settings ← deref (← getCallInfo).instanceSettings
      return destOf settings (← getCall).mob geo

def processDestinations : Pricing Unit := do
  let dstNumber := (← getCall).dstNumber
  whenSome (env.repository.data.mobPrefix dstNumber) fun mobPrefix =>
    modifyCall fun call => { call with mob := mobPrefix.mob }
  whenSome (env.repository.data.geoPrefix dstNumber) fun geoPrefix => do
    let destinationId ← getDest env geoPrefix.geoId
    modifyCall fun call => { call with destinationId := destinationId }

/-- A range without a country gets it from the number, and keeps it. -/
def completeRange (phoneNumber : Int) (range : NNPNumberRange) : NNPNumberRange :=
  let range :=
    if range.countryPrefix = 0 then
      let prefixCode := env.repository.data.nnpCountryPrefix phoneNumber
      { range with countryPrefix := prefixCode.1, countryCode := prefixCode.2 }
    else
      range
  if range.countryCode = 0 then
    { range with countryCode := env.repository.data.nnpCountryCode range.countryPrefix }
  else
    range

def processNNP : Pricing Unit := do
  let phoneNumber := getNumber (← getCall)
  match env.repository.data.nnpNumberRange phoneNumber, ← getNNPNumberRange env phoneNumber with
  | some row, some found =>
      let range := completeRange env phoneNumber found
      modify fun s => { s with numberRanges := s.numberRanges.insert row range }
      modifyCallInfo fun callInfo => { callInfo with nnpNumberRange := some range }
      modifyCall fun call =>
        { call with
          nnpNumberRangeId := range.id
          nnpOperatorId := range.nnpOperatorId
          nnpRegionId := range.nnpRegionId
          nnpCityId := range.nnpCityId
          nnpCountryPrefix := range.countryPrefix
          nnpNdc := range.ndc
          nnpIsMob := range.isMob
          nnpCountryCode := range.countryCode }
  | _, _ =>
      let prefixCode := env.repository.data.nnpCountryPrefix phoneNumber
      modifyCall fun call =>
        { call with nnpCountryPrefix := prefixCode.1, nnpCountryCode := prefixCode.2 }

/-! ## Settings of a trunk -/

def serviceTrunkSettingsOrigination : Int := 1

def serviceTrunkSettingsTermination : Int := 2

def getTrunkSettingsOrderList (trunk : Trunk) (srcNumber dstNumber destinationType : Int) :
    Pricing (List ServiceTrunkOrder) := do
  let nnpNumberRange ← getNNPNumberRange env dstNumber
  return env.repository.getTrunkSettingsOrderList trunk
    (env.repository.getNNPDestinationByNumberRange nnpNumberRange) srcNumber dstNumber
    destinationType

/-- The leg is settled under the first order of the list. -/
def applyOrder (order : ServiceTrunkOrder) : Pricing Unit :=
  modifyCallInfo fun callInfo =>
    { callInfo with
      account := order.account
      serviceTrunk := order.serviceTrunk
      trunkSettings := order.trunkSettings
      pricelist := order.pricelist
      price := order.price }

/-- The prices of a version 5 account come with the order. -/
def applyNNPOrder (order : ServiceTrunkOrder) : Pricing Unit :=
  onlyIf (order.account.elim false fun account => account.accountVersion == 5) do
    modifyCallInfo fun callInfo =>
      { callInfo with
        nnpPackage := order.nnpPackage
        nnpPackagePricelist := order.nnpPackagePricelist
        nnpPackagePrice := order.nnpPackagePrice }
    modifyCall fun call =>
      { call with
        nnpPackagePriceId := order.nnpPackagePrice.elim call.nnpPackagePriceId (·.id)
        nnpPackagePricelistId := order.nnpPackagePricelist.elim call.nnpPackagePricelistId (·.id)
        nnpPackageId := order.nnpPackage.elim call.nnpPackageId (·.id)
        rate := order.nnpPrice }

def setupEffectiveOrigTrunkSettings : Pricing Unit := do
  let callInfo ← getCallInfo
  let trunk ← deref callInfo.trunk
  let orders ← getTrunkSettingsOrderList env trunk callInfo.call.srcNumber
    callInfo.call.dstNumber serviceTrunkSettingsOrigination
  whenSome (env.repository.orderOrigTrunkSettingsOrderList orders).head? fun order => do
    applyOrder order
    applyNNPOrder order

/-- The counter of one order of a terminating trunk. -/
def withStatsTrunkSettings (connectTime : Int) (order : ServiceTrunkOrder) :
    Pricing (ServiceTrunkOrder × ServiceTrunkSettings × StatsTrunkSettings) := do
  let account ← deref order.account
  let trunkSettings ← deref order.trunkSettings
  let found :=
    StatsTrunkSettingsManager.getCurrent (← get).billingData.statsTrunkSettings connectTime
      account trunkSettings
  modify fun s =>
    { s with billingData := { s.billingData with statsTrunkSettings := found.2 } }
  return ({ order with statsTrunkSettings := some found.1 }, trunkSettings, found.1)

/-- An order whose minimum is not used up yet costs nothing more. -/
def isFree (fUseMinimalki : Bool) (trunkSettings : ServiceTrunkSettings)
    (stats : StatsTrunkSettings) : Bool :=
  decide (0 < trunkSettings.minimumMinutes) && fUseMinimalki &&
      decide (stats.usedSeconds < trunkSettings.minimumMinutes * 60) ||
    decide (0 < trunkSettings.minimumCost) && fUseMinimalki &&
      decide (stats.usedCredit ≤ trunkSettings.minimumCost)

/-- Orders with an unused minimum come first.  The source also drops orders that
are not in the list it was given, which is the list it walks over. -/
def orderTermTrunkSettingsOrderList (orders : List ServiceTrunkOrder) (fUseMinimalki : Bool)
    (connectTime : Int) : Pricing (List ServiceTrunkOrder) := do
  let found ← orders.mapM (withStatsTrunkSettings connectTime)
  let free := (found.filter fun order => isFree fUseMinimalki order.2.1 order.2.2).map (·.1)
  let pay := (found.filter fun order => !isFree fUseMinimalki order.2.1 order.2.2).map (·.1)
  return (env.repository.sortByPrice free ++ env.repository.sortByPrice pay).mergeSort
    fun left right => !decide (left.priority < right.priority)

def setupEffectiveTermTrunkSettings : Pricing Unit := do
  let callInfo ← getCallInfo
  let trunk ← deref callInfo.trunk
  let orders ← getTrunkSettingsOrderList env trunk callInfo.call.srcNumber
    callInfo.call.dstNumber serviceTrunkSettingsTermination
  let origTrunk ← orThrow "ORIG TRUNK WAS NOT FOUND"
    (env.repository.getTrunkByName env.cdr.srcRoute env.origRegion)
  let ordered ← orderTermTrunkSettingsOrderList env orders origTrunk.swMinimalki
    callInfo.call.connectTime
  whenSome ordered.head? fun order => do
    applyOrder order
    let stats ← deref order.statsTrunkSettings
    modifyCall fun call => { call with trunkSettingsStatsId := stats.id }
    applyNNPOrder order

/-! ## Services, account, price list and price -/

def setupServiceTrunk : Pricing Unit := do
  let serviceTrunk ← orThrow "SERVICE TRUNK WAS NOT FOUND" (← getCallInfo).serviceTrunk
  modifyCall fun call => { call with trunkServiceId := serviceTrunk.id }

def setupServiceNumber : Pricing Unit := do
  let found := env.repository.getServiceNumber (getNumber (← getCall))
  modifyCallInfo fun callInfo => { callInfo with serviceNumber := found }
  let serviceNumber ← orThrow "SERVICE NUMBER WAS NOT FOUND" found
  modifyCall fun call => { call with numberServiceId := serviceNumber.id }

/-- A number that comes in through a foreign trunk must belong to the account of
the trunk. -/
def checkForeignTrunk (trunk : Trunk) (serviceTrunk : Option ServiceTrunk) : Pricing Unit :=
  onlyIf (!trunk.ourTrunk) do
    let serviceTrunk ← orThrow "SERVICE TRUNK WAS NOT FOUND" serviceTrunk
    let serviceNumber ← deref (← getCallInfo).serviceNumber
    onlyIf (serviceNumber.clientAccountId != serviceTrunk.clientAccountId) do
      throw (.calcException "SERVICE NUMBER ACCOUNT DIFFERENT FROM SERVICE TRUNK_ACCOUNT")

def setupServiceTrunkForNumber : Pricing Unit := do
  let trunk ← deref (← getCallInfo).trunk
  let found := env.repository.getServiceTrunk trunk.id
  modifyCallInfo fun callInfo => { callInfo with serviceTrunk := found }
  checkForeignTrunk trunk found
  whenSome found fun serviceTrunk =>
    modifyCall fun call => { call with trunkServiceId := serviceTrunk.id }

/-- The account a leg is charged to: that of the number, else that of the trunk
service, else the one found with the trunk settings. -/
def findAccount (callInfo : CallInfo) : Option Client :=
  match callInfo.serviceNumber, callInfo.serviceTrunk with
  | some serviceNumber, _ => env.repository.data.client serviceNumber.clientAccountId
  | none, some serviceTrunk => env.repository.data.client serviceTrunk.clientAccountId
  | none, none => callInfo.account

def makeDt (connectTime : Int) (account : Client) (callInfo : CallInfo) : CallInfo :=
  { callInfo with
    dt :=
      { day := getTday connectTime account.timezoneOffset
        month := getTmonth connectTime account.timezoneOffset }
    dtUtc := { day := getTday connectTime 0, month := getTmonth connectTime 0 } }

def setupAccount : Pricing Unit := do
  let found := findAccount env (← getCallInfo)
  modifyCallInfo fun callInfo => { callInfo with account := found }
  let account ← orThrow "ACCOUNT WAS NOT FOUND" found
  modifyCallInfo fun callInfo => makeDt callInfo.call.connectTime account callInfo
  modifyCall fun call =>
    { call with accountId := account.id, accountVersion := account.accountVersion }

/-- `pricelistId` 0 keeps the price list that was found before. -/
def setupPricelist (pricelistId : Int) : Pricing Unit := do
  onlyIf (pricelistId != 0) do
    modifyCallInfo fun callInfo =>
      { callInfo with pricelist := env.repository.data.pricelist pricelistId }
  let pricelist ← orThrow "PRICELIST NOT FOUND" (← getCallInfo).pricelist
  modifyCall fun call => { call with pricelistId := pricelist.id }

/-- Number 0 keeps the price that was found before. -/
def setupPrice (number : Int) : Pricing Unit := do
  onlyIf (number != 0) do
    let pricelist ← deref (← getCallInfo).pricelist
    modifyCallInfo fun callInfo =>
      { callInfo with price := env.repository.getPrice pricelist.id number }
  let price ← orThrow "PRICE NOT FOUND" (← getCallInfo).price
  modifyCall fun call => { call with pricePrefix := atoll price.pricePrefix, rate := price.price }

def getCallLength (len : Int) (byMinutes fullFirstMinute freeFirstMinutes : Bool) : Int :=
  if freeFirstMinutes ∧ len ≤ env.conf.billingFreeSeconds then 0
  else if len ≤ 0 then 0
  else if byMinutes then
    let s := len % 60
    if s = 0 then len else len + 60 - s
  else if fullFirstMinute ∧ len < 60 then 60
  else len

def setupBilledTime : Pricing Unit := do
  let callInfo ← getCallInfo
  if callInfo.serviceNumber.isSome then
    let mainTariff ← deref callInfo.mainTariff
    modifyCall fun call =>
      { call with
        billedTime := getCallLength env env.cdr.sessionTime mainTariff.tarifficationByMinutes
          mainTariff.tarifficationFullFirstMinute mainTariff.tarifficationFreeFirstSeconds }
  else
    let pricelist ← deref callInfo.pricelist
    modifyCall fun call =>
      { call with
        billedTime := getCallLength env env.cdr.sessionTime pricelist.tarifficationByMinutes
          pricelist.tarifficationFullFirstMinute false }

/-- The cost of the seconds that are not taken from a package, and the credit for
those that are; an originating leg pays, a terminating one earns. -/
def withCost (call : Call) : Call :=
  let sign : ℚ := if call.orig then -1 else 1
  let paidTime := call.billedTime - call.packageTime
  { call with
    cost := if 0 < paidTime then sign * (paidTime * call.rate / 60) else 0
    packageCredit :=
      if 0 < call.billedTime then sign * (call.packageTime * call.rate / 60) else 0 }

def setupCost : Pricing Unit := modifyCall withCost

/-- The interconnect rate of a price list: one inside the zone, another beyond. -/
def interconnectRateOf (pricelist : Pricelist) (destinationId : Int) : Option ℚ :=
  if 0.00001 < pricelist.initiateZonaCost ∧ destinationId = 0 then
    some pricelist.initiateZonaCost
  else if 0.00001 < pricelist.initiateMgmnCost ∧ 0 < destinationId then
    some pricelist.initiateMgmnCost
  else
    none

def withInterconnect (rate : Option ℚ) (call : Call) : Call :=
  match rate with
  | none => call
  | some rate =>
      { call with interconnectRate := rate, interconnectCost := call.billedTime * rate / 60 }

/-- Interconnect is paid to terminating legs. -/
def setupInterconnect : Pricing Unit := do
  onlyIf (!(← getCall).orig) do
    let pricelist ← deref (← getCallInfo).pricelist
    modifyCall fun call =>
      withInterconnect (interconnectRateOf pricelist call.destinationId) call

def setupLogTariff : Pricing Unit := do
  let serviceNumber ← deref (← getCallInfo).serviceNumber
  let found := env.repository.getTariffLog serviceNumber.id
  modifyCallInfo fun callInfo => { callInfo with logTariff := found }
  let _ ← orThrow "TARIFF CHANGE LOG NOT FOUND" found

def setupMainTariff : Pricing Unit := do
  let logTariff ← deref (← getCallInfo).logTariff
  let found := env.repository.data.tariff logTariff.tariffIdLocal
  modifyCallInfo fun callInfo => { callInfo with mainTariff := found }
  let _ ← orThrow "TARIFF NOT FOUND" found

def tariffIdOf (logTariff : TariffChangeLog) (call : Call) : Int :=
  if call.isLocal then logTariff.tariffIdLocal
  else if call.isZonaMob then logTariff.tariffIdLocalMob
  else if call.isZonaStd then logTariff.tariffIdRussia
  else if call.isRussianStd then logTariff.tariffIdRussia
  else if call.isRussianMob then logTariff.tariffIdRussiaMob
  else if call.isInternational then logTariff.tariffIdIntern
  else 0

def setupTariff : Pricing Unit := do
  let callInfo ← getCallInfo
  let logTariff ← deref callInfo.logTariff
  let found := env.repository.data.tariff (tariffIdOf logTariff callInfo.call)
  modifyCallInfo fun callInfo => { callInfo with tariff := found }
  let _ ← orThrow "TARIFF NOT FOUND" found

/-! ## Prepaid packages and free minutes -/

/-- Some leading part of the number is the given one. -/
def matchesManual (dstNumber : Int) (statPrefixlist : StatPrefixlist) : Bool :=
  let digits := sprintfLld dstNumber
  statPrefixlist.prefixes.any fun leading =>
    (List.range digits.length).any fun len => leading == atoll (digits.take (len + 1))

def matchesRoslink (call : Call) (geo : Option Geo) (statPrefixlist : StatPrefixlist) : Bool :=
  !(statPrefixlist.subType == 1 && call.mob) &&
    !(statPrefixlist.subType == 2 && !call.mob) &&
    (match geo with
      | none => true
      | some geo =>
          !(decide (0 < statPrefixlist.countryId) && geo.countryId != statPrefixlist.countryId) &&
            !(decide (0 < statPrefixlist.regionId) && geo.regionId != statPrefixlist.regionId) &&
            !(decide (0 < statPrefixlist.cityId) && geo.cityId != statPrefixlist.cityId)) &&
    (statPrefixlist.operators.isEmpty ||
      (statPrefixlist.operators.contains call.geoOperatorId != statPrefixlist.excludeOperators))

/-- A list of type 1 is matched by digits, one of type 3 by region and operator. -/
def matchesPrefixlist (callInfo : CallInfo) (statPrefixlist : StatPrefixlist) : Bool :=
  if statPrefixlist.typeId = 1 then matchesManual callInfo.call.dstNumber statPrefixlist
  else if statPrefixlist.typeId = 3 then
    matchesRoslink callInfo.call callInfo.geo statPrefixlist
  else false

def matchTariffPackageDestination (callInfo : CallInfo) (tariff : TariffPackage) : Bool :=
  (env.repository.data.statDestinationPrefixlists tariff.destinationId).any fun prefixlistId =>
    match env.repository.data.statPrefixlist prefixlistId with
    | none => false
    | some statPrefixlist => matchesPrefixlist callInfo statPrefixlist

/-- The packages of the number, or of the trunk service of a leg without one. -/
def packagesOf (callInfo : CallInfo) : List ServicePackage :=
  match callInfo.serviceNumber, callInfo.serviceTrunk with
  | some serviceNumber, _ => env.repository.getAllServiceNumberPackage serviceNumber.id
  | none, some serviceTrunk => env.repository.getAllServiceTrunkPackage serviceTrunk.id
  | none, none => []

/-- The price of a call by the price list of a package. -/
def packagePrice (callInfo : CallInfo) (servicePackage : ServicePackage) :
    Option (Pricelist × PricelistPrice) := do
  let tariff ← env.repository.data.tariffPackage servicePackage.tariffPackageId
  if tariff.pricelistId = 0 ∨ !matchTariffPackageDestination env callInfo tariff then
    none
  else
    let pricelist ← env.repository.data.pricelist tariff.pricelistId
    let price ← env.repository.getPrice pricelist.id callInfo.call.dstNumber
    return (pricelist, price)

/-- The last package with a price wins. -/
def applyPackagePrice (callInfo : CallInfo) (servicePackage : ServicePackage) : CallInfo :=
  match packagePrice env callInfo servicePackage with
  | none => callInfo
  | some found =>
      { callInfo with
        pricelist := some found.1
        price := some found.2
        servicePackagePricelist := some servicePackage
        call := { callInfo.call with servicePackageId := servicePackage.id } }

def setupPackagePricelist : Pricing Unit :=
  modifyCallInfo fun callInfo =>
    (packagesOf env callInfo).foldl (applyPackagePrice env) callInfo

/-- Free minutes count for local calls only; `service_package_id` 1 stands for
them. -/
def setupFreemin : Pricing Unit := do
  let callInfo ← getCallInfo
  onlyIf (callInfo.call.billedTime != 0 && callInfo.call.isLocal) do
    let mainTariff ← deref callInfo.mainTariff
    let serviceNumber ← deref callInfo.serviceNumber
    let tariffFreeSeconds :=
      60 * mainTariff.freemin *
        (if mainTariff.freeminForNumber then 1 else serviceNumber.linesCount)
    onlyIf (0 < tariffFreeSeconds) do
      let found := StatsFreeminManager.getCurrent (← get).billingData.statsFreemin callInfo
      modify fun s => { s with billingData := { s.billingData with statsFreemin := found.2 } }
      let availableFreeSeconds :=
        min (max (tariffFreeSeconds - found.1.usedSeconds) 0) callInfo.call.billedTime
      onlyIf (0 < availableFreeSeconds) do
        modifyCall fun call =>
          { call with
            servicePackageId := 1
            servicePackageStatsId := found.1.id
            packageTime := availableFreeSeconds }

/-- The package a call is taken from, with its counter and the seconds taken. -/
structure PrepaidChoice where
  packageSeconds : Int
  servicePackage : ServicePackage
  tariffPackage : TariffPackage
  statsPackage : StatsPackage

/-- The tariff of a package that has prepaid minutes for the destination. -/
def prepaidTariff (callInfo : CallInfo) (servicePackage : ServicePackage) :
    Option TariffPackage :=
  (env.repository.data.tariffPackage servicePackage.tariffPackageId).filter fun tariff =>
    tariff.prepaidMinutes != 0 && matchTariffPackageDestination env callInfo tariff

/-- The first package that covers the whole call, else the one that covers most
of it. -/
def choosePackage (callInfo : CallInfo) (account : Client) :
    List ServicePackage → Option PrepaidChoice → StatsPackageManager →
      Option PrepaidChoice × StatsPackageManager
  | [], best, m => (best, m)
  | servicePackage :: packages, best, m =>
      match prepaidTariff env callInfo servicePackage with
      | none => choosePackage callInfo account packages best m
      | some tariff =>
          let found := StatsPackageManager.getCurrent m callInfo account servicePackage tariff
          let stats := found.1
          let availableSeconds := max (stats.paidSeconds - stats.usedSeconds) 0
          if callInfo.call.billedTime ≤ availableSeconds then
            (some ⟨callInfo.call.billedTime, servicePackage, tariff, stats⟩, found.2)
          else if (best.elim 0 (·.packageSeconds)) < availableSeconds then
            choosePackage callInfo account packages
              (some ⟨availableSeconds, servicePackage, tariff, stats⟩) found.2
          else
            choosePackage callInfo account packages best found.2

/-- The leg takes the chosen seconds. -/
def applyPrepaid (choice : PrepaidChoice) (callInfo : CallInfo) : CallInfo :=
  { callInfo with
    servicePackagePrepaid := some choice.servicePackage
    tariffPackagePrepaid := some choice.tariffPackage
    call :=
      { callInfo.call with
        packageTime := choice.packageSeconds
        servicePackageId := choice.servicePackage.id
        servicePackageStatsId := choice.statsPackage.id } }

def setupPackagePrepaid : Pricing Unit := do
  let callInfo ← getCallInfo
  onlyIf (callInfo.call.billedTime != 0 && !decide (0 < callInfo.call.servicePackageId)) do
    let account ← deref callInfo.account
    let found := choosePackage env callInfo account (packagesOf env callInfo) none
      (← get).billingData.statsPackage
    modify fun s => { s with billingData := { s.billingData with statsPackage := found.2 } }
    whenSome found.1 fun choice => modifyCallInfo (applyPrepaid choice)

/-! ## Version 5: prices and package minutes -/

def getCallLengthNNP (len : Int) (nnpPackage : NNPPackage) : Int :=
  let intervalSeconds :=
    if nnpPackage.tarificationIntervalSeconds = 0 then 1
    else nnpPackage.tarificationIntervalSeconds
  if len ≤ 0 then 0
  else if len ≤ |nnpPackage.tarificationFreeSeconds| then 0
  else if len ≤ |nnpPackage.tarificationMinPaidSeconds| then
    |nnpPackage.tarificationMinPaidSeconds|
  else
    let s := len.tmod intervalSeconds
    if s = 0 then len
    else if s ≤ intervalSeconds.tdiv 2 ∧ nnpPackage.tarificationType = 1 then
      len.tdiv intervalSeconds * intervalSeconds
    else
      (len.tdiv intervalSeconds + 1) * intervalSeconds

def setupBilledTimeNNP (nnpPackage : NNPPackage) : Pricing Unit :=
  modifyCall fun call =>
    { call with billedTime := getCallLengthNNP env.cdr.sessionTime nnpPackage }

/-- The same formula as `setupCost`, in its own function in the source. -/
def setupNNPCost : Pricing Unit := modifyCall withCost

def setupNNPPackagePrice (lights : List NNPAccountTariffLight) (nnpDestinationIds : List Int) :
    Option (ℚ × NNPPackagePrice) :=
  Repository.cheapest (lights.flatMap fun light =>
    env.repository.findNNPPackagePriceIds light.nnpTariffId nnpDestinationIds)

def setupNNPPackagePricelist (lights : List NNPAccountTariffLight) (dstNumber : Int) :
    Option (ℚ × NNPPackagePricelist) :=
  Repository.cheapest (lights.flatMap fun light =>
    env.repository.findNNPPackagePricelistIds light.nnpTariffId dstNumber)

def withNNPPackagePrice (found : ℚ × NNPPackagePrice) (call : Call) : Call :=
  { call with
    rate := found.1
    nnpPackagePriceId := found.2.id
    nnpPackageId := found.2.nnpTariffId }

def withNNPPackagePricelist (found : ℚ × NNPPackagePricelist) (call : Call) : Call :=
  { call with
    rate := found.1
    nnpPackagePricelistId := found.2.id
    nnpPackageId := found.2.nnpTariffId }

/-- The lower of the two prices; a package price goes before a price list. -/
def withNNPRate (price : Option (ℚ × NNPPackagePrice))
    (pricelist : Option (ℚ × NNPPackagePricelist)) (call : Call) : Call :=
  match price, pricelist with
  | some price, some pricelist =>
      if |price.1| ≤ |pricelist.1| then withNNPPackagePrice price call
      else withNNPPackagePricelist pricelist call
  | some price, none => withNNPPackagePrice price call
  | none, some pricelist => withNNPPackagePricelist pricelist call
  | none, none => { call with rate := 0, nnpPackagePricelistId := 0, nnpPackageId := 0 }

/-- A package minute with seconds left: what a minute costs, the seconds, and the
package minute. -/
structure MinuteCandidate where
  minuteCost : ℚ
  secondsLeft : Int
  nnpPackageMinute : NNPPackageMinute
deriving DecidableEq, Repr

/-- `(int)` of a `double`. -/
def truncate (x : ℚ) : Int := if 0 ≤ x then ⌊x⌋ else ⌈x⌉

/-- `map[tariff] = light` over the connected tariffs: the last one stays. -/
def lightOfTariff (lights : List NNPAccountTariffLight) (nnpTariffId : Int) :
    Option NNPAccountTariffLight :=
  lights.reverse.find? fun light => light.nnpTariffId == nnpTariffId

def globalUsedSeconds (lightId nnpPackageMinuteId : Int) : Int :=
  match env.repository.data.globalNNPPackageMinuteCounters with
  | none => 0
  | some globalCounter => globalCounter lightId nnpPackageMinuteId

/-- The seconds left of one package minute.  The counter of the current calls is
looked up last and may be created. -/
def minuteCandidate (nnpPackageMinute : NNPPackageMinute) (light : NNPAccountTariffLight) :
    Pricing MinuteCandidate := do
  let s ← get
  let usedSeconds := StatsNNPPackageMinuteManager.getUsedSeconds
    s.billingData.statsNNPPackageMinute light.id nnpPackageMinute.id env.cdr.connectTime
  let current := StatsNNPPackageMinuteManager.getCurrent s.currentNNPPackageMinute env.now
    nnpPackageMinute light
  modify fun s => { s with currentNNPPackageMinute := current.2 }
  return {
    minuteCost :=
      if 0 < nnpPackageMinute.minute then |light.price / nnpPackageMinute.minute| else 10000000
    secondsLeft := truncate (nnpPackageMinute.minute * 60 - usedSeconds -
      globalUsedSeconds env light.id nnpPackageMinute.id - current.1.usedSeconds)
    nnpPackageMinute := nnpPackageMinute }

/-- The candidates with seconds left among package minutes for the destinations. -/
def minuteCandidates (lights : List NNPAccountTariffLight) (nnpDestinationIds : List Int) :
    List NNPPackageMinute → Pricing (List MinuteCandidate)
  | [] => pure []
  | nnpPackageMinute :: rest =>
      if nnpDestinationIds.contains nnpPackageMinute.nnpDestinationId then do
        let light ← deref (lightOfTariff lights nnpPackageMinute.nnpTariffId)
        let candidate ← minuteCandidate env nnpPackageMinute light
        let candidates ← minuteCandidates lights nnpDestinationIds rest
        return if 0 < candidate.secondsLeft then candidate :: candidates else candidates
      else
        minuteCandidates lights nnpDestinationIds rest

/-- The package minutes of all connected tariffs, in their order. -/
def packageMinutesOf (lights : List NNPAccountTariffLight) : List NNPPackageMinute :=
  lights.flatMap fun light =>
    env.repository.data.nnpPackageMinute.findAllByTariffID light.nnpTariffId light.coefficient

/-- The candidate with the cheapest minute, and of these the one with the fewest
seconds left.  Equal candidates are one element of the set, the first. -/
def setupNNPPackageMinute (lights : List NNPAccountTariffLight) (nnpDestinationIds : List Int) :
    Pricing (Option MinuteCandidate) := do
  let candidates ← minuteCandidates env lights nnpDestinationIds (packageMinutesOf env lights)
  return setBegin (fun left right =>
    pairLess (left.minuteCost, left.secondsLeft) (right.minuteCost, right.secondsLeft)) candidates

/-- The counter the seconds are charged to: that of the first connected tariff. -/
def chargeNNPPackageMinute (lights : List NNPAccountTariffLight)
    (nnpPackageMinute : NNPPackageMinute) : Pricing Unit :=
  whenSome (lights.find? fun light => light.nnpTariffId == nnpPackageMinute.nnpTariffId)
    fun light => do
      let found := StatsNNPPackageMinuteManager.getCurrent
        (← get).billingData.statsNNPPackageMinute env.cdr.connectTime nnpPackageMinute light
      modify fun s =>
        { s with billingData := { s.billingData with statsNNPPackageMinute := found.2 } }
      modifyCall fun call => { call with statsNnpPackageMinuteId := found.1.id }

/-- Take seconds from the chosen package minute. -/
def applyNNPPackageMinute (lights : List NNPAccountTariffLight) (candidate : MinuteCandidate) :
    Pricing Unit := do
  let nnpPackage ← orThrow "NOT FOUND nnpPackages"
    (env.repository.data.nnpPackage candidate.nnpPackageMinute.nnpTariffId)
  setupBilledTimeNNP env nnpPackage
  let avalibleNNPPackageSeconds :=
    min (max candidate.secondsLeft 0) (← getCall).billedTime
  onlyIf (0 < avalibleNNPPackageSeconds) do
    modifyCall fun call =>
      { call with
        nnpPackageMinuteId := candidate.nnpPackageMinute.id
        nnpPackageId := candidate.nnpPackageMinute.nnpTariffId
        packageTime := avalibleNNPPackageSeconds }
    let nnpPackageMinute ← deref
      (env.repository.data.nnpPackageMinute.find candidate.nnpPackageMinute.id)
    chargeNNPPackageMinute env lights nnpPackageMinute

/-- The leg is billed by the package of its rate. -/
def applyNNPPackage : Pricing Unit := do
  let nnpPackage ← orThrow "NOT FOUND nnpPackages"
    (env.repository.data.nnpPackage (← getCall).nnpPackageId)
  setupBilledTimeNNP env nnpPackage

/-- A package minute, if one with seconds left was found. -/
def applyMinute (lights : List NNPAccountTariffLight) (minute : Option MinuteCandidate) :
    Pricing Unit :=
  match minute.filter fun candidate => candidate.nnpPackageMinute.id != 0 with
  | some candidate => applyNNPPackageMinute env lights candidate
  | none => applyNNPPackage env

def calcOrigNNPByNumber : Pricing Unit := do
  let callInfo ← getCallInfo
  let serviceNumber ← orThrow "NOT FOUND serviceNumber" callInfo.serviceNumber
  let lights := env.repository.data.nnpAccountTariffLight.findAllActiveByClientID
    callInfo.call.accountId callInfo.call.connectTime serviceNumber.id
  if lights = [] then
    throw (.calcException "NOT FOUND AccountTariffLight")
  else
    let nnpNumberRange ← getNNPNumberRange env callInfo.call.dstNumber
    let nnpDestinationIds := env.repository.getNNPDestinationByNumberRange nnpNumberRange
    let price := setupNNPPackagePrice env lights nnpDestinationIds
    let pricelist := setupNNPPackagePricelist env lights callInfo.call.dstNumber
    let minute ← setupNNPPackageMinute env lights nnpDestinationIds
    modifyCall (withNNPRate price pricelist)
    modifyCall fun call => { call with packageTime := 0 }
    applyMinute env lights minute
    setupNNPCost

def setupNNPInterconnect : Pricing Unit := do
  let callInfo ← getCallInfo
  onlyIf (!callInfo.call.orig) do
    whenSome callInfo.nnpPackagePrice fun nnpPackagePrice =>
      onlyIf (0.00001 < nnpPackagePrice.interconnectPrice) do
        modifyCall (withInterconnect (some nnpPackagePrice.interconnectPrice))
    let pricelist := callInfo.nnpPackagePricelist.bind fun package =>
      env.repository.data.pricelist package.pricelistId
    whenSome pricelist fun pricelist =>
      modifyCall fun call =>
        withInterconnect (interconnectRateOf pricelist call.destinationId) call

/-! ## The four paths -/

/-- The price of the tariff for the kind of call. -/
def setupTariffPrice : Pricing Unit := do
  setupTariff env
  let tariff ← deref (← getCallInfo).tariff
  setupPricelist env tariff.pricelistId
  setupPrice env (← getCall).dstNumber

/-- The price found before, with a package or with the trunk settings. -/
def setupFoundPrice : Pricing Unit := do
  setupPricelist env 0
  setupPrice env 0

/-- The price of an originating version 4 leg by number. -/
def setupOrigPrice (servicePackagePricelist : Option ServicePackage) : Pricing Unit :=
  if servicePackagePricelist.isNone then setupTariffPrice env else setupFoundPrice env

def calcOrigByNumberV4 : Pricing Unit := do
  setupLogTariff env
  setupMainTariff env
  setupBilledTime env
  setupPackagePricelist env
  setupOrigPrice env (← getCallInfo).servicePackagePricelist
  setupFreemin
  setupPackagePrepaid env
  setupCost

def calcOrigByNumber : Pricing Unit := do
  let accountVersion := (← getCall).accountVersion
  if accountVersion = 5 then calcOrigNNPByNumber env
  else if accountVersion = 4 then calcOrigByNumberV4 env
  else throw (.calcException "UNKNOW ACCOUNT VERSION")

def isUsage7800 (call : Call) : Bool :=
  ['7', '8', '0', '0'].isPrefixOf (sprintfLld (getNumber call))

/-- The owner of an 800 number pays for the calls to it. -/
def calcTermByNumber : Pricing Unit := do
  setupLogTariff env
  setupMainTariff env
  setupBilledTime env
  onlyIf (isUsage7800 (← getCall)) do
    let mainTariff ← deref (← getCallInfo).mainTariff
    setupPricelist env mainTariff.pricelistId
    setupPrice env (← getCall).srcNumber
    setupCost
    modifyCall fun call => { call with cost := -call.cost }

/-- A call to one of the service numbers of the server is not charged. -/
def isServiceCall (server : Server) : Bool :=
  env.cdr.dstReplace != [] && server.serviceNumbers.contains env.cdr.dstReplace

def calcByNumber (fTarifficationSkip : Bool) : Pricing Unit := do
  onlyIf ((← getCall).orig && atoll env.cdr.redirectNumber == 0) do
    processLineWithoutNumber env.cdr.srcNumber
  setupServiceNumber env
  setupServiceTrunkForNumber env
  setupAccount env
  let callInfo ← getCallInfo
  if callInfo.call.orig then
    let server ← deref callInfo.server
    if isServiceCall env server then
      modifyCall fun call => { call with isServiceNumber := true }
    else
      onlyIf (!fTarifficationSkip) (calcOrigByNumber env)
  else
    calcTermByNumber env

/-- Version 4 by trunk: the packages of the trunk service apply to originating
legs. -/
def calcByTrunkV4 (orig : Bool) : Pricing Unit := do
  onlyIf orig (setupPackagePricelist env)
  setupFoundPrice env
  setupBilledTime env
  onlyIf orig (setupPackagePrepaid env)
  setupInterconnect
  setupCost

def setupEffectiveTrunkSettings (orig : Bool) : Pricing Unit :=
  if orig then setupEffectiveOrigTrunkSettings env else setupEffectiveTermTrunkSettings env

/-- The leg is charged to the account of the trunk service. -/
def calcTrunkService (orig : Bool) : Pricing Unit := do
  setupServiceTrunk
  setupAccount env
  let callInfo ← getCallInfo
  if callInfo.call.accountVersion = 4 then
    calcByTrunkV4 env orig
  else if callInfo.call.accountVersion = 5 then
    let nnpPackage ← deref callInfo.nnpPackage
    setupBilledTimeNNP env nnpPackage
    setupNNPInterconnect env
    setupNNPCost
  else
    throw (.calcException "UNKNOW ACCOUNT VERSION")

def calcByTrunk : Pricing Unit := do
  let orig := (← getCall).orig
  setupEffectiveTrunkSettings env orig
  calcTrunkService env orig

/-! ## The whole -/

def isNeedForceCalcByNumber (orig : Bool) : Bool :=
  match env.stateMegaTrunk with
  | none => false
  | some state =>
      if orig then state.isForceOrgAuthByNumber else state.isForceTermAuthByNumber

def isForceOrigTarifficationSkip : Bool :=
  match env.stateMegaTrunk with
  | none => false
  | some state => state.isForceOrigTarifficationSkip

/-- Whether the price of the leg includes VAT. -/
def withVatFlag (callInfo : CallInfo) : CallInfo :=
  let call := callInfo.call
  let flag : Bool :=
    if call.accountVersion = 4 then callInfo.pricelist.elim false (·.priceIncludeVat)
    else if call.accountVersion ≠ 5 then call.priceIncludesVat
    else if call.nnpPackagePriceId ≠ 0 then callInfo.nnpPackage.elim false (·.isIncludeVat)
    else if call.nnpPackagePricelistId ≠ 0 then
      match callInfo.nnpPackagePricelist.bind fun package =>
          env.repository.data.pricelist package.pricelistId with
      | some pricelist => pricelist.priceIncludeVat
      | none => call.priceIncludesVat
    else call.priceIncludesVat
  { callInfo with call := { call with priceIncludesVat := flag } }

def setVatFlag : Pricing Unit := modifyCallInfo (withVatFlag env)

/-- What is found out about the leg before it is charged. -/
def classification (orig : Bool) : Pricing Unit := do
  processSignalingCallId env
  onlyIf orig do
    numberPreprocessing env
    processRedirectNumber env
  processGeo env
  processDestinations env
  processNNP env
  modifyCallInfo fun callInfo =>
    { callInfo with callIncomingFromMegatrunk := isNeedForceCalcByNumber env orig }

/-- By number or by trunk. -/
def charging (orig : Bool) : Pricing Unit := do
  let trunk ← deref (← getCallInfo).trunk
  if trunk.authByNumber || isNeedForceCalcByNumber env orig then
    calcByNumber env (isForceOrigTarifficationSkip env)
  else
    calcByTrunk env

/-- The body of the `try` block of `calc`. -/
def tariffication : Pricing Unit := do
  let orig := (← getCall).orig
  setupTrunk env
  classification env orig
  charging env orig
  setVatFlag env

/-- A `CalcException` is caught, a null pointer ends the process. -/
def calcLeg (s : PricingState) : Option PricingState :=
  match exec (tariffication env) s with
  | (.error .nullPointer, _) => none
  | (_, s') => some s'

end BillingCall

/-- A leg of a CDR before it is priced. -/
def Call.ofCdr (cdr : Cdr) (orig : Bool) : Call :=
  { orig := orig
    cdrId := cdr.id
    connectTime := cdr.connectTime
    pdd := cdr.connectTime - cdr.setupTime
    srcNumber := atoll cdr.srcNumber
    dstNumber := atoll cdr.dstNumber
    billedTime := cdr.sessionTime
    cdrCallId := cdr.callId
    disconnectCause := cdr.disconnectCause }

end VoipBill
