import VoipBill.Auth.AnalyzeCall
import VoipBill.Model.RadiusAuthProcessor

/-!
# A request of the switch

`RadiusAuthProcessor::process` from the request to the response.  The request goes through two
parts:

* `admission`: the trunk and the region are found, the numbers are prepared, the call is priced
  as a call of one minute and compared with the limits of its account;
* `answer`: the response is set from the answer of the limits or from the route table.

An exception in either part is caught, and the response is set by `fallback`.  A null pointer
ends the process, and so does a route table that leads back to itself.
-/

namespace VoipBill

open Lib.Hoare

/-! ## Tables of the answer -/

/-- A server with what only the processing of a request reads. -/
structure AuthServer extends Server where
  lowBalanceOutcomeId : Int := 0
  blockedOutcomeId : Int := 0
  callingStationIdForLineWithoutNumber : List Char := []
  emergencyPrefixlistId : Int := 0

structure AuthOutcome extends Outcome where
  routeCaseId : Int := 0
  routeCase1Id : Int := 0
  routeCase2Id : Int := 0
  releaseReasonId : Int := 0
  airpId : Int := 0
  callingStationId : List Char := []
  calledStationId : List Char := []

namespace Outcome

def isAuto (outcome : Outcome) : Bool := outcome.typeId == 1

def isRouteCase (outcome : Outcome) : Bool := outcome.typeId == 2

def isReleaseReason (outcome : Outcome) : Bool := outcome.typeId == 3

def isAirp (outcome : Outcome) : Bool := outcome.typeId == 4

def isAccept (outcome : Outcome) : Bool := outcome.typeId == 5

end Outcome

structure RadiusAuthRequest where
  trunkName : List Char := []
  srcNumber : List Char := []
  dstNumber : List Char := []
  redirectNumber : List Char := []
  callingPartyCategory : List Char := []
  nasIpAddress : Nat := 0
  srcNoa : Int := 3
  dstNoa : Int := 3
  region : Int := 0

/-! ## The response -/

/-- `accept` has no value before it is set. -/
structure RadiusAuthResponse where
  accept : Option Bool := none
  srcNumber : List Char := []
  dstNumber : List Char := []
  routeCase : List Char := []
  releaseReason : List Char := []
  airp : List Char := []
deriving DecidableEq

namespace RadiusAuthResponse

variable (response : RadiusAuthResponse)

def setRouteCase (routeCase : List Char) : RadiusAuthResponse :=
  { response with accept := some true, routeCase := routeCase }

def setAirp (airp : List Char) : RadiusAuthResponse :=
  { response with accept := some true, airp := airp }

def setReleaseReason (releaseReason : List Char) : RadiusAuthResponse :=
  { response with accept := some true, releaseReason := releaseReason }

def setAccept : RadiusAuthResponse := { response with accept := some true }

def setReject : RadiusAuthResponse :=
  { response with accept := some false, srcNumber := [], dstNumber := [] }

end RadiusAuthResponse

def noRouteToDestination : List Char := "NO_ROUTE_TO_DESTINATION".toList

/-! ## The environment of a request -/

/-- `now` is the value of every `time(nullptr)`. -/
structure AuthEnv where
  conf : Conf := {}
  isApiHostMode : Bool := false
  /-- The lists are loaded and the counters are ready. -/
  ready : Bool := true
  now : Int := 0
  data : DataContainer := {}
  tables : RoutingTables := {}
  server : Int → Option AuthServer := fun _ => none
  serverIdByIp : Nat → Int := fun _ => 0
  outcome : Int → Option AuthOutcome := fun _ => none
  routeCase : Int → Option (List Char) := fun _ => none
  releaseReason : Int → Option (List Char) := fun _ => none
  airp : Int → Option (List Char) := fun _ => none
  /-- `route_table_id` by the id of a trunk. -/
  routeTableId : Int → Int := fun _ => 0
  /-- The sums of an account, with its VAT. -/
  sums : Client → SpentSums := fun _ => {}
  /-- `std::random_shuffle`. -/
  shuffle : List Trunk → List Trunk := id
  /-- How deep `processRouteTable` is followed. -/
  depth : Nat := 0

/-- The response, the shared blocks, what pricing works on, and the trunk once it is found. -/
structure AuthState where
  response : RadiusAuthResponse := {}
  blocked : AccountIdsBlocked := ∅
  pricing : PricingState
  origTrunk : Option Trunk := none

abbrev Auth (α : Type) : Type := Prog CalcStop AuthState α

/-- A request that has been priced and analysed. -/
structure Analysed where
  processor : RadiusAuthProcessor
  server : AuthServer
  callIncomingFromMegatrunk : Bool
  billResponse : BillResponse

/-- A request of the interception service is accepted at once. -/
inductive Admission where
  | intercepted
  | analysed (request : Analysed)

namespace AuthEnv

def fail {α : Type} (message : String) : Auth α := throw (.calcException message)

def found {α : Type} (message : String) : Option α → Auth α
  | some a => pure a
  | none => fail message

def modifyResponse (f : RadiusAuthResponse → RadiusAuthResponse) : Auth Unit :=
  modify fun s => { s with response := f s.response }

/-- A part of pricing. -/
def runPricing {α : Type} (x : Pricing α) : Auth α := do
  let s ← get
  let (result, pricing) := exec x s.pricing
  modify fun s => { s with pricing := pricing }
  match result with
  | .ok a => pure a
  | .error stop => throw stop

variable (env : AuthEnv)

/-- The repository is prepared for now. -/
def repository : Repository where
  data := { env.data with server := fun id => (env.server id).map AuthServer.toServer }
  currentTime := env.now

def routingTables : RoutingTables :=
  { env.tables with outcome := fun id => (env.outcome id).map AuthOutcome.toOutcome }

/-! ## Admission -/

/-- The region of the request; a secondary router is known by its address. -/
def regionOf (request : RadiusAuthRequest) : Int :=
  if env.isApiHostMode && request.region == 0 then env.serverIdByIp request.nasIpAddress
  else request.region

/-- The server whose trunks are searched; 0 stands for the instance itself. -/
def serverIdOf (request : RadiusAuthRequest) : Int :=
  let region := env.regionOf request
  let serverId := if env.isApiHostMode && request.region == 0 then region else 0
  if 0 < region then
    match env.server region with
    | some server => server.id
    | none => serverId
  else
    serverId

def requireReady : Auth Unit := if env.ready then pure () else fail "Billing not ready."

def trunkOf (request : RadiusAuthRequest) : Option Trunk :=
  env.repository.getTrunkByName request.trunkName (env.serverIdOf request)

def serverOf (request : RadiusAuthRequest) (origTrunk : Trunk) : Option AuthServer :=
  if 0 < env.regionOf request then env.server (env.regionOf request)
  else env.server origTrunk.serverId

/-- The trunk and the server of a request. -/
def init (request : RadiusAuthRequest) : Auth (Trunk × AuthServer) := do
  env.requireReady
  let origTrunk ← found
    ("Udp request validation: trunk not found: " ++ String.ofList request.trunkName)
    (env.trunkOf request)
  modify fun s => { s with origTrunk := some origTrunk }
  let server ← found
    ("Udp request validation: server_id" ++ toString origTrunk.serverId ++
      " by trunk not found: " ++ String.ofList request.trunkName)
    (env.serverOf request origTrunk)
  return (origTrunk, server)

/-- The lawful interception of Moscow. -/
def isIntercepted (request : RadiusAuthRequest) : Bool :=
  (env.conf.instanceId == 99 || env.regionOf request == 99) &&
    request.callingPartyCategory == "INTERCEPT".toList

def hasRedirectNumber (request : RadiusAuthRequest) (origTrunk : Trunk) : Bool :=
  origTrunk.origRedirectNumber && !request.redirectNumber.isEmpty

/-- `processRedirectNumber`. -/
def aNumberOf (request : RadiusAuthRequest) (origTrunk : Trunk) : List Char :=
  if hasRedirectNumber request origTrunk then request.redirectNumber else request.srcNumber

def processLineWithoutNumber (request : RadiusAuthRequest) (origTrunk : Trunk)
    (server : AuthServer) : Auth Unit := do
  let aNumber := aNumberOf request origTrunk
  if origTrunk.ourTrunk && origTrunk.authByNumber &&
      !server.callingStationIdForLineWithoutNumber.isEmpty then
    if (aNumber.contains '*' || aNumber.contains '+') && !hasRedirectNumber request origTrunk then
      modifyResponse fun response =>
        { response with srcNumber := server.callingStationIdForLineWithoutNumber }

/-- The call as a CDR of one minute; its fields hold 32 characters. -/
def cdrOf (request : RadiusAuthRequest) : Cdr where
  connectTime := env.now
  sessionTime := 60
  srcNumber := request.srcNumber.take 32
  dstNumber := request.dstNumber.take 32
  redirectNumber := request.redirectNumber.take 32
  srcRoute := request.trunkName.take 32
  dstRoute := request.trunkName.take 32
  srcNoa := request.srcNoa
  dstNoa := request.dstNoa

def origRegionOf (request : RadiusAuthRequest) : Int :=
  if 0 < env.regionOf request then env.regionOf request else env.conf.instanceId

/-- `StateMegaTrunk::prepareFromCdr` with the numbers of the request. -/
def preparedOf (request : RadiusAuthRequest) (aNumber : List Char) : MegaTrunk.Prepared where
  srcTrunk := env.repository.getTrunkByName (env.cdrOf request).srcRoute (env.origRegionOf request)
  serviceNumberNumA := env.repository.getServiceNumber
    (atoll (if aNumber.isEmpty then (env.cdrOf request).srcNumber else aNumber))
  serviceNumberNumB := env.repository.getServiceNumber
    (atoll (if request.dstNumber.isEmpty then (env.cdrOf request).dstNumber
      else request.dstNumber))
  simblingRegions := env.repository.data.simblingRegion (env.origRegionOf request)

def pricingEnvOf (request : RadiusAuthRequest) (prepared : MegaTrunk.Prepared) : PricingEnv where
  conf := env.conf
  repository := env.repository
  cdr := env.cdrOf request
  stateMegaTrunk := some (MegaTrunk.answers env.repository prepared env.now)
  origRegion := env.origRegionOf request
  now := env.now

def isEmergencyCall (bNumber : List Char) (serverId : Int) : Bool :=
  match env.server serverId with
  | none => false
  | some server =>
      server.emergencyPrefixlistId != 0 &&
        (match env.tables.prefixlist server.emergencyPrefixlistId with
          | none => false
          | some prefixlist => (env.tables.getPrefixlistPrefix prefixlist.id bNumber).isSome)

def authRequestOf (request : RadiusAuthRequest) (origTrunk : Trunk) (call : Call) : AuthRequest where
  now := env.now
  origTrunk := origTrunk
  isEmergencyCall := env.isEmergencyCall request.dstNumber origTrunk.serverId
  account := env.data.client call.accountId
  sums := (env.data.client call.accountId).elim {} env.sums
  instanceSettings := env.data.instanceSettings env.conf.instanceId
  call := call

def analyze (authRequest : AuthRequest) : Auth BillResponse := do
  let s ← get
  let (billResponse, blocked) := RadiusAuth.analyzeCall authRequest s.blocked
  modify fun s => { s with blocked := blocked }
  return billResponse

/-- The pricing of a request starts with a new leg. -/
def priced (request : RadiusAuthRequest) (origTrunk : Trunk) (pricing : PricingState) :
    Option PricingState :=
  BillingCall.calcLeg
    (env.pricingEnvOf request (env.preparedOf request (aNumberOf request origTrunk)))
    { pricing with callInfo := { call := Call.ofCdr (env.cdrOf request) true } }

/-- What admission hands over when the limits have answered. -/
def analysedOf (request : RadiusAuthRequest) (origTrunk : Trunk) (server : AuthServer)
    (callInfo : CallInfo) (billResponse : BillResponse) : Analysed where
  processor :=
    { repository := env.repository
      tables := env.routingTables
      origTrunk := origTrunk
      account := callInfo.account
      redirectNumber := request.redirectNumber
      aNumber := aNumberOf request origTrunk
      bNumber := request.dstNumber
      megaTrunk := MegaTrunk.phaseCalc env.repository
        (env.preparedOf request (aNumberOf request origTrunk)) env.now }
  server := server
  callIncomingFromMegatrunk := callInfo.callIncomingFromMegatrunk
  billResponse := billResponse

/-- `BillingCall::calc`. -/
def calcOrig (request : RadiusAuthRequest) (origTrunk : Trunk) : Auth CallInfo := do
  let s ← get
  match env.priced request origTrunk s.pricing with
  | none => throw .nullPointer
  | some pricing =>
      modify fun s => { s with pricing := pricing }
      return pricing.callInfo

/-- The first part of `process`. -/
def admission (request : RadiusAuthRequest) : Auth Admission := do
  let (origTrunk, server) ← env.init request
  if env.isIntercepted request then
    return .intercepted
  processLineWithoutNumber request origTrunk server
  let callInfo ← env.calcOrig request origTrunk
  let billResponse ← analyze (env.authRequestOf request origTrunk callInfo.call)
  return .analysed (env.analysedOf request origTrunk server callInfo billResponse)

/-! ## Answers -/

/-- Names one after the other; there is no comma behind an empty text. -/
def joinNames (names : List (List Char)) : List Char :=
  names.foldl (fun text name => if text.isEmpty then text ++ name else text ++ ',' :: name) []

/-- The loop of `processAutoRouteResponse`: the first trunks of the orders, three at most. -/
def routeTrunks : List ServiceTrunkOrder → List Trunk → Option (List Trunk)
  | [], trunks => some trunks
  | order :: orders, trunks =>
      match order.trunk with
      | none => none
      | some trunk =>
          if trunks.any fun other => other.id == trunk.id then routeTrunks orders trunks
          else if trunks.length = 2 then some (trunks ++ [trunk])
          else routeTrunks orders (trunks ++ [trunk])

def processAutoRouteResponse (termOrders : List ServiceTrunkOrder) : Auth Unit := do
  if termOrders.isEmpty then
    modifyResponse fun response => response.setReleaseReason noRouteToDestination
  else
    match routeTrunks termOrders [] with
    | none => throw .nullPointer
    | some trunks =>
        modifyResponse fun response =>
          response.setRouteCase (joinNames (trunks.map fun trunk => trunk.trunkName))

def processAutoOutcome (p : RadiusAuthProcessor) (server : Server) (skipLoopProtection : Bool) :
    Auth Unit := do
  let (_, termOrders) ← runPricing (p.autoRoutes server skipLoopProtection env.now)
  processAutoRouteResponse termOrders

/-- The trunks that are a road to a region. -/
def getAllRoadToRegion (serverId regionNum : Int) (simblingRegions : List Int) : List Trunk :=
  env.tables.trunks.filter fun trunk =>
    trunk.isConnected regionNum &&
      (trunk.serverId == serverId || simblingRegions.contains trunk.serverId && trunk.swShared)

def processMegaTrunkPhase1 (p : RadiusAuthProcessor) (server : Server) : Auth Unit := do
  let roads := env.shuffle (env.getAllRoadToRegion server.id p.megaTrunk.destRegion
    (env.data.simblingRegion server.id))
  let routeCase := joinNames (roads.map fun trunk => trunk.trunkName)
  if routeCase.isEmpty then
    fail ("not found road to Region #" ++ toString p.megaTrunk.destRegion)
  else
    modifyResponse fun response => response.setRouteCase routeCase

def processMegaTrunkPhase2 (p : RadiusAuthProcessor) : Auth Unit := do
  let trunk ← found "not found MegaTrunk" p.megaTrunk.destTrunk
  modifyResponse fun response => response.setRouteCase trunk.trunkName

/-- The numbers an outcome replaces. -/
def setStations (outcome : AuthOutcome) (response : RadiusAuthResponse) : RadiusAuthResponse :=
  { response with
    srcNumber :=
      if outcome.callingStationId.isEmpty then response.srcNumber else outcome.callingStationId
    dstNumber :=
      if outcome.calledStationId.isEmpty then response.dstNumber else outcome.calledStationId }

def processRouteCaseOutcome (outcome : AuthOutcome) : Auth Unit := do
  let routeCase ← found ("Route case #" ++ toString outcome.routeCaseId ++ " not found")
    (env.routeCase outcome.routeCaseId)
  let more := [outcome.routeCase1Id, outcome.routeCase2Id].filterMap env.routeCase
  let sRouteCase := more.foldl (fun text name => text ++ ',' :: name) routeCase
  modifyResponse fun response => setStations outcome (response.setRouteCase sRouteCase)

def processReleaseReasonOutcome (outcome : AuthOutcome) : Auth Unit := do
  let releaseReason ← found
    ("Release reason #" ++ toString outcome.releaseReasonId ++ " not found")
    (env.releaseReason outcome.releaseReasonId)
  modifyResponse fun response => response.setReleaseReason releaseReason

def processAirpOutcome (outcome : AuthOutcome) : Auth Unit := do
  let airp ← found ("Airp #" ++ toString outcome.airpId ++ " not found")
    (env.airp outcome.airpId)
  modifyResponse fun response => setStations outcome (response.setAirp airp)

def processOutcome (p : RadiusAuthProcessor) (server : Server) (skipLoopProtection : Bool)
    (outcomeId : Int) : Auth Unit := do
  let outcome ← found ("Outcome #" ++ toString outcomeId ++ " not found") (env.outcome outcomeId)
  if outcome.isAuto then
    env.processAutoOutcome p server skipLoopProtection
  else if outcome.isMegToReg then
    env.processMegaTrunkPhase1 p server
  else if outcome.isMegToMeg then
    processMegaTrunkPhase2 p
  else if outcome.isRouteCase then
    env.processRouteCaseOutcome outcome
  else if outcome.isReleaseReason then
    env.processReleaseReasonOutcome outcome
  else if outcome.isAirp then
    env.processAirpOutcome outcome
  else if outcome.isAccept then
    modifyResponse fun response => response.setAccept
  else
    fail ("Unexpected type of outcome #" ++ toString outcome.id)

/-- The outcome of the route table of the trunk, and the server it leads to. -/
def routeOutcome (p : RadiusAuthProcessor) (server : Server) : Auth (Int × Server) :=
  match p.processRouteTable env.depth (env.routeTableId p.origTrunk.id) server with
  | none => throw .nullPointer
  | some (.error message, _) => fail message
  | some (.ok outcomeId, server') => return (outcomeId, server')

/-- A special outcome of the region, or a rejection where it has none. -/
def specialOutcome (request : Analysed) (outcomeId : Int) : Auth Unit :=
  if outcomeId = 0 then
    modifyResponse fun response => response.setReject
  else
    env.processOutcome request.processor request.server.toServer
      request.callIncomingFromMegatrunk outcomeId

/-- The answer to an analysed request. -/
def answerTo (request : Analysed) : BillResponse → Auth Unit
  | .voipDisabled => env.specialOutcome request request.server.blockedOutcomeId
  | .lowBalance => env.specialOutcome request request.server.lowBalanceOutcomeId
  | .reject => modifyResponse fun response => response.setReject
  | .accept => do
      let (outcomeId, server) ← env.routeOutcome request.processor request.server.toServer
      if outcomeId = 0 then
        modifyResponse fun response => response.setReleaseReason noRouteToDestination
      else
        env.processOutcome request.processor server request.callIncomingFromMegatrunk outcomeId

/-- The second part of `process`. -/
def answer : Admission → Auth Unit
  | .intercepted => modifyResponse fun response => response.setAccept
  | .analysed request => env.answerTo request request.billResponse

def processBody (request : RadiusAuthRequest) : Auth Unit := do
  let admitted ← env.admission request
  env.answer admitted

/-- What is answered when an exception has been caught. -/
def fallback (s : AuthState) : RadiusAuthResponse :=
  if s.origTrunk.isNone && env.ready then s.response.setReleaseReason noRouteToDestination
  else s.response.setAccept

/-- Blocks that have ended are removed before a request is looked at.  The source erases them
while it iterates, which is undefined when there is one; this is the removal it intends. -/
def start (blocked : AccountIdsBlocked) (pricing : PricingState) : AuthState where
  blocked := blocked.filter fun _ block => decide (env.now < block.2)
  pricing := pricing

/-- Exceptions are caught; `none` means that the process has ended. -/
def settle : Except CalcStop Unit × AuthState → Option (RadiusAuthResponse × AccountIdsBlocked)
  | (.ok (), s) => some (s.response, s.blocked)
  | (.error (.calcException _), s) => some (env.fallback s, s.blocked)
  | (.error .nullPointer, _) => none

def process (request : RadiusAuthRequest) (blocked : AccountIdsBlocked) (pricing : PricingState) :
    Option (RadiusAuthResponse × AccountIdsBlocked) :=
  env.settle (exec (env.processBody request) (env.start blocked pricing))

end AuthEnv
end VoipBill
