import VoipBill.Lib.Text
import VoipBill.Model.StateMegaTrunk

/-!
# The routing of a call

`RadiusAuthProcessor` answers an authorisation request.  Where billing lets the
call through, the route table of the trunk it comes from decides on an outcome:
its routes are tried in order, each may be restricted to lists of A and B
numbers, and a route leads to an outcome or to another route table.

An outcome may leave the choice to the prices.  Then the trunks open to automatic
routing are filtered by rules on the trunk and the numbers the call comes with,
and the settings of those that remain are offered unless their price is above the
cap of the region or leaves less than the margin that the originating setting
demands.

An exception ends the request; only its message is kept here.
-/

namespace VoipBill

/-! ## Tables of the routing -/

/-- A named list of numbers; `prefixlistIds` is an array as the database prints
it. -/
structure Number where
  id : Int := 0
  prefixlistIds : List Char := []
deriving DecidableEq, Inhabited, Repr

/-- The ids between the two braces; what is no positive number is skipped. -/
def Number.getPrefixlistIds (number : Number) : Except String (List Int) :=
  match Lib.Text.substr number.prefixlistIds 1 (number.prefixlistIds.length - 2) with
  | none => .error "basic_string::substr"
  | some text => .ok (((text.splitOn ',').map atoll).filter fun id => 0 < id)

structure Prefixlist where
  id : Int := 0
deriving DecidableEq, Inhabited, Repr

structure PrefixlistPrefix where
  prefixlistId : Int := 0
  leading : List Char := []
deriving DecidableEq, Inhabited, Repr

structure RouteTable where
  id : Int := 0
  serverId : Int := 0
deriving DecidableEq, Inhabited, Repr

structure RouteTableRoute where
  routeTableId : Int := 0
  aNumberId : Int := 0
  bNumberId : Int := 0
  outcomeId : Int := 0
  outcomeRouteTableId : Int := 0
deriving DecidableEq, Inhabited, Repr

structure Outcome where
  id : Int := 0
  typeId : Int := 0
deriving DecidableEq, Inhabited, Repr

def Outcome.isMegToReg (outcome : Outcome) : Bool := outcome.typeId == 6

def Outcome.isMegToMeg (outcome : Outcome) : Bool := outcome.typeId == 7

structure TrunkTrunkRule where
  trunkGroupId : Int := 0
  numberIdFilterA : Int := 0
  numberIdFilterB : Int := 0
deriving DecidableEq, Inhabited, Repr

structure TrunkRule where
  prefixlistId : Int := 0
deriving DecidableEq, Inhabited, Repr

structure TrunkPriority where
  priority : Int := 0
  numberIdFilterA : Int := 0
  numberIdFilterB : Int := 0
  trunkGroupId : Int := 0
deriving DecidableEq, Inhabited, Repr

structure TrunkGroup where
  id : Int := 0
deriving DecidableEq, Inhabited, Repr

/-- The tables that only routing reads.  Routes are loaded in the order of their
tables, and within a table in their own order. -/
structure RoutingTables where
  number : Int → Option Number := fun _ => none
  prefixlist : Int → Option Prefixlist := fun _ => none
  prefixlistPrefix : List PrefixlistPrefix := []
  routeTable : List RouteTable := []
  routeTableRoute : List RouteTableRoute := []
  outcome : Int → Option Outcome := fun _ => none
  /-- All trunks, in the order they are loaded in. -/
  trunks : List Trunk := []
  trunkGroup : Int → Option TrunkGroup := fun _ => none
  trunkGroupTrunkIds : Int → List Int := fun _ => []
  /-- By trunk, in their order. -/
  trunkTrunkRule : Int → List TrunkTrunkRule := fun _ => []
  /-- By trunk and direction, in their order. -/
  trunkRule : Int → Bool → List TrunkRule := fun _ _ => []
  /-- By trunk, in their order. -/
  trunkPriority : Int → List TrunkPriority := fun _ => []

namespace RoutingTables

variable (tables : RoutingTables)

def getRouteTable (id : Int) : Option RouteTable :=
  tables.routeTable.find? fun routeTable => routeTable.id == id

/-- `RouteTableRouteList::findAll`. -/
def getAllRouteTableRoutes (routeTableId : Int) : List RouteTableRoute :=
  tables.routeTableRoute.filter fun route => route.routeTableId == routeTableId

/-- `PrefixlistPrefixList::find`: the longest beginning of the number that is in
the list; the empty one does not count.  The source copies the number into a buffer of 20
characters, so numbers are shorter than that. -/
def getPrefixlistPrefix (prefixlistId : Int) (number : List Char) : Option PrefixlistPrefix :=
  (List.range number.length).reverse.findSome? fun len =>
    tables.prefixlistPrefix.find? fun row =>
      row.prefixlistId == prefixlistId && row.leading == number.take (len + 1)

/-- `TrunkList::findAllAutorouting`. -/
def getAllAutoRoutingTrunks (serverId : Int) (simblingRegions : List Int) : List Trunk :=
  tables.trunks.filter fun trunk =>
    trunk.autoRouting &&
      (trunk.serverId == serverId ||
        simblingRegions.contains trunk.serverId && trunk.swShared)

theorem id_of_getRouteTable {tables : RoutingTables} {id : Int} {routeTable : RouteTable}
    (h : tables.getRouteTable id = some routeTable) : routeTable.id = id := by
  have hid := List.find?_some h
  exact beq_iff_eq.mp hid

end RoutingTables

/-- A request on its way: what `init` and `process` have found before the route
table is evaluated. -/
structure RadiusAuthProcessor where
  repository : Repository
  tables : RoutingTables := {}
  origTrunk : Trunk := {}
  account : Option Client := none
  redirectNumber : List Char := []
  aNumber : List Char := []
  bNumber : List Char := []
  megaTrunk : MegaTrunk.Phase := {}

namespace RadiusAuthProcessor

variable (p : RadiusAuthProcessor)

/-! ## Number lists -/

/-- The loop of `filterByNumber` over the prefix lists of a number. -/
def matchesAny (strNumber : List Char) : List Int → Except String Bool
  | [] => .ok false
  | prefixlistId :: prefixlistIds =>
      match p.tables.prefixlist prefixlistId with
      | none => .error ("Prefixlist #" ++ toString prefixlistId ++ " not found")
      | some prefixlist =>
          if (p.tables.getPrefixlistPrefix prefixlist.id strNumber).isSome then .ok true
          else matchesAny strNumber prefixlistIds

def filterByNumber (numberId : Int) (strNumber : List Char) : Except String Bool :=
  match p.tables.number numberId with
  | none => .error ("Number #" ++ toString numberId ++ " not found")
  | some number => do
      let prefixlistIds ← number.getPrefixlistIds
      p.matchesAny strNumber prefixlistIds

/-! ## Route tables -/

/-- What one route asks for. -/
inductive RouteStep where
  | skip
  | outcome (outcomeId : Int)
  | table (routeTableId : Int)
deriving DecidableEq, Repr

/-- An outcome of a mega trunk counts only in its phase. -/
def isOutOfPhase (outcomeId : Int) : Bool :=
  match p.tables.outcome outcomeId with
  | none => false
  | some outcome =>
      outcome.isMegToReg && !p.megaTrunk.isPhase1 || outcome.isMegToMeg && !p.megaTrunk.isPhase2

/-- `!(number_id && !filterByNumber(number_id, number))`. -/
def admits (numberId : Int) (strNumber : List Char) : Except String Bool :=
  if numberId ≠ 0 then p.filterByNumber numberId strNumber else .ok true

/-- What a route leads to when the numbers are admitted. -/
def routeTarget (route : RouteTableRoute) : RouteStep :=
  if route.outcomeId ≠ 0 then
    if p.isOutOfPhase route.outcomeId then .skip else .outcome route.outcomeId
  else if route.outcomeRouteTableId ≠ 0 then
    .table route.outcomeRouteTableId
  else
    .skip

/-- The body of the loop of `processRouteTable` up to the recursive call.  The B
number is not looked at when the A number is not admitted. -/
def routeStep (route : RouteTableRoute) : Except String RouteStep := do
  if ← p.admits route.aNumberId p.aNumber then
    if ← p.admits route.bNumberId p.bNumber then
      return p.routeTarget route
  return .skip

/-- An answer of `processRouteTable`, with the server that routing goes on with.
An outcome 0 means that there is none. -/
abbrev RouteAnswer : Type := Except String Int × Server

/-- The loop over the routes of a table; `evaluate` is the recursive call, which
may fail to answer. -/
def processRoutes (evaluate : Int → Server → Option RouteAnswer) :
    List RouteTableRoute → Server → Option RouteAnswer
  | [], server => some (.ok 0, server)
  | route :: routes, server =>
      match p.routeStep route with
      | .error message => some (.error message, server)
      | .ok .skip => processRoutes evaluate routes server
      | .ok (.outcome outcomeId) => some (.ok outcomeId, server)
      | .ok (.table routeTableId) =>
          match evaluate routeTableId server with
          | none => none
          | some (.error message, server') => some (.error message, server')
          | some (.ok outcomeId, server') =>
              if outcomeId ≠ 0 then some (.ok outcomeId, server')
              else processRoutes evaluate routes server'

/-- The region of a route table becomes the region of the request. -/
def changeRegion (routeTable : RouteTable) (server : Server) : Server :=
  match p.repository.data.server routeTable.serverId with
  | none => server
  | some newServer => if server.id ≠ newServer.id then newServer else server

/-- `processRouteTable` with the recursion cut off at a depth; `none` means that
the depth was not enough. -/
def processRouteTable : Nat → Int → Server → Option RouteAnswer
  | 0, _, _ => none
  | depth + 1, routeTableId, server =>
      match p.tables.getRouteTable routeTableId with
      | none => some (.error ("Route table #" ++ toString routeTableId ++ " not found"), server)
      | some routeTable =>
          p.processRoutes (processRouteTable depth) (p.tables.getAllRouteTableRoutes routeTable.id)
            (p.changeRegion routeTable server)

/-! ## Rules of a terminating trunk -/

def matchTrunkGroup (trunkGroupId matchTrunkId : Int) : Except String Bool :=
  match p.tables.trunkGroup trunkGroupId with
  | none => .error ("TrunkGroup #" ++ toString trunkGroupId ++ " not found")
  | some _ => .ok ((p.tables.trunkGroupTrunkIds trunkGroupId).contains matchTrunkId)

def matchPrefixlist (prefixlistId : Int) (strNumber : List Char) : Except String Bool :=
  match p.tables.prefixlist prefixlistId with
  | none => .error ("Prefixlist #" ++ toString prefixlistId ++ " not found")
  | some prefixlist => .ok (p.tables.getPrefixlistPrefix prefixlist.id strNumber).isSome

/-- `f = true; if (number_id > 0) f = filterByNumber(number_id, number)`. -/
def filterIfSet (numberId : Int) (strNumber : List Char) : Except String Bool :=
  if 0 < numberId then p.filterByNumber numberId strNumber else .ok true

/-- The numbers are in the lists, and then the trunk of the call in the group. -/
def matchesFilters (numberIdFilterA numberIdFilterB trunkGroupId : Int) :
    Except String Bool := do
  let fA ← p.filterIfSet numberIdFilterA p.aNumber
  let fB ← p.filterIfSet numberIdFilterB p.bNumber
  if fA && fB then p.matchTrunkGroup trunkGroupId p.origTrunk.id else return false

/-- A rule of a trunk that is open by default: a missing trunk group stands for
every trunk, and all three tests are made. -/
def matchesExclusion (rule : TrunkTrunkRule) : Except String Bool := do
  let fA ← p.filterIfSet rule.numberIdFilterA p.aNumber
  let fB ← p.filterIfSet rule.numberIdFilterB p.bNumber
  let fTrunkGroup ←
    if 0 < rule.trunkGroupId then p.matchTrunkGroup rule.trunkGroupId p.origTrunk.id
    else pure true
  return fA && fB && fTrunkGroup

def autoTrunkFilterSrcTrunk (termTrunk : Trunk) : Except String Bool := do
  let rules := p.tables.trunkTrunkRule termTrunk.id
  if termTrunk.sourceTrunkRuleDefaultAllowed then
    return !(← rules.anyM p.matchesExclusion)
  else
    rules.anyM fun rule =>
      p.matchesFilters rule.numberIdFilterA rule.numberIdFilterB rule.trunkGroupId

/-- The rules of a trunk on one of the numbers name the exceptions from the
default. -/
def autoTrunkFilterNumber (defaultAllowed : Bool) (rules : List TrunkRule)
    (strNumber : List Char) : Except String Bool := do
  let found ← rules.anyM fun rule => p.matchPrefixlist rule.prefixlistId strNumber
  return if defaultAllowed then !found else found

def autoTrunkFilterSrcNumber (termTrunk : Trunk) : Except String Bool :=
  p.autoTrunkFilterNumber termTrunk.sourceRuleDefaultAllowed
    (p.tables.trunkRule termTrunk.id false) p.aNumber

def autoTrunkFilterDstNumber (termTrunk : Trunk) : Except String Bool :=
  p.autoTrunkFilterNumber termTrunk.destinationRuleDefaultAllowed
    (p.tables.trunkRule termTrunk.id true) p.bNumber

/-- The tests of `getAvailableTermServiceTrunk` on a trunk, in their order. -/
def acceptsTrunk (skipLoopProtection : Bool) (termTrunk : Trunk) : Except String Bool := do
  if p.origTrunk.id == termTrunk.id && !skipLoopProtection then
    return false
  if !(← p.autoTrunkFilterSrcTrunk termTrunk) then
    return false
  if !(← p.autoTrunkFilterSrcNumber termTrunk) then
    return false
  if !(← p.autoTrunkFilterDstNumber termTrunk) then
    return false
  return !(p.origTrunk.origRedirectNumber && !p.redirectNumber.isEmpty &&
    !termTrunk.termRedirectNumber)

/-! ## Prices of an offer -/

def minMarginAbsent : Int := 0

def minMarginPercent : Int := 1

def minMarginValue : Int := 2

end RadiusAuthProcessor

def Repository.priceToRoubles (r : Repository) (price : ℚ) (currencyId : List Char) : ℚ :=
  match r.data.currencyRate currencyId with
  | some rate => if 0.00000001 < rate then price * rate else price
  | none => price

namespace ServiceTrunkOrder

variable (order : ServiceTrunkOrder)

def isPricePresent : Bool :=
  (match order.price, order.pricelist with
    | some price, some _ => decide (0.000001 < |price.price|)
    | _, _ => false) ||
  (match order.nnpPackage, order.nnpPackagePrice with
    | some _, some nnpPackagePrice => decide (0.000001 < |nnpPackagePrice.price|)
    | _, _ => false) ||
  (match order.nnpPackage, order.nnpPackagePricelist with
    | some _, some _ => decide (0.000001 < |order.nnpPrice|)
    | _, _ => false)

def getCurrency : Option (List Char) :=
  match order.pricelist with
  | some pricelist => some pricelist.currencyId
  | none => order.nnpPackage.map (·.currencyId)

def getPrice : ℚ :=
  match order.price with
  | some price => price.price
  | none => order.nnpPrice

end ServiceTrunkOrder

namespace RadiusAuthProcessor

variable (p : RadiusAuthProcessor)

/-- `priceToRoubles(order.getPrice(), order.getCurrency())`. -/
def orderToRoubles (order : ServiceTrunkOrder) : Except String ℚ :=
  match order.getCurrency with
  | none => .error "Invalid arguments passed into getCurrencyRate()"
  | some currencyId => .ok (p.repository.priceToRoubles order.getPrice currencyId)

/-- The order is declined for its price. -/
def isAboveCap (server : Server) (termOrder : ServiceTrunkOrder) : Bool :=
  decide (0 < server.minPriceForAutorouting) &&
    (match termOrder.price, termOrder.pricelist with
      | some price, some pricelist =>
          decide ((server.minPriceForAutorouting : ℚ) <
            p.repository.priceToRoubles price.price pricelist.currencyId)
      | _, _ => false) &&
    (match p.account with
      | some account => !account.antiFraudDisabled
      | none => false)

/-- The margin of a route: a share of the terminating price or an amount. -/
def trunkMargin (minimumMarginType : Int) (origRub termRub : ℚ) : ℚ :=
  let profit := origRub - termRub
  if minimumMarginType = minMarginValue then profit else profit / termRub * 100

/-- The order is declined for its margin. -/
def missesMargin (origOrder termOrder : ServiceTrunkOrder) : Except String Bool :=
  match origOrder.trunkSettings with
  | none => .ok false
  | some origSettings =>
      if origSettings.minimumMarginType ≠ minMarginAbsent ∧ termOrder.isPricePresent ∧
          origOrder.isPricePresent then
        if origSettings.minimumMarginType = minMarginPercent ∨
            origSettings.minimumMarginType = minMarginValue then do
          let origRub ← p.orderToRoubles origOrder
          let termRub ← p.orderToRoubles termOrder
          return decide (0.000001 < origRub ∧ 0.000001 < termRub ∧
            trunkMargin origSettings.minimumMarginType origRub termRub <
              origSettings.minimumMargin)
        else
          .ok false
      else
        .ok false

def acceptsOrder (server : Server) (origOrder termOrder : ServiceTrunkOrder) :
    Except String Bool :=
  if p.isAboveCap server termOrder then .ok false
  else do return !(← p.missesMargin origOrder termOrder)

/-! ## The offered routes -/

/-- Pricing functions read nothing of their environment but the repository. -/
def pricingEnv : PricingEnv where
  repository := p.repository
  cdr := {}

def orStop {α : Type} : Except String α → Pricing α
  | .ok a => pure a
  | .error message => throw (.calcException message)

def getAvailableOrigServiceTrunk : Pricing ServiceTrunkOrder := do
  let orders ← BillingCall.getTrunkSettingsOrderList p.pricingEnv p.origTrunk (atoll p.aNumber)
    (atoll p.bNumber) BillingCall.serviceTrunkSettingsOrigination
  return (p.repository.orderOrigTrunkSettingsOrderList orders).head?.getD {}

/-- The orders that one terminating trunk offers. -/
def termTrunkOrders (server : Server) (origOrder : ServiceTrunkOrder)
    (fUseMinimalki skipLoopProtection : Bool) (now : Int) (termTrunk : Trunk) :
    Pricing (List ServiceTrunkOrder) := do
  if ← orStop (p.acceptsTrunk skipLoopProtection termTrunk) then
    let orders ← BillingCall.getTrunkSettingsOrderList p.pricingEnv termTrunk (atoll p.aNumber)
      (atoll p.bNumber) BillingCall.serviceTrunkSettingsTermination
    let ordered ← BillingCall.orderTermTrunkSettingsOrderList p.pricingEnv orders fUseMinimalki now
    let offered ← ordered.mapM fun termOrder => do
      if ← orStop (p.acceptsOrder server origOrder termOrder) then
        return [termOrder]
      else
        return []
    return offered.flatten
  else
    return []

/-- The loop over the priorities of a trunk: the first that matches counts. -/
def priorityOf (defaultPriority : Int) : List TrunkPriority → Except String Int
  | [] => .ok defaultPriority
  | trunkPriority :: trunkPriorities => do
      if ← p.matchesFilters trunkPriority.numberIdFilterA trunkPriority.numberIdFilterB
          trunkPriority.trunkGroupId then
        return trunkPriority.priority
      else
        priorityOf defaultPriority trunkPriorities

def withPriority (order : ServiceTrunkOrder) : Except String ServiceTrunkOrder :=
  match order.trunk with
  | none => .ok order
  | some trunk => do
      let priority ← p.priorityOf trunk.defaultPriority (p.tables.trunkPriority trunk.id)
      return { order with priority := priority }

def getAvailableTermServiceTrunk (server : Server) (origOrder : ServiceTrunkOrder)
    (fUseMinimalki skipLoopProtection : Bool) (now : Int) : Pricing (List ServiceTrunkOrder) := do
  let simblingRegions := p.repository.data.simblingRegion server.id
  let termTrunks := p.tables.getAllAutoRoutingTrunks server.id simblingRegions
  let offered ← termTrunks.mapM
    (p.termTrunkOrders server origOrder fUseMinimalki skipLoopProtection now)
  let prioritised ← offered.flatten.mapM fun order => orStop (p.withPriority order)
  BillingCall.orderTermTrunkSettingsOrderList p.pricingEnv prioritised fUseMinimalki now

/-- The first half of `processAutoOutcome`: the originating order and the routes it
is offered. -/
def autoRoutes (server : Server) (skipLoopProtection : Bool) (now : Int) :
    Pricing (ServiceTrunkOrder × List ServiceTrunkOrder) := do
  let origOrder ← p.getAvailableOrigServiceTrunk
  let termOrders ← p.getAvailableTermServiceTrunk server origOrder p.origTrunk.swMinimalki
    skipLoopProtection now
  return (origOrder, termOrders)

end RadiusAuthProcessor
end VoipBill
