import VoipBill.Lib.KeyedSearch
import VoipBill.Model.LoadedLists
import VoipBill.Model.RadiusAuthProcessor

/-!
# Tables that are searched by their keys

The lists of `lists/` that are loaded in the order of their keys and searched key by key.  A row
carries the columns its list is sorted or searched by, besides the record that the rest of the
program uses.

`LoadedTables` collects the lists; `dataContainer` and `routingTables` answer the lookups of
`DataContainer` and `RoutingTables` with their searches.
-/

namespace VoipBill

open Lib.BinarySearch

/-! ## Rows -/

/-- A row of `billing.service_number`. -/
structure NumberRow extends ServiceNumber where
  activationDt : Int := 0
  expireDt : Int := 0
  techNumber : List Char := []
  isLocal : Bool := false
deriving DecidableEq

structure GeoPrefixRow extends GeoPrefix where
  leading : List Char := []

structure MobPrefixRow extends MobPrefix where
  leading : List Char := []

structure NetworkPrefixRow where
  networkConfigId : Int := 0
  leading : List Char := []
  networkTypeId : Int := 0
  dateFrom : Int := 0
  dateTo : Int := 0

structure ServerRow extends Server where
  hubId : Int := 0

structure TrunkRuleRow extends TrunkRule where
  trunkId : Int := 0
  outgoing : Bool := false
  order : Int := 0

structure TrunkPriorityRow extends TrunkPriority where
  trunkId : Int := 0
  order : Int := 0

structure TrunkTrunkRuleRow extends TrunkTrunkRule where
  trunkId : Int := 0
  order : Int := 0

structure TrunkNumberPreprocessingRow extends TrunkNumberPreprocessing where
  trunkId : Int := 0
  order : Int := 0

structure TrunkGroupItem where
  trunkGroupId : Int := 0
  trunkId : Int := 0

structure StatDestinationPrefixlists where
  destinationId : Int := 0
  prefixlistId : Int := 0

/-! ## One key -/

/-- `find` of the lists that are sorted by `id`. -/
def findById {ρ : Type} (id : ρ → Int) (data : List ρ) (value : Int) : Option ρ :=
  front data (keyRange id value data (0, data.length))

def TrunkTrunkRuleList.findTrunkGroupRules (data : List TrunkTrunkRuleRow) (trunkId : Int) :
    List TrunkTrunkRuleRow :=
  slice data (keyRange (fun rule => rule.trunkId) trunkId data (0, data.length))

def TrunkGroupItemList.findTrunkIds (data : List TrunkGroupItem) (trunkGroupId : Int) : List Int :=
  (slice data (keyRange (fun item => item.trunkGroupId) trunkGroupId data (0, data.length))).map
    fun item => item.trunkId

def StatDestinationPrefixlistsList.findAll (data : List StatDestinationPrefixlists)
    (destinationId : Int) : List Int :=
  (slice data (keyRange (fun item => item.destinationId) destinationId data (0, data.length))).map
    fun item => item.prefixlistId

def RouteTableRouteList.findAll (data : List RouteTableRoute) (routeTableId : Int) :
    List RouteTableRoute :=
  slice data (keyRange (fun route => route.routeTableId) routeTableId data (0, data.length))

def TrunkPriorityList.findAllTrunkPriority (data : List TrunkPriorityRow) (trunkId : Int) :
    List TrunkPriorityRow :=
  slice data (keyRange (fun priority => priority.trunkId) trunkId data (0, data.length))

/-- `TrunkByNameList::find`; `TrunkByAliasList::find` is written the same and compares the
names, too.  Trunks of other regions are skipped. -/
def TrunkByNameList.find (data : List Trunk) (trunkName : List Char)
    (simblingRegions : List Int) : Option Trunk :=
  (slice data (keyRange (fun trunk => trunk.trunkName) trunkName data (0, data.length))).find?
    fun trunk => simblingRegions.contains trunk.serverId

def TrunkByAliasList.find (data : List Trunk) (trunkName : List Char)
    (simblingRegions : List Int) : Option Trunk :=
  TrunkByNameList.find data trunkName simblingRegions

/-! ## Several keys -/

def TrunkNumberPreprocessingList.find (data : List TrunkNumberPreprocessingRow)
    (trunkId order : Int) : Option TrunkNumberPreprocessingRow :=
  front data (keyRange (fun row => row.order) order data
    (keyRange (fun row => row.trunkId) trunkId data (0, data.length)))

def ServiceTrunkSettingsList.findAll (data : List ServiceTrunkSettings) (trunkId type : Int) :
    List ServiceTrunkSettings :=
  slice data (keyRange (fun row => row.type) type data
    (keyRange (fun row => row.trunkId) trunkId data (0, data.length)))

def TrunkRuleList.findAll (data : List TrunkRuleRow) (trunkId : Int) (outgoing : Bool) :
    List TrunkRuleRow :=
  slice data (keyRange (fun rule => rule.outgoing) outgoing data
    (keyRange (fun rule => rule.trunkId) trunkId data (0, data.length)))

/-! ## A key and the time of activation -/

def ServiceNumberList.find (data : List NumberRow) (numberPrefix timestamp : Int) :
    Option NumberRow :=
  let range := keyRange (fun row => row.did) (decimal numberPrefix) data (0, data.length)
  let range := upTo (fun row => row.activationDt) timestamp data range
  (slice data range).find? fun row => decide (timestamp ≤ row.expireDt)

/-- The comparisons with a row without a technical number are both true. -/
def ServiceNumberByTechNumberList.find (data : List NumberRow) (technicalNumber timestamp : Int) :
    Option NumberRow :=
  let range := equalRange
    (fun left =>
      if left.techNumber ≠ [] then decide (left.techNumber < decimal technicalNumber) else true)
    (fun right =>
      if right.techNumber ≠ [] then decide (decimal technicalNumber < right.techNumber) else true)
    data (0, data.length)
  let range := upTo (fun row => row.activationDt) timestamp data range
  (slice data range).find? fun row => decide (timestamp ≤ row.expireDt)

namespace ServiceTrunkList

def findAll (data : List ServiceTrunk) (trunkId timestamp : Int) : List ServiceTrunk :=
  let range := keyRange (fun row => row.trunkId) trunkId data (0, data.length)
  let range := upTo (fun row => row.activationDt) timestamp data range
  (slice data range).filter fun row => decide (timestamp ≤ row.expireDt)

def find (data : List ServiceTrunk) (trunkId timestamp : Int) : Option ServiceTrunk :=
  (findAll data trunkId timestamp).head?

def findAllByClientID (data : List ServiceTrunk) (clientId : Int) : List ServiceTrunk :=
  data.filter fun row => row.clientAccountId == clientId

end ServiceTrunkList

def ServiceNumberPackageList.findAll (data : List ServicePackage) (serviceNumberId timestamp : Int) :
    List ServicePackage :=
  let range := keyRange (fun row => row.serviceNumberId) serviceNumberId data (0, data.length)
  let range := upTo (fun row => row.activationDt) timestamp data range
  (slice data range).filter fun row => decide (timestamp < row.expireDt)

def ServiceTrunkPackageList.findAll (data : List ServicePackage) (serviceTrunkId timestamp : Int) :
    List ServicePackage :=
  let range := keyRange (fun row => row.serviceTrunkId) serviceTrunkId data (0, data.length)
  let range := upTo (fun row => row.activationDt) timestamp data range
  (slice data range).filter fun row => decide (timestamp < row.expireDt)

/-! ## Prefixes -/

namespace GeoPrefixList

/-- `_find`. -/
def findByPrefix (data : List GeoPrefixRow) (start : List Char) : Option GeoPrefixRow :=
  if start = [] then none
  else front data (keyRange (fun row => row.leading) start data (0, data.length))

def find (data : List GeoPrefixRow) (number : Int) : Option GeoPrefixRow :=
  longest (findByPrefix data) (decimal number) (decimal number).length

end GeoPrefixList

namespace MobPrefixList

def findByPrefix (data : List MobPrefixRow) (start : List Char) : Option MobPrefixRow :=
  if start = [] then none
  else front data (keyRange (fun row => row.leading) start data (0, data.length))

def find (data : List MobPrefixRow) (number : Int) : Option MobPrefixRow :=
  longest (findByPrefix data) (decimal number) (decimal number).length

end MobPrefixList

namespace NetworkPrefixList

def findByPrefix (data : List NetworkPrefixRow) (networkConfigId : Int) (start : List Char)
    (timestamp : Int) : Option NetworkPrefixRow :=
  let range := keyRange (fun row => row.networkConfigId) networkConfigId data (0, data.length)
  let range := if start ≠ [] then keyRange (fun row => row.leading) start data range else range
  let range := equalRange (fun left => decide (left.dateTo < timestamp))
    (fun right => decide (timestamp < right.dateFrom)) data range
  front data range

def find (data : List NetworkPrefixRow) (networkConfigId number timestamp : Int) :
    Option NetworkPrefixRow :=
  longest (fun start => findByPrefix data networkConfigId start timestamp) (decimal number)
    (decimal number).length

end NetworkPrefixList

namespace PrefixlistPrefixList

def findByPrefix (data : List PrefixlistPrefix) (prefixlistId : Int) (start : List Char) :
    Option PrefixlistPrefix :=
  let range := keyRange (fun row => row.prefixlistId) prefixlistId data (0, data.length)
  let range := if start ≠ [] then keyRange (fun row => row.leading) start data range else range
  front data range

/-- The source copies the number into a buffer of 20 characters, so it has to be shorter than
that. -/
def find (data : List PrefixlistPrefix) (prefixlistId : Int) (text : List Char) :
    Option PrefixlistPrefix :=
  longest (findByPrefix data prefixlistId) text text.length

end PrefixlistPrefixList

/-! ## Regions -/

namespace ServerList

def find (data : List ServerRow) (id : Int) : Option ServerRow :=
  findById (fun server => server.id) data id

/-- The servers on the hub of a server; a server without a hub is alone. -/
def getSimblingRegion (data : List ServerRow) (serverId : Int) : List Int :=
  match find data serverId with
  | none => []
  | some server =>
      if 0 < server.hubId then
        (data.filter fun other => other.hubId == server.hubId).map fun other => other.id
      else [serverId]

/-- `instanceId` and `hubId` are settings of the instance. -/
def isRegionOnHub (data : List ServerRow) (instanceId hubId region : Int) : Bool :=
  instanceId == region ||
    decide (0 < hubId) && (find data region).elim false fun server => server.hubId == hubId

end ServerList

/-! ## All lists -/

structure LoadedTables where
  instanceId : Int := 0
  hubId : Int := 0
  server : List ServerRow := []
  /-- In the order of their names; the order of trunks with one name is not determined. -/
  trunkByName : List Trunk := []
  trunkByAlias : List Trunk := []
  trunk : List Trunk := []
  client : List Client := []
  tariff : List Tariff := []
  tariffPackage : List TariffPackage := []
  pricelist : List Pricelist := []
  geo : List Geo := []
  statPrefixlist : List StatPrefixlist := []
  nnpPackage : List NNPPackage := []
  serviceNumber : List NumberRow := []
  serviceNumberByTechNumber : List NumberRow := []
  serviceTrunk : List ServiceTrunk := []
  serviceTrunkSettings : List ServiceTrunkSettings := []
  trunkNumberPreprocessing : List TrunkNumberPreprocessingRow := []
  statDestinationPrefixlists : List StatDestinationPrefixlists := []
  geoPrefix : List GeoPrefixRow := []
  mobPrefix : List MobPrefixRow := []
  networkPrefix : List NetworkPrefixRow := []
  number : List Number := []
  prefixlist : List Prefixlist := []
  prefixlistPrefix : List PrefixlistPrefix := []
  routeTable : List RouteTable := []
  routeTableRoute : List RouteTableRoute := []
  outcome : List Outcome := []
  trunkGroup : List TrunkGroup := []
  trunkGroupItem : List TrunkGroupItem := []
  trunkTrunkRule : List TrunkTrunkRuleRow := []
  trunkRule : List TrunkRuleRow := []
  trunkPriority : List TrunkPriorityRow := []

namespace LoadedTables

variable (t : LoadedTables)

/-- `Repository::getTrunkByName` for a name that is not empty. -/
def getTrunkByName (trunkName : List Char) (orgServerId : Int) : Option Trunk :=
  let serverId := if 0 < orgServerId then orgServerId else t.instanceId
  let simblingRegions := ServerList.getSimblingRegion t.server serverId
  match TrunkByNameList.find t.trunkByName trunkName simblingRegions with
  | some trunk => some trunk
  | none => TrunkByAliasList.find t.trunkByAlias trunkName simblingRegions

/-- The loop of `numberPreprocessing` over the orders from `order` on. -/
def preprocessingLoop (find : Int → Option TrunkNumberPreprocessingRow) :
    Nat → Int → List TrunkNumberPreprocessing
  | 0, _ => []
  | fuel + 1, order =>
      match find order with
      | none => []
      | some row => row.toTrunkNumberPreprocessing :: preprocessingLoop find fuel (order + 1)

/-- Every order that is found is one of the table, so the loop ends within its length. -/
def preprocessingRules (trunkId : Int) : List TrunkNumberPreprocessing :=
  preprocessingLoop (TrunkNumberPreprocessingList.find t.trunkNumberPreprocessing trunkId)
    t.trunkNumberPreprocessing.length 1

/-- The lookups of pricing, answered by searches in the lists.  What is searched in other ways
is taken from `base`. -/
def dataContainer (base : DataContainer) : DataContainer :=
  { base with
    trunkByName := t.getTrunkByName
    trunk := findById (fun trunk => trunk.id) t.trunk
    server := fun id => (ServerList.find t.server id).map ServerRow.toServer
    simblingRegion := ServerList.getSimblingRegion t.server
    isRegionOnHub := ServerList.isRegionOnHub t.server t.instanceId t.hubId
    trunkNumberPreprocessing := t.preprocessingRules
    client := findById (fun client => client.id) t.client
    serviceNumber := fun number timestamp =>
      (ServiceNumberList.find t.serviceNumber number timestamp).map NumberRow.toServiceNumber
    serviceNumberByTechNumber := fun number timestamp =>
      (ServiceNumberByTechNumberList.find t.serviceNumberByTechNumber number timestamp).map
        NumberRow.toServiceNumber
    serviceTrunk := ServiceTrunkList.find t.serviceTrunk
    serviceTrunks := ServiceTrunkList.findAll t.serviceTrunk
    serviceTrunkByClientId := ServiceTrunkList.findAllByClientID t.serviceTrunk
    serviceTrunkSettings := ServiceTrunkSettingsList.findAll t.serviceTrunkSettings
    tariffPackage := findById (fun tariff => tariff.id) t.tariffPackage
    tariff := findById (fun tariff => tariff.id) t.tariff
    pricelist := findById (fun pricelist => pricelist.id) t.pricelist
    networkPrefix := fun networkConfigId number timestamp =>
      (NetworkPrefixList.find t.networkPrefix networkConfigId number timestamp).map
        fun row => row.networkTypeId
    statDestinationPrefixlists :=
      StatDestinationPrefixlistsList.findAll t.statDestinationPrefixlists
    statPrefixlist := findById (fun statPrefixlist => statPrefixlist.id) t.statPrefixlist
    mobPrefix := fun number => (MobPrefixList.find t.mobPrefix number).map MobPrefixRow.toMobPrefix
    geoPrefix := fun number => (GeoPrefixList.find t.geoPrefix number).map GeoPrefixRow.toGeoPrefix
    geo := findById (fun geo => geo.id) t.geo
    nnpPackage := findById (fun nnpPackage => nnpPackage.id) t.nnpPackage }

/-- The lookups of routing. -/
def routingTables (base : RoutingTables) : RoutingTables :=
  { base with
    number := findById (fun number => number.id) t.number
    prefixlist := findById (fun prefixlist => prefixlist.id) t.prefixlist
    prefixlistPrefix := t.prefixlistPrefix
    routeTable := t.routeTable
    routeTableRoute := t.routeTableRoute
    outcome := findById (fun outcome => outcome.id) t.outcome
    trunks := t.trunk
    trunkGroup := findById (fun trunkGroup => trunkGroup.id) t.trunkGroup
    trunkGroupTrunkIds := TrunkGroupItemList.findTrunkIds t.trunkGroupItem
    trunkTrunkRule := fun trunkId =>
      (TrunkTrunkRuleList.findTrunkGroupRules t.trunkTrunkRule trunkId).map
        TrunkTrunkRuleRow.toTrunkTrunkRule
    trunkRule := fun trunkId outgoing =>
      (TrunkRuleList.findAll t.trunkRule trunkId outgoing).map TrunkRuleRow.toTrunkRule
    trunkPriority := fun trunkId =>
      (TrunkPriorityList.findAllTrunkPriority t.trunkPriority trunkId).map
        TrunkPriorityRow.toTrunkPriority }

end LoadedTables
end VoipBill
