import VoipBill.Lib.Refresh

/-!
# The loader of the reference data

`ThreadLoader` keeps the lists of `DataContainer` up to date with the tables of the
local database.  Its plan is read off three places of the source: the queries of the
lists name the tables (`DataList.sources`), `ThreadLoader::run` names the lists that
are loaded for an event (`listsOf`), and `DataContainer::loadAll` names the lists that
`do_load_data` loads (`loadAll`).

The steps are those of `Lib.Refresh`: `clear` is `DELETE from event.queue` of
`do_load_data`, `read` and `swap` are the query and the exchange of `BaseData::load`,
`select`, `fetch` and `remove` are the query, `res.next()` and the deletion of
`ThreadLoader::run`, and `fail` is an exception anywhere in between: `do_load_data` is
then tried again, and `run` starts again with a new query.

`activeCounter` is computed from two of the lists and is not loaded from a table.
-/

namespace VoipBill

open Lib

/-- The tables that lists are loaded from, by the events of their changes. -/
inductive LoadedTable where
  | server | instanceSettings | hub | airp | number | outcome | prefixlist | prefixlistPrefix
  | releaseReason | routeCase | routeTable | routeTableRoute | trunk | trunkGroup
  | trunkGroupItem | trunkNumberPreprocessing | trunkPriority | trunkRule | trunkTrunkRule
  | clients | organization | operator | pricelist | defs | networkPrefix | geo | mobPrefix
  | geoPrefix | serviceNumber | servicePackage | serviceTrunk | serviceTrunkSettings | tariff
  | tariffPackage | tariffChangeLog | statDestinationPrefixlists | statPrefixlist
  | currencyRate | nnpDestination | nnpNumberRangePrefix | nnpPackage | nnpPackagePrice
  | nnpPrefix | nnpRegion | nnpNumberRange | nnpOperator | nnpPackageMinute
  | nnpPackagePricelist | nnpPrefixDestination | nnpAccountTariffLight | nnpCountry
deriving DecidableEq, Repr

/-- The lists of `DataContainer` that are loaded from tables. -/
inductive DataList where
  | server | instanceSettings | hub | airp | number | outcome | prefixlist | prefixlistPrefix
  | releaseReason | routeCase | routeTable | routeTableRoute | trunk | trunkGroup
  | trunkGroupItem | trunkByName | trunkByAlias | trunkNumberPreprocessing | trunkPriority
  | trunkRule | trunkTrunkRule | client | organization | voipOperator | pricelist
  | pricelistPrice | networkPrefix | geo | mobPrefix | geoPrefix | serviceNumber
  | serviceNumberByTechNumber | serviceNumberPackage | serviceTrunk | serviceTrunkPackage
  | serviceTrunkSettings | tariff | tariffPackage | tariffChangeLog
  | statDestinationPrefixlists | statPrefixlist | currencyRate | nnpDestination
  | nnpNumberRangePrefix | nnpPackage | nnpPackagePrice | nnpPrefix | nnpRegion
  | nnpNumberRange | nnpOperator | nnpPackageMinute | nnpPackagePricelist
  | nnpPrefixDestination | nnpAccountTariffLight | nnpCountry
deriving DecidableEq, Repr

/-- The name of the row of `event.queue` that a change of the table puts there. -/
def LoadedTable.event : LoadedTable → String
  | .server => "server"
  | .instanceSettings => "instance_settings"
  | .hub => "hub"
  | .airp => "airp"
  | .number => "number"
  | .outcome => "outcome"
  | .prefixlist => "prefixlist"
  | .prefixlistPrefix => "prefixlist_prefix"
  | .releaseReason => "release_reason"
  | .routeCase => "route_case"
  | .routeTable => "route_table"
  | .routeTableRoute => "route_table_route"
  | .trunk => "trunk"
  | .trunkGroup => "trunk_group"
  | .trunkGroupItem => "trunk_group_item"
  | .trunkNumberPreprocessing => "trunk_number_preprocessing"
  | .trunkPriority => "trunk_priority"
  | .trunkRule => "trunk_rule"
  | .trunkTrunkRule => "trunk_trunk_rule"
  | .clients => "clients"
  | .organization => "organization"
  | .operator => "operator"
  | .pricelist => "pricelist"
  | .defs => "defs"
  | .networkPrefix => "network_prefix"
  | .geo => "geo"
  | .mobPrefix => "mob_prefix"
  | .geoPrefix => "prefix"
  | .serviceNumber => "service_number"
  | .servicePackage => "service_package"
  | .serviceTrunk => "service_trunk"
  | .serviceTrunkSettings => "service_trunk_settings"
  | .tariff => "tariff"
  | .tariffPackage => "tariff_package"
  | .tariffChangeLog => "tariff_change_log"
  | .statDestinationPrefixlists => "stat_destination_prefixlists"
  | .statPrefixlist => "stat_prefixlist"
  | .currencyRate => "currency_rate"
  | .nnpDestination => "nnp_destination"
  | .nnpNumberRangePrefix => "nnp_number_range_prefix"
  | .nnpPackage => "nnp_package"
  | .nnpPackagePrice => "nnp_package_price"
  | .nnpPrefix => "nnp_prefix"
  | .nnpRegion => "nnp_region"
  | .nnpNumberRange => "nnp_number_range"
  | .nnpOperator => "nnp_operator"
  | .nnpPackageMinute => "nnp_package_minute"
  | .nnpPackagePricelist => "nnp_package_pricelist"
  | .nnpPrefixDestination => "nnp_prefix_destination"
  | .nnpAccountTariffLight => "nnp_account_tariff_light"
  | .nnpCountry => "nnp_country"

/-- The tables in the query of a list.  The accounts are loaded with two flags that
say whether they have numbers and trunks. -/
def DataList.sources : DataList → List LoadedTable
  | .server => [.server]
  | .instanceSettings => [.instanceSettings]
  | .hub => [.hub]
  | .airp => [.airp]
  | .number => [.number]
  | .outcome => [.outcome]
  | .prefixlist => [.prefixlist]
  | .prefixlistPrefix => [.prefixlistPrefix]
  | .releaseReason => [.releaseReason]
  | .routeCase => [.routeCase]
  | .routeTable => [.routeTable]
  | .routeTableRoute => [.routeTableRoute]
  | .trunk => [.trunk]
  | .trunkGroup => [.trunkGroup]
  | .trunkGroupItem => [.trunkGroupItem]
  | .trunkByName => [.trunk]
  | .trunkByAlias => [.trunk]
  | .trunkNumberPreprocessing => [.trunkNumberPreprocessing]
  | .trunkPriority => [.trunkPriority]
  | .trunkRule => [.trunkRule]
  | .trunkTrunkRule => [.trunkTrunkRule]
  | .client => [.clients, .serviceTrunk, .serviceNumber]
  | .organization => [.organization]
  | .voipOperator => [.operator]
  | .pricelist => [.pricelist]
  | .pricelistPrice => [.defs]
  | .networkPrefix => [.networkPrefix]
  | .geo => [.geo]
  | .mobPrefix => [.mobPrefix]
  | .geoPrefix => [.geoPrefix]
  | .serviceNumber => [.serviceNumber]
  | .serviceNumberByTechNumber => [.serviceNumber]
  | .serviceNumberPackage => [.servicePackage]
  | .serviceTrunk => [.serviceTrunk]
  | .serviceTrunkPackage => [.servicePackage]
  | .serviceTrunkSettings => [.serviceTrunkSettings]
  | .tariff => [.tariff]
  | .tariffPackage => [.tariffPackage]
  | .tariffChangeLog => [.tariffChangeLog]
  | .statDestinationPrefixlists => [.statDestinationPrefixlists]
  | .statPrefixlist => [.statPrefixlist]
  | .currencyRate => [.currencyRate]
  | .nnpDestination => [.nnpDestination]
  | .nnpNumberRangePrefix => [.nnpNumberRangePrefix]
  | .nnpPackage => [.nnpPackage]
  | .nnpPackagePrice => [.nnpPackagePrice]
  | .nnpPrefix => [.nnpPrefix]
  | .nnpRegion => [.nnpRegion]
  | .nnpNumberRange => [.nnpNumberRange]
  | .nnpOperator => [.nnpOperator]
  | .nnpPackageMinute => [.nnpPackageMinute]
  | .nnpPackagePricelist => [.nnpPackagePricelist]
  | .nnpPrefixDestination => [.nnpPrefixDestination]
  | .nnpAccountTariffLight => [.nnpAccountTariffLight]
  | .nnpCountry => [.nnpCountry]

namespace ThreadLoader

/-- The branches of `run`.  An event without a branch loads nothing. -/
def listsOf : String → List DataList
  | "clients" => [.client]
  | "airp" => [.airp]
  | "number" => [.number]
  | "outcome" => [.outcome]
  | "prefixlist" => [.prefixlist]
  | "prefixlist_prefix" => [.prefixlistPrefix]
  | "release_reason" => [.releaseReason]
  | "route_case" => [.routeCase]
  | "route_table" => [.routeTable]
  | "route_table_route" => [.routeTableRoute]
  | "routing_report_data" => []
  | "trunk" => [.trunk, .trunkByName, .trunkByAlias]
  | "trunk_group" => [.trunkGroup]
  | "trunk_group_item" => [.trunkGroupItem]
  | "trunk_number_preprocessing" => [.trunkNumberPreprocessing]
  | "trunk_priority" => [.trunkPriority]
  | "trunk_rule" => [.trunkRule]
  | "trunk_trunk_rule" => [.trunkTrunkRule]
  | "defs" => [.pricelistPrice]
  | "geo" => [.geo]
  | "prefix" => [.geoPrefix]
  | "mob_prefix" => [.mobPrefix]
  | "instance_settings" => [.instanceSettings]
  | "hub" => [.hub]
  | "network_prefix" => [.networkPrefix]
  | "organization" => [.organization]
  | "operator" => [.voipOperator]
  | "pricelist" => [.pricelist]
  | "service_number" => [.client, .serviceNumber, .serviceNumberByTechNumber]
  | "service_trunk" => [.client, .serviceTrunk]
  | "service_trunk_settings" => [.serviceTrunkSettings]
  | "service_package" => [.serviceNumberPackage, .serviceTrunkPackage]
  | "tariff" => [.tariff]
  | "tariff_change_log" => [.tariffChangeLog]
  | "tariff_package" => [.tariffPackage]
  | "stat_destination_prefixlists" => [.statDestinationPrefixlists]
  | "stat_prefixlist" => [.statPrefixlist]
  | "server" => [.server]
  | "currency_rate" => [.currencyRate]
  | "nnp_account_tariff_light" => [.nnpAccountTariffLight]
  | "nnp_destination" => [.nnpDestination]
  | "nnp_number_range_prefix" => [.nnpNumberRangePrefix]
  | "nnp_number_range" => [.nnpNumberRange]
  | "nnp_operator" => [.nnpOperator]
  | "nnp_package_minute" => [.nnpPackageMinute]
  | "nnp_package_pricelist" => [.nnpPackagePricelist]
  | "nnp_package_price" => [.nnpPackagePrice]
  | "nnp_package" => [.nnpPackage]
  | "nnp_prefix_destination" => [.nnpPrefixDestination]
  | "nnp_prefix" => [.nnpPrefix]
  | "nnp_region" => [.nnpRegion]
  | "nnp_country" => [.nnpCountry]
  | _ => []

/-- `DataContainer::loadAll`. -/
def loadAll : List DataList :=
  [.server, .instanceSettings, .hub, .airp, .number, .outcome, .prefixlist, .prefixlistPrefix,
    .releaseReason, .routeCase, .routeTable, .routeTableRoute, .trunk, .trunkGroup,
    .trunkGroupItem, .trunkByName, .trunkByAlias, .trunkNumberPreprocessing, .trunkPriority,
    .trunkRule, .trunkTrunkRule, .client, .organization, .voipOperator, .pricelist,
    .pricelistPrice, .networkPrefix, .geo, .mobPrefix, .geoPrefix, .serviceNumber,
    .serviceNumberByTechNumber, .serviceNumberPackage, .serviceTrunk, .serviceTrunkPackage,
    .serviceTrunkSettings, .tariff, .tariffPackage, .tariffChangeLog,
    .statDestinationPrefixlists, .statPrefixlist, .currencyRate, .nnpDestination,
    .nnpNumberRangePrefix, .nnpPackage, .nnpPackagePrice, .nnpPrefix, .nnpRegion,
    .nnpNumberRange, .nnpOperator, .nnpPackageMinute, .nnpPackagePricelist,
    .nnpPrefixDestination, .nnpAccountTariffLight, .nnpCountry]

/-- The event of a table loads every list the table is in. -/
theorem mem_listsOf (l : DataList) (table : LoadedTable) (h : table ∈ l.sources) :
    l ∈ listsOf table.event := by
  cases l <;> revert table <;> decide

theorem mem_loadAll (l : DataList) : l ∈ loadAll := by
  cases l <;> decide

def plan : Refresh.Plan LoadedTable DataList String where
  sources := DataList.sources
  name := LoadedTable.event
  caches := listsOf
  all := loadAll
  covers := mem_listsOf
  complete := mem_loadAll

variable {δ : Type}

/-- The tables of the local database, `event.queue`, the lists in memory and the place
the loader has come to. -/
abbrev State (δ : Type) : Type := Refresh.State LoadedTable DataList String δ

/-- A change of a table, or another notice; the steps of `do_load_data` and `run`. -/
abbrev Act (δ : Type) : Type := Refresh.Act LoadedTable String δ

def step : State δ → Act δ → Option (State δ) := Refresh.step plan

/-- `event.queue` has one row for an event, and no version above the last one given. -/
structure Stamped (s : State δ) : Prop where
  versions : ∀ row ∈ s.queue, row.2 ≤ s.stamp
  events : ∀ row ∈ s.queue, ∀ row' ∈ s.queue, row.1 = row'.1 → row = row'

/-- The steps of a load of the given lists. -/
def loads (lists : List DataList) : List (Act δ) := lists.flatMap fun _ => [.read, .swap]

/-- The accounts change while the loader has read but not yet deleted their row: the
deletion misses, and the next round loads them again. -/
def overtakenRun : List (Act Nat) :=
  [.clear] ++ loads loadAll ++ ([.filled, .change .clients 7 1, .select [("clients", 1)],
    .fetch, .read, .change .clients 8 2, .swap, .remove, .fetch, .select [("clients", 2)],
    .fetch, .read, .swap, .remove] : List (Act Nat))

end ThreadLoader
end VoipBill
