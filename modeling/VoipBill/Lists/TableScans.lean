import VoipBill.Lists.PricelistPriceList
import VoipBill.Model.LoadedTables

/-!
# Searched tables against scanned tables

Every list of `Model.LoadedTables` is searched by binary search.  On tables in the order of
their queries the searches find what a scan of the whole table finds, and so `DataContainer` and
`RoutingTables` may be read as scans:

* `searches_eq_scans`: the lookups of pricing and of routing;
* `findAll_eq_getAllPackage`: packages connected to a number or a trunk.

Three of the lists need an argument of their own.  The comparison of technical numbers is no
order, the intervals of a network prefix must follow each other, and the trunks by alias are
compared by name, so that this list never finds what the list by name has not found.
-/

namespace VoipBill

open Lib.BinarySearch

/-! ## The searches one by one -/

section Searches

variable {ρ : Type}

theorem findById_eq_find? {id : ρ → Int} {data : List ρ}
    (hsorted : data.Pairwise fun a b => id a ≤ id b) (value : Int) :
    findById id data value = data.find? fun row => decide (id row = value) :=
  (selects_keyRange₁ hsorted value).front_eq_find?

/-- A search for a key, up to an activation time, and then a scan for the expiry. -/
theorem find?_slice_upTo {κ : Type} [LinearOrder κ] [DecidableEq κ] {key : ρ → κ} {activationDt : ρ → Int}
    {data : List ρ} (hsorted : data.Pairwise (Asc₂ key activationDt)) (value : κ)
    (timestamp : Int) (lasts : ρ → Bool) :
    (slice data (upTo activationDt timestamp data (keyRange key value data (0, data.length)))).find?
        lasts =
      data.find? fun row =>
        decide (key row = value) && decide (activationDt row ≤ timestamp) && lasts row :=
  (selects_upTo₂ hsorted value timestamp).find?_slice lasts

theorem filter_slice_upTo {κ : Type} [LinearOrder κ] [DecidableEq κ] {key : ρ → κ} {activationDt : ρ → Int}
    {data : List ρ} (hsorted : data.Pairwise (Asc₂ key activationDt)) (value : κ)
    (timestamp : Int) (lasts : ρ → Bool) :
    (slice data (upTo activationDt timestamp data (keyRange key value data (0, data.length)))).filter
        lasts =
      data.filter fun row =>
        decide (key row = value) && decide (activationDt row ≤ timestamp) && lasts row :=
  (selects_upTo₂ hsorted value timestamp).filter_slice lasts

end Searches

theorem serviceNumber_eq_find? {data : List NumberRow}
    (hsorted : data.Pairwise (Asc₂ (fun row => row.did) fun row => row.activationDt))
    (number timestamp : Int) :
    ServiceNumberList.find data number timestamp =
      data.find? fun row => decide (row.did = decimal number) &&
        decide (row.activationDt ≤ timestamp) && decide (timestamp ≤ row.expireDt) :=
  find?_slice_upTo hsorted (decimal number) timestamp _

/-- Without a technical number a row is less than any number, and it is not asked whether it is
greater. -/
theorem techNumberRange_eq {data : List NumberRow}
    (hsorted : data.Pairwise (Asc₂ (fun row => row.techNumber) fun row => row.activationDt))
    (number : Int) :
    equalRange
        (fun left : NumberRow =>
          if left.techNumber ≠ [] then decide (left.techNumber < decimal number) else true)
        (fun right =>
          if right.techNumber ≠ [] then decide (decimal number < right.techNumber) else true)
        data (0, data.length) =
      keyRange (fun row => row.techNumber) (decimal number) data (0, data.length) := by
  -- a row without technical number sorts before all numbers
  have hempty : ([] : List Char) < decimal number := by
    rcases hdigits : decimal number with _ | ⟨c, cs⟩
    · exact absurd hdigits (decimal_ne_nil number)
    · exact List.nil_lt_cons c cs
  have hless : (fun left : NumberRow =>
      if left.techNumber ≠ [] then decide (left.techNumber < decimal number) else true) =
      fun left => decide (left.techNumber < decimal number) := by
    funext left
    by_cases htech : left.techNumber = []
    · simp [htech, hempty]
    · simp [htech]
  have hgreater : ∀ row : NumberRow, decide (row.techNumber < decimal number) = false →
      (if row.techNumber ≠ [] then decide (decimal number < row.techNumber) else true) =
        decide (decimal number < row.techNumber) := by
    intro row hnot
    have htech : row.techNumber ≠ [] := by
      intro htech
      rw [htech, decide_eq_false_iff_not] at hnot
      exact hnot hempty
    rw [if_pos htech]
  -- the comparison is monotone where the search looks
  have hdescends : Descends (fun row : NumberRow => decide (row.techNumber < decimal number))
      data 0 data.length := by
    intro i j _ hij hj hat
    rw [at_iff (by omega), decide_eq_true_eq] at hat ⊢
    have hle := (selects_all data).pairwise (R := fun a b => a.techNumber ≤ b.techNumber)
      (fun _ => le_refl _) (hsorted.imp fun h _ _ => h.fst_le) (Nat.zero_le i) hij hj
      (by omega) (by omega)
    exact hle.trans_lt hat
  have hrange : ∀ greater : NumberRow → Bool,
      (∀ row, decide (row.techNumber < decimal number) = false →
        greater row = decide (decimal number < row.techNumber)) →
      equalRange _ greater data (0, data.length) = equalRange _ _ data (0, data.length) :=
    fun greater h => equalRange_congr h (Nat.zero_le data.length) (le_refl data.length) hdescends
  rw [hless, hrange _ hgreater, keyRange]
  congr!

theorem serviceNumberByTechNumber_eq_find? {data : List NumberRow}
    (hsorted : data.Pairwise (Asc₂ (fun row => row.techNumber) fun row => row.activationDt))
    (number timestamp : Int) :
    ServiceNumberByTechNumberList.find data number timestamp =
      data.find? fun row => decide (row.techNumber = decimal number) &&
        decide (row.activationDt ≤ timestamp) && decide (timestamp ≤ row.expireDt) := by
  rw [ServiceNumberByTechNumberList.find]
  rw [techNumberRange_eq hsorted number]
  exact find?_slice_upTo hsorted (decimal number) timestamp _

theorem serviceTrunks_eq_filter {data : List ServiceTrunk}
    (hsorted : data.Pairwise (Asc₂ (fun row => row.trunkId) fun row => row.activationDt))
    (trunkId timestamp : Int) :
    ServiceTrunkList.findAll data trunkId timestamp =
      data.filter fun row => decide (row.trunkId = trunkId) &&
        decide (row.activationDt ≤ timestamp) && decide (timestamp ≤ row.expireDt) :=
  filter_slice_upTo hsorted trunkId timestamp _

theorem serviceTrunk_eq_find? {data : List ServiceTrunk}
    (hsorted : data.Pairwise (Asc₂ (fun row => row.trunkId) fun row => row.activationDt))
    (trunkId timestamp : Int) :
    ServiceTrunkList.find data trunkId timestamp =
      data.find? fun row => decide (row.trunkId = trunkId) &&
        decide (row.activationDt ≤ timestamp) && decide (timestamp ≤ row.expireDt) := by
  rw [ServiceTrunkList.find, serviceTrunks_eq_filter hsorted, List.head?_filter]

theorem serviceTrunkSettings_eq_filter {data : List ServiceTrunkSettings}
    (hsorted : data.Pairwise (Asc₂ (fun row => row.trunkId) fun row => row.type))
    (trunkId type : Int) :
    ServiceTrunkSettingsList.findAll data trunkId type =
      data.filter fun row => decide (row.trunkId = trunkId) && decide (row.type = type) :=
  (selects_keyRange₂ hsorted trunkId type).slice_eq_filter

theorem statDestinationPrefixlists_eq_map {data : List StatDestinationPrefixlists}
    (hsorted : data.Pairwise fun a b => a.destinationId ≤ b.destinationId) (destinationId : Int) :
    StatDestinationPrefixlistsList.findAll data destinationId =
      (data.filter fun item => decide (item.destinationId = destinationId)).map
        fun item => item.prefixlistId := by
  rw [StatDestinationPrefixlistsList.findAll,
    (selects_keyRange₁ hsorted destinationId).slice_eq_filter]

theorem trunkGroupItem_eq_map {data : List TrunkGroupItem}
    (hsorted : data.Pairwise fun a b => a.trunkGroupId ≤ b.trunkGroupId) (trunkGroupId : Int) :
    TrunkGroupItemList.findTrunkIds data trunkGroupId =
      (data.filter fun item => decide (item.trunkGroupId = trunkGroupId)).map
        fun item => item.trunkId := by
  rw [TrunkGroupItemList.findTrunkIds,
    (selects_keyRange₁ hsorted trunkGroupId).slice_eq_filter]

theorem trunkTrunkRule_eq_filter {data : List TrunkTrunkRuleRow}
    (hsorted : data.Pairwise fun a b => a.trunkId ≤ b.trunkId) (trunkId : Int) :
    TrunkTrunkRuleList.findTrunkGroupRules data trunkId =
      data.filter fun rule => decide (rule.trunkId = trunkId) :=
  (selects_keyRange₁ hsorted trunkId).slice_eq_filter

theorem trunkRule_eq_filter {data : List TrunkRuleRow}
    (hsorted : data.Pairwise (Asc₂ (fun row => row.trunkId) fun row => row.outgoing))
    (trunkId : Int) (outgoing : Bool) :
    TrunkRuleList.findAll data trunkId outgoing =
      data.filter fun rule => decide (rule.trunkId = trunkId) && decide (rule.outgoing = outgoing) :=
  (selects_keyRange₂ hsorted trunkId outgoing).slice_eq_filter

theorem trunkPriority_eq_filter {data : List TrunkPriorityRow}
    (hsorted : data.Pairwise fun a b => a.trunkId ≤ b.trunkId) (trunkId : Int) :
    TrunkPriorityList.findAllTrunkPriority data trunkId =
      data.filter fun priority => decide (priority.trunkId = trunkId) :=
  (selects_keyRange₁ hsorted trunkId).slice_eq_filter

/-! ### Prefixes -/

/-- The longest beginning of a text for which a scan finds a row. -/
def scanLongest {ρ : Type} (data : List ρ) (matchesPrefix : List Char → ρ → Bool)
    (text : List Char) : Option ρ :=
  (List.range text.length).reverse.findSome? fun len =>
    data.find? (matchesPrefix (text.take (len + 1)))

theorem longest_eq_scanLongest {ρ : Type} {find : List Char → Option ρ} {data : List ρ}
    {matchesPrefix : List Char → ρ → Bool}
    (h : ∀ start, start ≠ [] → find start = data.find? (matchesPrefix start))
    (text : List Char) :
    longest find text text.length = scanLongest data matchesPrefix text := by
  rw [longest_congr h text (le_refl _), longest_eq_findSome?]
  rfl

theorem geoPrefix_eq_scan {data : List GeoPrefixRow}
    (hsorted : data.Pairwise fun a b => a.leading ≤ b.leading) (number : Int) :
    GeoPrefixList.find data number =
      scanLongest data (fun start row => decide (row.leading = start)) (decimal number) := by
  refine longest_eq_scanLongest (fun start hstart => ?_) (decimal number)
  rw [GeoPrefixList.findByPrefix, if_neg hstart]
  exact (selects_keyRange₁ hsorted start).front_eq_find?

theorem mobPrefix_eq_scan {data : List MobPrefixRow}
    (hsorted : data.Pairwise fun a b => a.leading ≤ b.leading) (number : Int) :
    MobPrefixList.find data number =
      scanLongest data (fun start row => decide (row.leading = start)) (decimal number) := by
  refine longest_eq_scanLongest (fun start hstart => ?_) (decimal number)
  rw [MobPrefixList.findByPrefix, if_neg hstart]
  exact (selects_keyRange₁ hsorted start).front_eq_find?

theorem prefixlistPrefix_eq_scan {data : List PrefixlistPrefix}
    (hsorted : data.Pairwise (Asc₂ (fun row => row.prefixlistId) fun row => row.leading))
    (prefixlistId : Int) (text : List Char) :
    PrefixlistPrefixList.find data prefixlistId text =
      scanLongest data
        (fun start row => decide (row.prefixlistId = prefixlistId) && decide (row.leading = start))
        text := by
  refine longest_eq_scanLongest (fun start hstart => ?_) text
  rw [PrefixlistPrefixList.findByPrefix]
  rw [if_pos hstart]
  exact (selects_keyRange₂ hsorted prefixlistId start).front_eq_find?

/-- The intervals of one prefix follow each other. -/
def NetworkPrefixRow.Follows (a b : NetworkPrefixRow) : Prop :=
  Asc₂ (fun row => row.networkConfigId) (fun row => row.leading) a b ∧
    (a.networkConfigId = b.networkConfigId → a.leading = b.leading →
      a.dateFrom ≤ b.dateFrom ∧ a.dateTo ≤ b.dateTo)

instance (a b : NetworkPrefixRow) : Decidable (a.Follows b) :=
  inferInstanceAs (Decidable (_ ∧ _))

theorem networkPrefix_eq_scan {data : List NetworkPrefixRow}
    (hsorted : data.Pairwise NetworkPrefixRow.Follows) (networkConfigId number timestamp : Int) :
    NetworkPrefixList.find data networkConfigId number timestamp =
      scanLongest data
        (fun start row => decide (row.networkConfigId = networkConfigId) &&
          decide (row.leading = start) && decide (row.dateFrom ≤ timestamp) &&
          decide (timestamp ≤ row.dateTo))
        (decimal number) := by
  refine longest_eq_scanLongest (fun start hstart => ?_) (decimal number)
  rw [NetworkPrefixList.findByPrefix, if_pos hstart]
  have hprefix := selects_keyRange₂ (hsorted.imp fun h => h.1) networkConfigId start
  -- among the rows of the prefix both ends of the intervals ascend
  have hends : data.Pairwise fun a b =>
      (decide (a.networkConfigId = networkConfigId) && decide (a.leading = start)) = true →
      (decide (b.networkConfigId = networkConfigId) && decide (b.leading = start)) = true →
        a.dateFrom ≤ b.dateFrom ∧ a.dateTo ≤ b.dateTo := by
    refine hsorted.imp fun h ha hb => ?_
    simp only [Bool.and_eq_true, decide_eq_true_eq] at ha hb
    exact h.2 (ha.1.trans hb.1.symm) (ha.2.trans hb.2.symm)
  have hinterval : Selects data _ fun row =>
      (decide (row.networkConfigId = networkConfigId) && decide (row.leading = start)) = true ∧
        row.dateFrom ≤ timestamp ∧ timestamp ≤ row.dateTo :=
    hprefix.narrowInterval (fun _ => decide_eq_true_iff) (fun _ => decide_eq_true_iff)
      (hends.imp fun h ha hb hlt => (h ha hb).2.trans_lt hlt)
      (hends.imp fun h ha hb => (h ha hb).1)
  refine (hinterval.congr fun row => ?_).front_eq_find?
  simp only [Bool.and_eq_true, decide_eq_true_eq, and_assoc]

/-! ## Packages -/

section Packages

/-- Packages by activation time and id. -/
def PackageOrder (a b : ServicePackage) : Prop :=
  Asc₂ (fun servicePackage => servicePackage.activationDt)
    (fun servicePackage => servicePackage.id) a b

instance (a b : ServicePackage) : Decidable (PackageOrder a b) :=
  inferInstanceAs (Decidable (Asc₂ _ _ a b))

/-- The packages of one service, picked from a list in the order of services, are those of the
whole table in its own order. -/
theorem filter_eq_of_perm {service : ServicePackage → Int} {data table : List ServicePackage}
    (hperm : data.Perm (table.filter fun servicePackage => decide (0 < service servicePackage)))
    (hdata : data.Pairwise (Asc₃ service (fun servicePackage => servicePackage.activationDt)
      fun servicePackage => servicePackage.id))
    (htable : table.Pairwise PackageOrder)
    (hids : ∀ a ∈ table, ∀ b ∈ table, a.id = b.id → a = b) (value : Int)
    (inForce : ServicePackage → Bool) :
    (data.filter fun servicePackage =>
        decide (service servicePackage = value) && inForce servicePackage) =
      table.filter fun servicePackage =>
        decide (0 < service servicePackage) && service servicePackage == value &&
          inForce servicePackage := by
  have hfiltered : (data.filter fun servicePackage =>
        decide (service servicePackage = value) && inForce servicePackage).Perm
      (table.filter fun servicePackage =>
        decide (0 < service servicePackage) && service servicePackage == value &&
          inForce servicePackage) := by
    have hboth := hperm.filter fun servicePackage =>
      decide (service servicePackage = value) && inForce servicePackage
    rw [List.filter_filter] at hboth
    refine hboth.trans (List.Perm.of_eq (List.filter_congr fun servicePackage _ => ?_))
    rw [Bool.and_comm, ← Bool.and_assoc]
    congr 2
  -- both are in the order of activation and id, which leaves one order only
  have hleft : (data.filter fun servicePackage =>
      decide (service servicePackage = value) && inForce servicePackage).Pairwise PackageOrder := by
    refine List.pairwise_filter.mpr (hdata.imp fun h ha hb => h.snd ?_)
    simp only [Bool.and_eq_true, decide_eq_true_eq] at ha hb
    exact ha.1.trans hb.1.symm
  have hright := htable.sublist (List.filter_sublist (p := fun servicePackage =>
    decide (0 < service servicePackage) && service servicePackage == value &&
      inForce servicePackage))
  refine hfiltered.eq_of_pairwise (fun a b ha hb hab hba => ?_) hleft hright
  have hmem := List.mem_of_mem_filter (hfiltered.mem_iff.mp ha)
  refine hids a hmem b (List.mem_of_mem_filter hb) (le_antisymm ?_ ?_)
  · exact hab.snd_le (le_antisymm hab.fst_le hba.fst_le)
  · exact hba.snd_le (le_antisymm hba.fst_le hab.fst_le)

/-- The two lists of packages are loaded from one table. -/
structure PackageTables (byNumber byTrunk table : List ServicePackage) : Prop where
  number : byNumber.Perm (table.filter fun servicePackage =>
    decide (0 < servicePackage.serviceNumberId))
  trunk : byTrunk.Perm (table.filter fun servicePackage =>
    decide (0 < servicePackage.serviceTrunkId))
  numberSorted : byNumber.Pairwise (Asc₃ (fun servicePackage => servicePackage.serviceNumberId)
    (fun servicePackage => servicePackage.activationDt) fun servicePackage => servicePackage.id)
  trunkSorted : byTrunk.Pairwise (Asc₃ (fun servicePackage => servicePackage.serviceTrunkId)
    (fun servicePackage => servicePackage.activationDt) fun servicePackage => servicePackage.id)
  sorted : table.Pairwise PackageOrder
  ids : ∀ a ∈ table, ∀ b ∈ table, a.id = b.id → a = b

theorem findAll_eq_getAllPackage {r : Repository} {byNumber byTrunk : List ServicePackage}
    (h : PackageTables byNumber byTrunk r.data.servicePackage) (serviceId : Int) :
    ServiceNumberPackageList.findAll byNumber serviceId r.currentTime =
        r.getAllServiceNumberPackage serviceId ∧
      ServiceTrunkPackageList.findAll byTrunk serviceId r.currentTime =
        r.getAllServiceTrunkPackage serviceId := by
  have hfst {key : ServicePackage → Int} {data : List ServicePackage}
      (hsorted : data.Pairwise (Asc₃ key (fun servicePackage => servicePackage.activationDt)
        fun servicePackage => servicePackage.id)) :
      data.Pairwise (Asc₂ key fun servicePackage => servicePackage.activationDt) :=
    hsorted.imp fun hasc => hasc.imp_right fun hboth => ⟨hboth.1, hboth.2.fst_le⟩
  constructor
  · have hscan := filter_slice_upTo (hfst h.numberSorted) serviceId r.currentTime
      fun servicePackage => decide (r.currentTime < servicePackage.expireDt)
    refine hscan.trans ?_
    simp only [Bool.and_assoc]
    exact filter_eq_of_perm h.number h.numberSorted h.sorted h.ids serviceId r.isInForce
  · have hscan := filter_slice_upTo (hfst h.trunkSorted) serviceId r.currentTime
      fun servicePackage => decide (r.currentTime < servicePackage.expireDt)
    refine hscan.trans ?_
    simp only [Bool.and_assoc]
    exact filter_eq_of_perm h.trunk h.trunkSorted h.sorted h.ids serviceId r.isInForce

/-- Two packages of number 7, one of number 8 and one of a trunk. -/
def fourPackages : List ServicePackage :=
  [{ id := 3, serviceNumberId := 8, activationDt := 0, expireDt := 50 },
    { id := 1, serviceNumberId := 7, activationDt := 1, expireDt := 50 },
    { id := 4, serviceTrunkId := 7, activationDt := 2, expireDt := 50 },
    { id := 2, serviceNumberId := 7, activationDt := 3, expireDt := 50 }]

theorem packageTables_fourPackages :
    PackageTables
      [{ id := 1, serviceNumberId := 7, activationDt := 1, expireDt := 50 },
        { id := 2, serviceNumberId := 7, activationDt := 3, expireDt := 50 },
        { id := 3, serviceNumberId := 8, activationDt := 0, expireDt := 50 }]
      [{ id := 4, serviceTrunkId := 7, activationDt := 2, expireDt := 50 }] fourPackages := by
  constructor <;> decide

theorem findAll_eq_getAllPackage_fourPackages :
    let r : Repository := { data := { servicePackage := fourPackages }, currentTime := 10 }
    (r.getAllServiceNumberPackage 7).map (fun servicePackage => servicePackage.id) = [1, 2] ∧
      ServiceTrunkPackageList.findAll
          [{ id := 4, serviceTrunkId := 7, activationDt := 2, expireDt := 50 }] 7 10 =
        r.getAllServiceTrunkPackage 7 :=
  ⟨by decide,
    (findAll_eq_getAllPackage
      (r := { data := { servicePackage := fourPackages }, currentTime := 10 })
      packageTables_fourPackages 7).2⟩

end Packages

/-! ## Trunks by name -/

theorem trunkByName_eq_find? {data : List Trunk}
    (hsorted : data.Pairwise fun a b => a.trunkName ≤ b.trunkName) (trunkName : List Char)
    (simblingRegions : List Int) :
    TrunkByNameList.find data trunkName simblingRegions =
      data.find? fun trunk =>
        decide (trunk.trunkName = trunkName) && simblingRegions.contains trunk.serverId :=
  (selects_keyRange₁ hsorted trunkName).find?_slice _

/-- The list by alias holds some of the trunks and compares their names. -/
theorem trunkByAlias_eq_none {byName byAlias : List Trunk}
    (hname : byName.Pairwise fun a b => a.trunkName ≤ b.trunkName)
    (halias : byAlias.Pairwise fun a b => a.trunkName ≤ b.trunkName) (hsubset : byAlias ⊆ byName)
    {trunkName : List Char} {simblingRegions : List Int}
    (hnone : TrunkByNameList.find byName trunkName simblingRegions = none) :
    TrunkByAliasList.find byAlias trunkName simblingRegions = none := by
  rw [trunkByName_eq_find? hname, List.find?_eq_none] at hnone
  rw [TrunkByAliasList.find, trunkByName_eq_find? halias, List.find?_eq_none]
  exact fun trunk hmem => hnone trunk (hsubset hmem)

/-! ## All lookups -/

namespace LoadedTables

/-- The lists are in the order of their queries.  A trunk with an alias is among the trunks by
name.  The intervals of one network prefix follow each other (`NetworkPrefixRow.Follows`), which
is more than their query asks for: both dates ascend. -/
structure Sorted (t : LoadedTables) : Prop where
  server : t.server.Pairwise fun a b => a.id ≤ b.id
  trunkByName : t.trunkByName.Pairwise fun a b => a.trunkName ≤ b.trunkName
  trunkByAlias : t.trunkByAlias.Pairwise fun a b => a.trunkName ≤ b.trunkName
  alias_subset : t.trunkByAlias ⊆ t.trunkByName
  trunk : t.trunk.Pairwise fun a b => a.id ≤ b.id
  client : t.client.Pairwise fun a b => a.id ≤ b.id
  tariff : t.tariff.Pairwise fun a b => a.id ≤ b.id
  tariffPackage : t.tariffPackage.Pairwise fun a b => a.id ≤ b.id
  pricelist : t.pricelist.Pairwise fun a b => a.id ≤ b.id
  geo : t.geo.Pairwise fun a b => a.id ≤ b.id
  statPrefixlist : t.statPrefixlist.Pairwise fun a b => a.id ≤ b.id
  nnpPackage : t.nnpPackage.Pairwise fun a b => a.id ≤ b.id
  serviceNumber : t.serviceNumber.Pairwise (Asc₂ (fun row => row.did) fun row => row.activationDt)
  serviceNumberByTechNumber : t.serviceNumberByTechNumber.Pairwise
    (Asc₂ (fun row => row.techNumber) fun row => row.activationDt)
  serviceTrunk : t.serviceTrunk.Pairwise
    (Asc₂ (fun row => row.trunkId) fun row => row.activationDt)
  serviceTrunkSettings : t.serviceTrunkSettings.Pairwise
    (Asc₂ (fun row => row.trunkId) fun row => row.type)
  trunkNumberPreprocessing : t.trunkNumberPreprocessing.Pairwise
    (Asc₂ (fun row => row.trunkId) fun row => row.order)
  statDestinationPrefixlists : t.statDestinationPrefixlists.Pairwise fun a b =>
    a.destinationId ≤ b.destinationId
  geoPrefix : t.geoPrefix.Pairwise fun a b => a.leading ≤ b.leading
  mobPrefix : t.mobPrefix.Pairwise fun a b => a.leading ≤ b.leading
  networkPrefix : t.networkPrefix.Pairwise NetworkPrefixRow.Follows
  number : t.number.Pairwise fun a b => a.id ≤ b.id
  prefixlist : t.prefixlist.Pairwise fun a b => a.id ≤ b.id
  prefixlistPrefix : t.prefixlistPrefix.Pairwise
    (Asc₂ (fun row => row.prefixlistId) fun row => row.leading)
  routeTable : t.routeTable.Pairwise fun a b => a.id ≤ b.id
  routeTableRoute : t.routeTableRoute.Pairwise fun a b => a.routeTableId ≤ b.routeTableId
  outcome : t.outcome.Pairwise fun a b => a.id ≤ b.id
  trunkGroup : t.trunkGroup.Pairwise fun a b => a.id ≤ b.id
  trunkGroupItem : t.trunkGroupItem.Pairwise fun a b => a.trunkGroupId ≤ b.trunkGroupId
  trunkTrunkRule : t.trunkTrunkRule.Pairwise fun a b => a.trunkId ≤ b.trunkId
  trunkRule : t.trunkRule.Pairwise (Asc₂ (fun row => row.trunkId) fun row => row.outgoing)
  trunkPriority : t.trunkPriority.Pairwise fun a b => a.trunkId ≤ b.trunkId

variable (t : LoadedTables)

/-! ### Scans -/

def scanServer (id : Int) : Option ServerRow :=
  t.server.find? fun server => decide (server.id = id)

def scanSimblingRegion (serverId : Int) : List Int :=
  match t.scanServer serverId with
  | none => []
  | some server =>
      if 0 < server.hubId then
        (t.server.filter fun other => other.hubId == server.hubId).map fun other => other.id
      else [serverId]

/-- The lookups of pricing, answered by scans. -/
def scannedData (base : DataContainer) : DataContainer :=
  { base with
    trunkByName := fun trunkName orgServerId =>
      t.trunkByName.find? fun trunk => decide (trunk.trunkName = trunkName) &&
        (t.scanSimblingRegion (if 0 < orgServerId then orgServerId else t.instanceId)).contains
          trunk.serverId
    trunk := fun id => t.trunk.find? fun trunk => decide (trunk.id = id)
    server := fun id => (t.scanServer id).map ServerRow.toServer
    simblingRegion := t.scanSimblingRegion
    isRegionOnHub := fun region =>
      t.instanceId == region ||
        decide (0 < t.hubId) && (t.scanServer region).elim false fun server =>
          server.hubId == t.hubId
    trunkNumberPreprocessing := fun trunkId =>
      preprocessingLoop
        (fun order => t.trunkNumberPreprocessing.find? fun row =>
          decide (row.trunkId = trunkId) && decide (row.order = order))
        t.trunkNumberPreprocessing.length 1
    client := fun id => t.client.find? fun client => decide (client.id = id)
    serviceNumber := fun number timestamp =>
      (t.serviceNumber.find? fun row => decide (row.did = decimal number) &&
        decide (row.activationDt ≤ timestamp) && decide (timestamp ≤ row.expireDt)).map
        NumberRow.toServiceNumber
    serviceNumberByTechNumber := fun number timestamp =>
      (t.serviceNumberByTechNumber.find? fun row => decide (row.techNumber = decimal number) &&
        decide (row.activationDt ≤ timestamp) && decide (timestamp ≤ row.expireDt)).map
        NumberRow.toServiceNumber
    serviceTrunk := fun trunkId timestamp =>
      t.serviceTrunk.find? fun row => decide (row.trunkId = trunkId) &&
        decide (row.activationDt ≤ timestamp) && decide (timestamp ≤ row.expireDt)
    serviceTrunks := fun trunkId timestamp =>
      t.serviceTrunk.filter fun row => decide (row.trunkId = trunkId) &&
        decide (row.activationDt ≤ timestamp) && decide (timestamp ≤ row.expireDt)
    serviceTrunkByClientId := fun clientId =>
      t.serviceTrunk.filter fun row => row.clientAccountId == clientId
    serviceTrunkSettings := fun trunkId type =>
      t.serviceTrunkSettings.filter fun row =>
        decide (row.trunkId = trunkId) && decide (row.type = type)
    tariffPackage := fun id => t.tariffPackage.find? fun tariff => decide (tariff.id = id)
    tariff := fun id => t.tariff.find? fun tariff => decide (tariff.id = id)
    pricelist := fun id => t.pricelist.find? fun pricelist => decide (pricelist.id = id)
    networkPrefix := fun networkConfigId number timestamp =>
      (scanLongest t.networkPrefix
        (fun start row => decide (row.networkConfigId = networkConfigId) &&
          decide (row.leading = start) && decide (row.dateFrom ≤ timestamp) &&
          decide (timestamp ≤ row.dateTo))
        (decimal number)).map fun row => row.networkTypeId
    statDestinationPrefixlists := fun destinationId =>
      (t.statDestinationPrefixlists.filter fun item =>
        decide (item.destinationId = destinationId)).map fun item => item.prefixlistId
    statPrefixlist := fun id =>
      t.statPrefixlist.find? fun statPrefixlist => decide (statPrefixlist.id = id)
    mobPrefix := fun number =>
      (scanLongest t.mobPrefix (fun start row => decide (row.leading = start))
        (decimal number)).map MobPrefixRow.toMobPrefix
    geoPrefix := fun number =>
      (scanLongest t.geoPrefix (fun start row => decide (row.leading = start))
        (decimal number)).map GeoPrefixRow.toGeoPrefix
    geo := fun id => t.geo.find? fun geo => decide (geo.id = id)
    nnpPackage := fun id => t.nnpPackage.find? fun nnpPackage => decide (nnpPackage.id = id) }

/-- The lookups of routing, answered by scans. -/
def scannedRouting (base : RoutingTables) : RoutingTables :=
  { base with
    number := fun id => t.number.find? fun number => decide (number.id = id)
    prefixlist := fun id => t.prefixlist.find? fun prefixlist => decide (prefixlist.id = id)
    prefixlistPrefix := t.prefixlistPrefix
    routeTable := t.routeTable
    routeTableRoute := t.routeTableRoute
    outcome := fun id => t.outcome.find? fun outcome => decide (outcome.id = id)
    trunks := t.trunk
    trunkGroup := fun id => t.trunkGroup.find? fun trunkGroup => decide (trunkGroup.id = id)
    trunkGroupTrunkIds := fun trunkGroupId =>
      (t.trunkGroupItem.filter fun item => decide (item.trunkGroupId = trunkGroupId)).map
        fun item => item.trunkId
    trunkTrunkRule := fun trunkId =>
      (t.trunkTrunkRule.filter fun rule => decide (rule.trunkId = trunkId)).map
        TrunkTrunkRuleRow.toTrunkTrunkRule
    trunkRule := fun trunkId outgoing =>
      (t.trunkRule.filter fun rule => decide (rule.trunkId = trunkId) &&
        decide (rule.outgoing = outgoing)).map TrunkRuleRow.toTrunkRule
    trunkPriority := fun trunkId =>
      (t.trunkPriority.filter fun priority => decide (priority.trunkId = trunkId)).map
        TrunkPriorityRow.toTrunkPriority }

/-! ### Searches and scans agree -/

section Agree

variable {t : LoadedTables} (h : t.Sorted)
include h

theorem scanSimblingRegion_eq (serverId : Int) :
    ServerList.getSimblingRegion t.server serverId = t.scanSimblingRegion serverId := by
  rw [ServerList.getSimblingRegion, ServerList.find, findById_eq_find? h.server]
  rfl

theorem getTrunkByName_eq_scan (trunkName : List Char) (orgServerId : Int) :
    t.getTrunkByName trunkName orgServerId =
      t.trunkByName.find? fun trunk => decide (trunk.trunkName = trunkName) &&
        (t.scanSimblingRegion (if 0 < orgServerId then orgServerId else t.instanceId)).contains
          trunk.serverId := by
  rw [getTrunkByName, ← scanSimblingRegion_eq h, ← trunkByName_eq_find? h.trunkByName]
  rcases hfound : TrunkByNameList.find t.trunkByName trunkName _ with _ | trunk
  · exact trunkByAlias_eq_none h.trunkByName h.trunkByAlias h.alias_subset hfound
  · rfl

theorem preprocessingRules_eq_scan (trunkId : Int) :
    t.preprocessingRules trunkId =
      preprocessingLoop
        (fun order => t.trunkNumberPreprocessing.find? fun row =>
          decide (row.trunkId = trunkId) && decide (row.order = order))
        t.trunkNumberPreprocessing.length 1 := by
  rw [preprocessingRules]
  congr 1
  funext order
  exact (selects_keyRange₂ h.trunkNumberPreprocessing trunkId order).front_eq_find?

theorem isRegionOnHub_eq_scan (region : Int) :
    ServerList.isRegionOnHub t.server t.instanceId t.hubId region =
      (t.instanceId == region ||
        decide (0 < t.hubId) && (t.scanServer region).elim false fun server =>
          server.hubId == t.hubId) := by
  rw [ServerList.isRegionOnHub, ServerList.find, findById_eq_find? h.server]
  rfl

theorem dataContainer_eq_scannedData (base : DataContainer) :
    t.dataContainer base = t.scannedData base := by
  have hserver (id : Int) : ServerList.find t.server id = t.scanServer id :=
    findById_eq_find? h.server id
  simp only [dataContainer, scannedData, funext₂ (getTrunkByName_eq_scan h),
    funext (scanSimblingRegion_eq h), funext (preprocessingRules_eq_scan h),
    funext (isRegionOnHub_eq_scan h), hserver, funext₂ (serviceTrunks_eq_filter h.serviceTrunk),
    funext₂ (serviceTrunk_eq_find? h.serviceTrunk),
    funext₂ (serviceTrunkSettings_eq_filter h.serviceTrunkSettings),
    funext (statDestinationPrefixlists_eq_map h.statDestinationPrefixlists),
    funext (findById_eq_find? h.trunk), funext (findById_eq_find? h.client),
    funext (findById_eq_find? h.tariff), funext (findById_eq_find? h.tariffPackage),
    funext (findById_eq_find? h.pricelist), funext (findById_eq_find? h.statPrefixlist),
    funext (findById_eq_find? h.geo), funext (findById_eq_find? h.nnpPackage),
    serviceNumber_eq_find? h.serviceNumber,
    serviceNumberByTechNumber_eq_find? h.serviceNumberByTechNumber,
    networkPrefix_eq_scan h.networkPrefix, mobPrefix_eq_scan h.mobPrefix,
    geoPrefix_eq_scan h.geoPrefix]
  rfl

theorem routingTables_eq_scannedRouting (base : RoutingTables) :
    t.routingTables base = t.scannedRouting base := by
  simp only [routingTables, scannedRouting, funext (trunkGroupItem_eq_map h.trunkGroupItem),
    trunkTrunkRule_eq_filter h.trunkTrunkRule, trunkRule_eq_filter h.trunkRule,
    trunkPriority_eq_filter h.trunkPriority,
    funext (findById_eq_find? h.number), funext (findById_eq_find? h.prefixlist),
    funext (findById_eq_find? h.outcome), funext (findById_eq_find? h.trunkGroup)]

/-- What `RoutingTables` scans itself is searched, too. -/
theorem routing_searches_eq_scans (base : RoutingTables) (id : Int) (text : List Char) :
    findById (fun routeTable => routeTable.id) t.routeTable id =
        (t.routingTables base).getRouteTable id ∧
      RouteTableRouteList.findAll t.routeTableRoute id =
        (t.routingTables base).getAllRouteTableRoutes id ∧
      PrefixlistPrefixList.find t.prefixlistPrefix id text =
        (t.routingTables base).getPrefixlistPrefix id text := by
  refine ⟨?_, ?_, ?_⟩
  · exact findById_eq_find? h.routeTable id
  · exact (selects_keyRange₁ h.routeTableRoute id).slice_eq_filter
  · rw [prefixlistPrefix_eq_scan h.prefixlistPrefix, scanLongest,
      RoutingTables.getPrefixlistPrefix]
    congr! 4 with len row
    rw [Bool.eq_iff_iff]
    simp

end Agree

/-- On tables in the order of their queries every binary search of pricing and of routing finds
what a scan of the table finds; the trunks by alias add nothing to the trunks by name. -/
theorem searches_eq_scans {t : LoadedTables} (h : t.Sorted) (data : DataContainer)
    (tables : RoutingTables) :
    t.dataContainer data = t.scannedData data ∧
      t.routingTables tables = t.scannedRouting tables ∧
      ∀ id text,
        findById (fun routeTable => routeTable.id) t.routeTable id =
            (t.routingTables tables).getRouteTable id ∧
          RouteTableRouteList.findAll t.routeTableRoute id =
            (t.routingTables tables).getAllRouteTableRoutes id ∧
          PrefixlistPrefixList.find t.prefixlistPrefix id text =
            (t.routingTables tables).getPrefixlistPrefix id text :=
  ⟨dataContainer_eq_scannedData h data, routingTables_eq_scannedRouting h tables,
    routing_searches_eq_scans h tables⟩

/-- Two numbers, one of them with two owners, two trunks of one name, and a network prefix
with two intervals. -/
def twoOwners : LoadedTables where
  server := [{ id := 83, hubId := 1 }, { id := 99, hubId := 1 }]
  trunkByName := [{ id := 5, serverId := 83, trunkName := ['a'] },
    { id := 6, serverId := 99, trunkName := ['a'] }]
  trunkByAlias := [{ id := 6, serverId := 99, trunkName := ['a'] }]
  serviceNumber := [{ id := 1, did := decimal 749, activationDt := 0, expireDt := 99 },
    { id := 2, did := decimal 749, activationDt := 100, expireDt := 199 },
    { id := 3, did := decimal 7495, activationDt := 0, expireDt := 199 }]
  serviceNumberByTechNumber := [{ id := 1, did := decimal 749 }]
  networkPrefix := [{ networkConfigId := 1, leading := decimal 7, dateFrom := 0, dateTo := 99 },
    { networkConfigId := 1, leading := decimal 7, dateFrom := 100, dateTo := 199 }]

theorem sorted_twoOwners : twoOwners.Sorted := by
  constructor <;> decide

theorem searches_eq_scans_twoOwners :
    twoOwners.dataContainer {} = twoOwners.scannedData {} ∧
      (twoOwners.scannedData {}).serviceNumber 749 150 =
        some { id := 2, did := decimal 749 } :=
  ⟨(searches_eq_scans sorted_twoOwners {} {}).1, by decide⟩

end LoadedTables

end VoipBill
