import VoipBill.Billing.TermOrder
import VoipBill.Model.RadiusAuthProcessor

/-!
# The prices of the offered routes

A route that is offered for a call should not cost more than the cap of the
region, and should leave the margin that the originating setting demands.  The
code tests the cap only for orders with a price list, which the orders of
version 5 accounts do not have, and tests the margin only where both prices are
present in their own currency.

* `offered_perm`: the routes are the accepted orders of the accepted trunks;
* `obeys_iff_checked`: what an accepted order lacks for the cap and the margin;
* `autoRoutes_obey_iff`: when all offered routes obey both.
-/

namespace VoipBill
namespace RadiusAuthProcessor

open Lib Lib.Hoare BillingCall

variable {p : RadiusAuthProcessor}

/-! ## Cap and margin -/

/-- The price of an order in roubles, by the version of its account; an order
without a price or without a currency has none. -/
def roublePrice (p : RadiusAuthProcessor) (order : ServiceTrunkOrder) : Option ℚ :=
  (Repository.orderPrice order).map fun price => p.repository.priceToRoubles price.1 price.2

/-- The cap of the region is in force for the request. -/
def HasCap (p : RadiusAuthProcessor) (server : Server) : Prop :=
  0 < server.minPriceForAutorouting ∧
    ∃ account, p.account = some account ∧ account.antiFraudDisabled = false

/-- The originating setting demands a margin that the order does not leave. -/
def LacksMargin (p : RadiusAuthProcessor) (origOrder order : ServiceTrunkOrder) : Prop :=
  ∃ origSettings origRub termRub, origOrder.trunkSettings = some origSettings ∧
    (origSettings.minimumMarginType = minMarginPercent ∨
      origSettings.minimumMarginType = minMarginValue) ∧
    p.roublePrice origOrder = some origRub ∧ p.roublePrice order = some termRub ∧
    0.000001 < origRub ∧ 0.000001 < termRub ∧
    trunkMargin origSettings.minimumMarginType origRub termRub < origSettings.minimumMargin

/-- What an offered route has to obey. -/
structure Obeys (p : RadiusAuthProcessor) (server : Server)
    (origOrder order : ServiceTrunkOrder) : Prop where
  cap : HasCap p server → ∀ rub, p.roublePrice order = some rub →
    rub ≤ server.minPriceForAutorouting
  margin : ¬LacksMargin p origOrder order

/-- An order that the tests of the code decide rightly: a version 5 order above the
cap is declined for its margin, and an order that lacks its margin while one of the
two prices is not present is declined for its price. -/
structure Checked (p : RadiusAuthProcessor) (server : Server)
    (origOrder order : ServiceTrunkOrder) : Prop where
  cap : HasCap p server → order.account.map (·.accountVersion) = some 5 →
    ∀ rub, p.roublePrice order = some rub → (server.minPriceForAutorouting : ℚ) < rub →
      p.missesMargin origOrder order = .ok true
  margin : LacksMargin p origOrder order →
    order.isPricePresent = false ∨ origOrder.isPricePresent = false →
      p.isAboveCap server order = true

/-! ## The tests of the code -/

/-- An order with a price of the kind its account has. -/
inductive Priced (order : ServiceTrunkOrder) : Prop
  | byPricelist (account : Client) (price : PricelistPrice) (pricelist : Pricelist)
      (haccount : order.account = some account) (version : account.accountVersion = 4)
      (hprice : order.price = some price) (hpricelist : order.pricelist = some pricelist)
  | byPackage (account : Client) (haccount : order.account = some account)
      (version : account.accountVersion = 5) (hprice : order.price = none)
      (hpricelist : order.pricelist = none)
  | missing (haccount : order.account = none)

theorem priced_of_orderOf {r : Repository} {trunk : Trunk} {dstNumber : Int}
    {order : ServiceTrunkOrder} {account : Client} (h : OrderOf r trunk dstNumber order account) :
    Priced order := by
  cases h.priced with
  | byPricelist pricelist price version hpricelist hprice =>
      exact .byPricelist account price pricelist h.ofAccount version hprice hpricelist
  | byPackage trunkSettings version priced =>
      exact .byPackage account h.ofAccount version priced.noPrice priced.noPricelist

/-- Where there is a price in roubles, the code finds the same. -/
theorem orderToRoubles_of_roublePrice {order : ServiceTrunkOrder} {rub : ℚ}
    (hpriced : Priced order) (h : p.roublePrice order = some rub) :
    p.orderToRoubles order = .ok rub := by
  unfold roublePrice Repository.orderPrice at h
  cases hpriced with
  | byPricelist account price pricelist haccount version hprice hpricelist =>
      simp only [haccount, version, hprice, hpricelist] at h
      simp only [orderToRoubles, ServiceTrunkOrder.getCurrency, ServiceTrunkOrder.getPrice, hprice,
        hpricelist]
      rw [if_neg (by decide), if_pos trivial, Option.map_some] at h
      exact congrArg Except.ok (Option.some.inj h)
  | byPackage account haccount version hprice hpricelist =>
      simp only [haccount, version, if_true, Option.map_map] at h
      obtain ⟨nnpPackage, hpackage, rfl⟩ := Option.map_eq_some_iff.mp h
      simp only [orderToRoubles, ServiceTrunkOrder.getCurrency, ServiceTrunkOrder.getPrice, hprice,
        hpricelist, hpackage]
      rfl
  | missing haccount =>
      simp only [haccount] at h
      exact absurd h (by simp)

/-- A price that is present has a currency. -/
theorem exists_currency_of_isPricePresent {order : ServiceTrunkOrder}
    (h : order.isPricePresent = true) : ∃ currencyId, order.getCurrency = some currencyId := by
  unfold ServiceTrunkOrder.isPricePresent at h
  unfold ServiceTrunkOrder.getCurrency
  cases hpricelist : order.pricelist with
  | some pricelist => exact ⟨_, rfl⟩
  | none =>
      cases hpackage : order.nnpPackage with
      | some nnpPackage => exact ⟨_, rfl⟩
      | none =>
          simp only [hpricelist, hpackage] at h
          exact absurd h (by simp)

theorem missesMargin_answers (p : RadiusAuthProcessor) (origOrder order : ServiceTrunkOrder) :
    ∃ missed, p.missesMargin origOrder order = .ok missed := by
  unfold missesMargin
  cases origOrder.trunkSettings with
  | none => exact ⟨false, rfl⟩
  | some origSettings =>
      dsimp only
      split
      case isTrue hpresent =>
        split
        case isTrue =>
          obtain ⟨origCurrency, horig⟩ := exists_currency_of_isPricePresent hpresent.2.2
          obtain ⟨currency, hcurrency⟩ := exists_currency_of_isPricePresent hpresent.2.1
          simp only [orderToRoubles, horig, hcurrency]
          exact ⟨_, rfl⟩
        case isFalse => exact ⟨false, rfl⟩
      case isFalse => exact ⟨false, rfl⟩

theorem isPricePresent_of_missesMargin {origOrder order : ServiceTrunkOrder}
    (h : p.missesMargin origOrder order = .ok true) :
    order.isPricePresent = true ∧ origOrder.isPricePresent = true := by
  unfold missesMargin at h
  cases hsettings : origOrder.trunkSettings with
  | none =>
      rw [hsettings] at h
      exact absurd h (by simp)
  | some origSettings =>
      rw [hsettings] at h
      dsimp only at h
      split at h
      case isTrue hpresent => exact hpresent.2
      case isFalse => exact absurd h (by simp)

theorem missesMargin_of_lacksMargin {origOrder order : ServiceTrunkOrder}
    (horig : Priced origOrder) (hpriced : Priced order) (h : LacksMargin p origOrder order)
    (hpresent : order.isPricePresent = true) (hpresent' : origOrder.isPricePresent = true) :
    p.missesMargin origOrder order = .ok true := by
  obtain ⟨origSettings, origRub, termRub, hsettings, htype, horigRub, htermRub, hlack⟩ := h
  have habsent : origSettings.minimumMarginType ≠ minMarginAbsent := by
    rcases htype with htype | htype
    · rw [htype]
      decide
    · rw [htype]
      decide
  unfold missesMargin
  rw [hsettings]
  dsimp only
  rw [if_pos ⟨habsent, hpresent, hpresent'⟩, if_pos htype,
    orderToRoubles_of_roublePrice horig horigRub, orderToRoubles_of_roublePrice hpriced htermRub]
  exact congrArg Except.ok (decide_eq_true hlack)

theorem isAboveCap_iff_of_pricelist {server : Server} {order : ServiceTrunkOrder}
    {price : PricelistPrice} {pricelist : Pricelist} (hprice : order.price = some price)
    (hpricelist : order.pricelist = some pricelist) :
    p.isAboveCap server order = true ↔ HasCap p server ∧
      (server.minPriceForAutorouting : ℚ) <
        p.repository.priceToRoubles price.price pricelist.currencyId := by
  unfold isAboveCap HasCap
  rw [hprice, hpricelist]
  cases p.account with
  | none => simp
  | some account => simp [and_assoc, and_comm]

theorem isAboveCap_eq_false_of_package {server : Server} {order : ServiceTrunkOrder}
    (hprice : order.price = none) : p.isAboveCap server order = false := by
  simp [isAboveCap, hprice]

theorem acceptsOrder_cases (p : RadiusAuthProcessor) (server : Server)
    (origOrder order : ServiceTrunkOrder) :
    (p.acceptsOrder server origOrder order = .ok true ∧ p.isAboveCap server order = false ∧
        p.missesMargin origOrder order = .ok false) ∨
      (p.acceptsOrder server origOrder order = .ok false ∧
        (p.isAboveCap server order = true ∨ p.missesMargin origOrder order = .ok true)) := by
  unfold acceptsOrder
  cases hcap : p.isAboveCap server order with
  | true => exact .inr ⟨rfl, .inl rfl⟩
  | false =>
      obtain ⟨missed, hmissed⟩ := missesMargin_answers p origOrder order
      rw [if_neg (by simp), hmissed]
      cases missed with
      | true => exact .inr ⟨rfl, .inr rfl⟩
      | false => exact .inl ⟨rfl, rfl, rfl⟩

/-- A declined order needs no further test. -/
theorem checked_of_declined {server : Server} {origOrder order : ServiceTrunkOrder}
    (h : p.isAboveCap server order = true ∨ p.missesMargin origOrder order = .ok true)
    (hpriced : Priced order) : Checked p server origOrder order := by
  constructor
  · intro _ hversion _ _ _
    rcases h with habove | hmissed
    · -- only orders with a price list are above the cap
      cases hpriced with
      | byPricelist account price pricelist haccount version =>
          rw [haccount, Option.map_some, Option.some.injEq, version] at hversion
          exact absurd hversion (by decide)
      | byPackage account haccount version hprice =>
          rw [isAboveCap_eq_false_of_package hprice] at habove
          exact absurd habove (by simp)
      | missing haccount =>
          rw [haccount] at hversion
          exact absurd hversion (by simp)
    · exact hmissed
  · intro _ hmissing
    rcases h with habove | hmissed
    · exact habove
    · obtain ⟨hpresent, hpresent'⟩ := isPricePresent_of_missesMargin hmissed
      rw [hpresent, hpresent'] at hmissing
      exact absurd hmissing (by simp)

/-- An accepted order obeys the cap and the margin exactly if the tests were
enough. -/
theorem obeys_iff_checked {server : Server} {origOrder order : ServiceTrunkOrder}
    (hcap : p.isAboveCap server order = false)
    (hmargin : p.missesMargin origOrder order = .ok false)
    (horig : Priced origOrder) (hpriced : Priced order) :
    Obeys p server origOrder order ↔ Checked p server origOrder order := by
  constructor
  · intro h
    constructor
    · intro hhas _ rub hrub habove
      exact absurd (h.cap hhas rub hrub) (not_le.mpr habove)
    · intro hlack
      exact absurd hlack h.margin
  · intro h
    constructor
    · intro hhas rub hrub
      -- a price above the cap would have been refused, unless it comes from a package
      by_contra habove
      rw [not_le] at habove
      cases hpriced with
      | byPricelist account price pricelist haccount version hprice hpricelist =>
          have hfound := orderToRoubles_of_roublePrice
            (.byPricelist account price pricelist haccount version hprice hpricelist) hrub
          simp only [orderToRoubles, ServiceTrunkOrder.getCurrency, ServiceTrunkOrder.getPrice,
            hprice, hpricelist, Except.ok.injEq] at hfound
          rw [← hfound] at habove
          rw [(isAboveCap_iff_of_pricelist hprice hpricelist).mpr ⟨hhas, habove⟩] at hcap
          exact absurd hcap (by simp)
      | byPackage account haccount version hprice =>
          have hmissed := h.cap hhas (by rw [haccount, Option.map_some, version]) rub hrub habove
          rw [hmissed] at hmargin
          exact absurd hmargin (by simp)
      | missing haccount =>
          simp only [roublePrice, Repository.orderPrice, haccount] at hrub
          exact absurd hrub (by simp)
    · intro hlack
      cases hpresent : order.isPricePresent with
      | false =>
          rw [h.margin hlack (.inl hpresent)] at hcap
          exact absurd hcap (by simp)
      | true =>
          cases hpresent' : origOrder.isPricePresent with
          | false =>
              rw [h.margin hlack (.inr hpresent')] at hcap
              exact absurd hcap (by simp)
          | true =>
              rw [missesMargin_of_lacksMargin horig hpriced hlack hpresent hpresent'] at hmargin
              exact absurd hmargin (by simp)

/-! ## The offered orders -/

/-- The order without what its place among the others adds to it. -/
def offer (order : ServiceTrunkOrder) : ServiceTrunkOrder :=
  { order with statsTrunkSettings := none, priority := 0 }

theorem obeys_offer {server : Server} {origOrder order : ServiceTrunkOrder} :
    Obeys p server origOrder (offer order) ↔ Obeys p server origOrder order :=
  ⟨fun h => ⟨h.cap, h.margin⟩, fun h => ⟨h.cap, h.margin⟩⟩

/-- The orders of a trunk for the numbers of the request, with the number ranges as
they are. -/
def ordersOf (p : RadiusAuthProcessor) (ranges : IntMap NNPNumberRange) (trunk : Trunk)
    (destinationType : Int) : List ServiceTrunkOrder :=
  p.repository.getTrunkSettingsOrderList trunk
    (destinationsOf p.pricingEnv ranges (atoll p.bNumber)) (atoll p.aNumber) (atoll p.bNumber)
    destinationType

/-- The originating order of the request. -/
def origOrderOf (p : RadiusAuthProcessor) (ranges : IntMap NNPNumberRange) : ServiceTrunkOrder :=
  (p.repository.orderOrigTrunkSettingsOrderList
    (p.ordersOf ranges p.origTrunk serviceTrunkSettingsOrigination)).head?.getD {}

/-- The trunks that automatic routing goes through. -/
def autoTrunks (p : RadiusAuthProcessor) (server : Server) : List Trunk :=
  p.tables.getAllAutoRoutingTrunks server.id (p.repository.data.simblingRegion server.id)

/-- An order of a trunk that passes the rules. -/
def Candidate (p : RadiusAuthProcessor) (server : Server) (skipLoopProtection : Bool)
    (ranges : IntMap NNPNumberRange) (order : ServiceTrunkOrder) : Prop :=
  ∃ termTrunk ∈ p.autoTrunks server, p.acceptsTrunk skipLoopProtection termTrunk = .ok true ∧
    order ∈ p.ordersOf ranges termTrunk serviceTrunkSettingsTermination

def holds : Except String Bool → Bool
  | .ok b => b
  | .error _ => false

theorem holds_eq_true_iff {x : Except String Bool} : holds x = true ↔ x = .ok true := by
  cases x with
  | ok b => simp [holds]
  | error message => simp [holds]

/-- The orders that a trunk offers. -/
def offeredBy (p : RadiusAuthProcessor) (server : Server) (origOrder : ServiceTrunkOrder)
    (skipLoopProtection : Bool) (ranges : IntMap NNPNumberRange) (termTrunk : Trunk) :
    List ServiceTrunkOrder :=
  if holds (p.acceptsTrunk skipLoopProtection termTrunk) then
    (p.ordersOf ranges termTrunk serviceTrunkSettingsTermination).filter
      fun order => holds (p.acceptsOrder server origOrder order)
  else
    []

section Orders

variable {ranges : IntMap NNPNumberRange} {trunk : Trunk} {destinationType : Int}
  {order : ServiceTrunkOrder}

theorem complete_of_mem_ordersOf (h : order ∈ p.ordersOf ranges trunk destinationType) :
    order.account.isSome = true ∧ order.trunkSettings.isSome = true := by
  obtain ⟨account, hof⟩ := orderOf_of_mem h
  exact ⟨by rw [hof.ofAccount]; rfl, hof.ofSettings⟩

theorem priced_of_mem_ordersOf (h : order ∈ p.ordersOf ranges trunk destinationType) :
    Priced order := by
  obtain ⟨account, hof⟩ := orderOf_of_mem h
  exact priced_of_orderOf hof

theorem priced_origOrderOf : Priced (p.origOrderOf ranges) := by
  unfold origOrderOf
  cases hhead : (p.repository.orderOrigTrunkSettingsOrderList
      (p.ordersOf ranges p.origTrunk serviceTrunkSettingsOrigination)).head? with
  | none => exact .missing rfl
  | some order =>
      exact priced_of_mem_ordersOf (Repository.mem_orderOrigTrunkSettingsOrderList
        (List.mem_of_head? hhead))

end Orders

/-! ## The run -/

section Run

variable {ranges : IntMap NNPNumberRange} {server : Server} {origOrder : ServiceTrunkOrder}
  {fUseMinimalki skipLoopProtection : Bool} {now : Int}

/-- Routing leaves the number ranges alone. -/
def HasRanges (ranges : IntMap NNPNumberRange) (s : PricingState) : Prop :=
  s.numberRanges = ranges

theorem triple_orStop {α : Type} {P : PricingState → Prop} (x : Except String α) :
    Triple P (orStop x) (fun a s => P s ∧ x = .ok a) fun _ => True := by
  cases x with
  | ok a => exact triple_pure fun _ hs => ⟨hs, rfl⟩
  | error message => exact triple_throw fun _ _ => trivial

theorem triple_getTrunkSettingsOrderList (trunk : Trunk) (destinationType : Int) :
    Triple (HasRanges ranges)
      (BillingCall.getTrunkSettingsOrderList p.pricingEnv trunk (atoll p.aNumber) (atoll p.bNumber)
        destinationType)
      (fun orders s => HasRanges ranges s ∧ orders = p.ordersOf ranges trunk destinationType)
      fun _ => True := by
  intro s hs
  show HasRanges ranges s ∧ _ = _
  refine ⟨hs, ?_⟩
  rw [← show s.numberRanges = ranges from hs]
  rfl

theorem triple_orderTerm {orders : List ServiceTrunkOrder}
    (h : ∀ order ∈ orders, order.account.isSome = true ∧ order.trunkSettings.isSome = true) :
    Triple (HasRanges ranges)
      (BillingCall.orderTermTrunkSettingsOrderList p.pricingEnv orders fUseMinimalki now)
      (fun ordered s => HasRanges ranges s ∧ (ordered.map offer).Perm (orders.map offer))
      fun _ => True := by
  intro s hs
  rw [exec_orderTermTrunkSettingsOrderList fUseMinimalki h]
  refine ⟨hs, ?_⟩
  have hperm : ((termOrders p.pricingEnv s.billingData.statsTrunkSettings orders fUseMinimalki
      now).map withoutStats).Perm (orders.map withoutStats) := termOrders_perm h
  have hoffer := hperm.map offer
  rw [List.map_map, List.map_map] at hoffer
  exact hoffer

/-- The tests do not look at the place of an order. -/
theorem map_offer_filter (orders : List ServiceTrunkOrder) :
    (orders.filter fun order => holds (p.acceptsOrder server origOrder order)).map offer =
      (orders.map offer).filter fun order => holds (p.acceptsOrder server origOrder order) := by
  rw [List.filter_map]
  rfl

/-- The accepted ones among the orders. -/
theorem flatten_eq_filter {orders : List ServiceTrunkOrder}
    {offered : List (List ServiceTrunkOrder)}
    (h : List.Forall₂ (fun order kept => ∃ accepted,
      p.acceptsOrder server origOrder order = .ok accepted ∧
        kept = if accepted then [order] else []) orders offered) :
    offered.flatten = orders.filter fun order => holds (p.acceptsOrder server origOrder order) := by
  induction h with
  | nil => rfl
  | @cons order kept orders offered hfirst _ ih =>
      obtain ⟨accepted, haccepts, rfl⟩ := hfirst
      rw [List.flatten_cons, ih]
      cases accepted with
      | true =>
          rw [List.filter_cons_of_pos (by rw [haccepts]; rfl), if_pos rfl]
          rfl
      | false =>
          rw [List.filter_cons_of_neg (by rw [haccepts]; simp [holds]), if_neg (by simp)]
          rfl

theorem triple_termTrunkOrders (termTrunk : Trunk) :
    Triple (HasRanges ranges)
      (p.termTrunkOrders server origOrder fUseMinimalki skipLoopProtection now termTrunk)
      (fun offered s => HasRanges ranges s ∧ (offered.map offer).Perm
        ((p.offeredBy server origOrder skipLoopProtection ranges termTrunk).map offer))
      fun _ => True := by
  unfold termTrunkOrders offeredBy
  refine triple_bind (triple_orStop _) fun accepted => ?_
  refine triple_of_fact (fun _ hs => hs.2) fun haccepted => ?_
  rw [haccepted]
  cases accepted with
  | false => exact triple_pure fun _ hs => ⟨hs.1, .refl _⟩
  | true =>
      refine triple_bind ((triple_getTrunkSettingsOrderList termTrunk _).pre fun _ hs => hs.1)
        fun orders => ?_
      refine triple_of_fact (fun _ hs => hs.2) fun horders => ?_
      subst horders
      refine triple_bind ((triple_orderTerm fun _ => complete_of_mem_ordersOf).pre
        fun _ hs => hs.1) fun ordered => ?_
      refine triple_of_fact (fun _ hs => hs.2) fun hordered => ?_
      -- the test of one order, then of all
      have htest : ∀ order ∈ ordered, Triple (HasRanges ranges)
          (do
            if ← orStop (p.acceptsOrder server origOrder order) then
              return [order]
            else
              return [] : Pricing (List ServiceTrunkOrder))
          (fun kept s => HasRanges ranges s ∧ ∃ accepted,
            p.acceptsOrder server origOrder order = .ok accepted ∧
              kept = if accepted then [order] else []) fun _ => True := by
        intro order _
        refine triple_bind (triple_orStop _) fun accepted => ?_
        cases accepted with
        | true => exact triple_pure fun _ hs => ⟨hs.1, true, hs.2, rfl⟩
        | false => exact triple_pure fun _ hs => ⟨hs.1, false, hs.2, rfl⟩
      refine triple_bind ((triple_mapM htest).pre fun _ hs => hs.1) fun offered => ?_
      refine triple_pure fun _ hs => ⟨hs.1, ?_⟩
      rw [flatten_eq_filter hs.2, map_offer_filter, holds, if_pos rfl, map_offer_filter]
      exact hordered.filter _

theorem offer_withPriority {order order' : ServiceTrunkOrder}
    (h : p.withPriority order = .ok order') : offer order' = offer order := by
  unfold withPriority at h
  split at h
  case h_1 =>
    cases h
    rfl
  case h_2 trunk _ =>
    cases hpriority : p.priorityOf trunk.defaultPriority (p.tables.trunkPriority trunk.id) with
    | error message =>
        rw [hpriority] at h
        exact absurd h (by simp [Bind.bind, Except.bind])
    | ok priority =>
        rw [hpriority] at h
        cases h
        rfl

/-- The offered orders of all trunks. -/
def offered (p : RadiusAuthProcessor) (server : Server) (origOrder : ServiceTrunkOrder)
    (skipLoopProtection : Bool) (ranges : IntMap NNPNumberRange) : List ServiceTrunkOrder :=
  (p.autoTrunks server).flatMap (p.offeredBy server origOrder skipLoopProtection ranges)

theorem mem_offered_iff {order : ServiceTrunkOrder} :
    order ∈ p.offered server origOrder skipLoopProtection ranges ↔
      Candidate p server skipLoopProtection ranges order ∧
        p.acceptsOrder server origOrder order = .ok true := by
  unfold offered Candidate offeredBy
  rw [List.mem_flatMap]
  constructor
  · rintro ⟨termTrunk, htrunk, hmem⟩
    split at hmem
    case isTrue haccepts =>
      obtain ⟨horder, hkept⟩ := List.mem_filter.mp hmem
      exact ⟨⟨termTrunk, htrunk, holds_eq_true_iff.mp haccepts, horder⟩,
        holds_eq_true_iff.mp hkept⟩
    case isFalse => exact absurd hmem (by simp)
  · rintro ⟨⟨termTrunk, htrunk, haccepts, horder⟩, hkept⟩
    refine ⟨termTrunk, htrunk, ?_⟩
    rw [if_pos (holds_eq_true_iff.mpr haccepts)]
    exact List.mem_filter.mpr ⟨horder, holds_eq_true_iff.mpr hkept⟩

theorem complete_of_mem_offered {order : ServiceTrunkOrder}
    (h : order ∈ p.offered server origOrder skipLoopProtection ranges) :
    order.account.isSome = true ∧ order.trunkSettings.isSome = true := by
  obtain ⟨⟨termTrunk, _, _, hmem⟩, _⟩ := mem_offered_iff.mp h
  exact complete_of_mem_ordersOf hmem

theorem map_offer_flatten {termTrunks : List Trunk} {lists : List (List ServiceTrunkOrder)}
    {f : Trunk → List ServiceTrunkOrder}
    (h : List.Forall₂ (fun termTrunk orders => (orders.map offer).Perm ((f termTrunk).map offer))
      termTrunks lists) :
    (lists.flatten.map offer).Perm ((termTrunks.flatMap f).map offer) := by
  induction h with
  | nil => exact .refl _
  | cons hfirst _ ih =>
      rw [List.flatten_cons, List.flatMap_cons, List.map_append, List.map_append]
      exact hfirst.append ih

theorem map_offer_eq {orders orders' : List ServiceTrunkOrder}
    (h : List.Forall₂ (fun order order' => offer order' = offer order) orders orders') :
    orders'.map offer = orders.map offer := by
  induction h with
  | nil => rfl
  | cons hfirst _ ih => rw [List.map_cons, List.map_cons, hfirst, ih]

/-- The routes are the offered orders, each once. -/
theorem triple_getAvailableTermServiceTrunk :
    Triple (HasRanges ranges)
      (p.getAvailableTermServiceTrunk server origOrder fUseMinimalki skipLoopProtection now)
      (fun routes s => HasRanges ranges s ∧ (routes.map offer).Perm
        ((p.offered server origOrder skipLoopProtection ranges).map offer))
      fun _ => True := by
  unfold getAvailableTermServiceTrunk
  refine triple_bind (triple_mapM fun termTrunk _ => triple_termTrunkOrders termTrunk)
    fun lists => ?_
  refine triple_of_fact (fun _ hs => hs.2) fun hlists => ?_
  have hflat : (lists.flatten.map offer).Perm
      ((p.offered server origOrder skipLoopProtection ranges).map offer) :=
    map_offer_flatten hlists
  have hpriority : ∀ order ∈ lists.flatten, Triple (HasRanges ranges)
      (orStop (p.withPriority order))
      (fun order' s => HasRanges ranges s ∧ offer order' = offer order) fun _ => True :=
    fun order _ => (triple_orStop _).post fun _ _ hs => ⟨hs.1, offer_withPriority hs.2⟩
  refine triple_bind ((triple_mapM hpriority).pre fun _ hs => hs.1) fun prioritised => ?_
  refine triple_of_fact (fun _ hs => hs.2) fun hprioritised => ?_
  have hsame := map_offer_eq hprioritised
  have hcomplete : ∀ order ∈ prioritised,
      order.account.isSome = true ∧ order.trunkSettings.isSome = true := by
    intro order hmem
    have hoffer : offer order ∈
        (p.offered server origOrder skipLoopProtection ranges).map offer := by
      rw [← hflat.mem_iff, ← hsame]
      exact List.mem_map_of_mem hmem
    obtain ⟨order', hmem', heq⟩ := List.mem_map.mp hoffer
    have haccount : (offer order').account = (offer order).account := by rw [heq]
    have hsettings : (offer order').trunkSettings = (offer order).trunkSettings := by rw [heq]
    obtain ⟨hsome, hsome'⟩ := complete_of_mem_offered hmem'
    exact ⟨haccount ▸ hsome, hsettings ▸ hsome'⟩
  refine ((triple_orderTerm hcomplete).pre fun _ hs => hs.1).post fun routes _ hs => ⟨hs.1, ?_⟩
  rw [hsame] at hs
  exact hs.2.trans hflat

/-- The originating order is the one the routes are compared with. -/
theorem triple_autoRoutes :
    Triple (HasRanges ranges) (p.autoRoutes server skipLoopProtection now)
      (fun found _ => found.1 = p.origOrderOf ranges ∧ (found.2.map offer).Perm
        ((p.offered server (p.origOrderOf ranges) skipLoopProtection ranges).map offer))
      fun _ => True := by
  unfold autoRoutes getAvailableOrigServiceTrunk
  refine triple_bind (R := fun origOrder s => HasRanges ranges s ∧
    origOrder = p.origOrderOf ranges) ?_ fun origOrder => ?_
  · refine triple_bind (triple_getTrunkSettingsOrderList p.origTrunk _) fun orders => ?_
    refine triple_pure fun _ hs => ⟨hs.1, ?_⟩
    rw [hs.2]
    rfl
  · refine triple_of_fact (fun _ hs => hs.2) fun horig => ?_
    subst horig
    refine triple_bind (triple_getAvailableTermServiceTrunk.pre fun _ hs => hs.1) fun routes => ?_
    exact triple_pure fun _ hs => ⟨rfl, hs.2⟩

end Run

/-! ## When all offered routes obey -/

/-- The routes that are offered for a request all obey the cap and the margin
exactly if every order of a trunk that passes the rules is one the tests of the code
decide rightly. -/
theorem autoRoutes_obey_iff (p : RadiusAuthProcessor) (server : Server)
    (skipLoopProtection : Bool) (now : Int) (s s' : PricingState) (origOrder : ServiceTrunkOrder)
    (routes : List ServiceTrunkOrder)
    (h : exec (p.autoRoutes server skipLoopProtection now) s = (.ok (origOrder, routes), s')) :
    (∀ order ∈ routes, Obeys p server origOrder order) ↔
      ∀ order, Candidate p server skipLoopProtection s.numberRanges order →
        Checked p server (p.origOrderOf s.numberRanges) order := by
  have hends := @triple_autoRoutes p s.numberRanges server skipLoopProtection now s rfl
  rw [h] at hends
  obtain ⟨rfl, hperm⟩ := hends
  constructor
  · intro hobeys order hcandidate
    obtain ⟨_, _, _, hmem⟩ := id hcandidate
    rcases acceptsOrder_cases p server (p.origOrderOf s.numberRanges) order with
      ⟨haccepts, hcap, hmargin⟩ | ⟨_, hdeclined⟩
    · -- an accepted order is among the routes, in some place
      have hoffer : offer order ∈ routes.map offer :=
        hperm.mem_iff.mpr (List.mem_map_of_mem (mem_offered_iff.mpr ⟨hcandidate, haccepts⟩))
      obtain ⟨route, hroute, heq⟩ := List.mem_map.mp hoffer
      have horder : Obeys p server (p.origOrderOf s.numberRanges) order :=
        obeys_offer.mp (heq ▸ obeys_offer.mpr (hobeys route hroute))
      exact (obeys_iff_checked hcap hmargin priced_origOrderOf
        (priced_of_mem_ordersOf hmem)).mp horder
    · exact checked_of_declined hdeclined (priced_of_mem_ordersOf hmem)
  · intro hchecked route hroute
    have hoffer := hperm.mem_iff.mp (List.mem_map_of_mem hroute)
    obtain ⟨order, horder, heq⟩ := List.mem_map.mp hoffer
    obtain ⟨hcandidate, haccepts⟩ := mem_offered_iff.mp horder
    obtain ⟨_, _, _, hmem⟩ := id hcandidate
    rcases acceptsOrder_cases p server (p.origOrderOf s.numberRanges) order with
      ⟨_, hcap, hmargin⟩ | ⟨hdeclines, _⟩
    · have hobeys := (obeys_iff_checked hcap hmargin priced_origOrderOf
        (priced_of_mem_ordersOf hmem)).mpr (hchecked order hcandidate)
      exact obeys_offer.mp (heq ▸ obeys_offer.mpr hobeys)
    · rw [hdeclines] at haccepts
      exact absurd haccepts (by simp)

/-- A request of account 3 with one trunk open to automatic routing, whose only
setting is that of a version 5 account with a package price list at 100 roubles. -/
def packageRequest : RadiusAuthProcessor where
  repository :=
    { data :=
        { client := fun _ => some { id := 7, accountVersion := 5 }
          serviceTrunks := fun trunkId _ => [{ id := 5, clientAccountId := 7, trunkId := trunkId }]
          serviceTrunkSettings := fun _ destinationType =>
            if destinationType = 2 then [{ id := 9, nnpTariffId := 10 }] else []
          nnpPackage := fun _ => some { id := 10, currencyId := "RUB".toList }
          nnpPackagePricelist := [{ id := 6, nnpTariffId := 10, pricelistId := 8 }]
          pricelistPrice := fun _ _ _ => some { price := 100 } }
      currentTime := 0 }
  tables :=
    { trunks :=
        [{ id := 2
           serverId := 1
           autoRouting := true
           sourceTrunkRuleDefaultAllowed := true
           sourceRuleDefaultAllowed := true
           destinationRuleDefaultAllowed := true }] }
  account := some { id := 3 }

/-- A region with a cap of 10 roubles. -/
def cappedServer : Server := { id := 1, minPriceForAutorouting := 10 }

/-- The package price of 100 roubles is offered. -/
theorem packageRequest_routes :
    ∃ origOrder routes s',
      exec (packageRequest.autoRoutes cappedServer false 0) noCounters =
          (.ok (origOrder, routes), s') ∧
        ∃ order ∈ routes, packageRequest.roublePrice order = some 100 := by
  have hoffered : (match (exec (packageRequest.autoRoutes cappedServer false 0) noCounters).1 with
      | .ok found => found.2.any fun order =>
          decide (packageRequest.roublePrice order = some 100)
      | .error _ => false) = true := by decide +kernel
  generalize hrun : exec (packageRequest.autoRoutes cappedServer false 0) noCounters = run
    at hoffered
  match run with
  | (.error _, _) => exact absurd hoffered (by simp)
  | (.ok (origOrder, routes), s') =>
      obtain ⟨order, hmem, hprice⟩ := List.any_eq_true.mp hoffered
      exact ⟨origOrder, routes, s', rfl, order, hmem, of_decide_eq_true hprice⟩

theorem autoRoutes_obey_iff_packageRequest :
    ∃ origOrder routes s',
      exec (packageRequest.autoRoutes cappedServer false 0) noCounters =
          (.ok (origOrder, routes), s') ∧
        ((∀ order ∈ routes, Obeys packageRequest cappedServer origOrder order) ↔
          ∀ order, Candidate packageRequest cappedServer false noCounters.numberRanges order →
            Checked packageRequest cappedServer
              (packageRequest.origOrderOf noCounters.numberRanges) order) := by
  obtain ⟨origOrder, routes, s', hrun, -⟩ := packageRequest_routes
  exact ⟨origOrder, routes, s', hrun, autoRoutes_obey_iff _ _ _ _ _ _ _ _ hrun⟩

/-- The cap of 10 roubles does not keep the package price of 100 roubles back. -/
theorem not_obeys_packageRequest :
    ∃ origOrder routes s',
      exec (packageRequest.autoRoutes cappedServer false 0) noCounters =
          (.ok (origOrder, routes), s') ∧
        ¬∀ order ∈ routes, Obeys packageRequest cappedServer origOrder order := by
  obtain ⟨origOrder, routes, s', hrun, order, hmem, hprice⟩ := packageRequest_routes
  refine ⟨origOrder, routes, s', hrun, fun hobeys => ?_⟩
  have hcap : HasCap packageRequest cappedServer := ⟨by decide, { id := 3 }, rfl, rfl⟩
  have hle := (hobeys order hmem).cap hcap 100 hprice
  have hten : ((cappedServer.minPriceForAutorouting : Int) : ℚ) = 10 := by
    norm_num [cappedServer]
  rw [hten] at hle
  norm_num at hle

end RadiusAuthProcessor
end VoipBill
