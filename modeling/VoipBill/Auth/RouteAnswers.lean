import VoipBill.Auth.RadiusAnswers
import VoipBill.Billing.TermOrder

/-!
# The routes of an automatic answer

* `processAutoOutcome_routes`: the route case names the first three trunks of the ranked offers,
  each once and in their order, none of them the trunk the call came in through;
* `process_eq_none_iff`: only pricing and a route table that leads back to itself can end the
  process.

Both rest on what an offer carries: a trunk, an account and a setting.
-/

namespace VoipBill
namespace RadiusAuthProcessor

open Lib Lib.Hoare BillingCall

variable {p : RadiusAuthProcessor} {server : Server} {origOrder : ServiceTrunkOrder}
  {fUseMinimalki skipLoopProtection : Bool} {now : Int} {ranges : IntMap NNPNumberRange}

/-! ## Offers -/

/-- What the ordering of the offers uses. -/
def Complete (order : ServiceTrunkOrder) : Prop :=
  order.account.isSome = true ∧ order.trunkSettings.isSome = true

theorem trunk_of_mem_ordersOf {order : ServiceTrunkOrder} {trunk : Trunk} {destinationType : Int}
    (h : order ∈ p.ordersOf ranges trunk destinationType) : order.trunk = some trunk := by
  obtain ⟨serviceTrunk, -, horder⟩ := List.mem_flatMap.mp h
  obtain ⟨trunkSettings, -, hmap⟩ := List.mem_filterMap.mp horder
  obtain ⟨unplaced, -, rfl⟩ := Option.map_eq_some_iff.mp hmap
  rfl

/-- An offered order goes through a trunk that passes the rules. -/
theorem trunk_of_mem_offered {order : ServiceTrunkOrder}
    (h : order ∈ p.offered server origOrder skipLoopProtection ranges) :
    ∃ termTrunk ∈ p.autoTrunks server, p.acceptsTrunk skipLoopProtection termTrunk = .ok true ∧
      order.trunk = some termTrunk := by
  obtain ⟨⟨termTrunk, hmem, haccepts, horder⟩, -⟩ := mem_offered_iff.mp h
  exact ⟨termTrunk, hmem, haccepts, trunk_of_mem_ordersOf horder⟩

/-- The trunk of the call is not accepted while the loop protection is on. -/
theorem id_ne_of_acceptsTrunk {termTrunk : Trunk}
    (h : p.acceptsTrunk skipLoopProtection termTrunk = .ok true)
    (hid : p.origTrunk.id = termTrunk.id) : skipLoopProtection = true := by
  by_contra hoff
  unfold acceptsTrunk at h
  rw [(Bool.not_eq_true _).mp hoff, hid] at h
  simp [pure, Except.pure] at h

/-! ## Routing uses no missing object -/

variable (p server skipLoopProtection) in
/-- No rule of a trunk and no priority stops the routing with this error. -/
structure Quiet (bad : CalcStop) : Prop where
  trunk : ∀ termTrunk ∈ p.autoTrunks server, ∀ message,
    p.acceptsTrunk skipLoopProtection termTrunk = .error message → .calcException message ≠ bad
  priority : ∀ order message, p.withPriority order = .error message →
    .calcException message ≠ bad

theorem quiet_nullPointer : Quiet p server skipLoopProtection .nullPointer :=
  ⟨fun _ _ _ _ => by simp, fun _ _ _ => by simp⟩

variable {bad : CalcStop}

theorem avoids_orStop {α : Type} {P : PricingState → Prop} {x : Except String α}
    (h : ∀ message, x = .error message → .calcException message ≠ bad) :
    Avoids bad P (orStop x) (fun a s => P s ∧ x = .ok a) := by
  cases x with
  | ok a => exact avoids_pure fun _ hs => ⟨hs, rfl⟩
  | error message => exact avoids_throw (h message rfl)

theorem avoids_getTrunkSettingsOrderList (trunk : Trunk) (destinationType : Int) :
    Avoids bad (fun _ => True)
      (BillingCall.getTrunkSettingsOrderList p.pricingEnv trunk (atoll p.aNumber) (atoll p.bNumber)
        destinationType)
      (fun orders _ => ∀ order ∈ orders, Complete order) := by
  intro s _
  have hexec : exec (BillingCall.getTrunkSettingsOrderList p.pricingEnv trunk (atoll p.aNumber)
      (atoll p.bNumber) destinationType) s =
        (.ok (p.ordersOf s.numberRanges trunk destinationType), s) := rfl
  rw [hexec]
  refine ⟨by simp, fun orders s' heq => ?_⟩
  cases heq
  exact fun order => complete_of_mem_ordersOf

theorem avoids_orderTerm {orders : List ServiceTrunkOrder} (h : ∀ order ∈ orders, Complete order) :
    Avoids bad (fun _ => True)
      (BillingCall.orderTermTrunkSettingsOrderList p.pricingEnv orders fUseMinimalki now)
      (fun ordered _ => (∀ order ∈ ordered, Complete order) ∧
        ordered.Pairwise (Before p.repository fUseMinimalki)) := by
  intro s _
  rw [exec_orderTermTrunkSettingsOrderList fUseMinimalki h]
  refine ⟨by simp, fun ordered s' heq => ?_⟩
  cases heq
  refine ⟨fun order hmem => ?_, ?_⟩
  · obtain ⟨order', hmem', stats, rfl⟩ := of_mem_termOrders hmem
    exact h order' hmem'
  · exact termOrdersBy_pairwise Repository.sortsBy_sortByPrice fun _ hmem =>
      hasUnfilledMinimum_of_mem_lookUpStats hmem

theorem forall_of_forall₂ {α β : Type} {R : β → Prop} {as : List α} {bs : List β}
    (h : List.Forall₂ (fun _ b => R b) as bs) : ∀ b ∈ bs, R b := by
  induction h with
  | nil => exact fun b hmem => absurd hmem (by simp)
  | cons hfirst _ ih => exact List.forall_mem_cons.mpr ⟨hfirst, ih⟩

theorem complete_of_flatten {β : Type} {bs : List β} {lists : List (List ServiceTrunkOrder)}
    (h : List.Forall₂ (fun _ orders => ∀ order ∈ orders, Complete order) bs lists) :
    ∀ order ∈ lists.flatten, Complete order := by
  intro order hmem
  obtain ⟨orders, horders, hin⟩ := List.mem_flatten.mp hmem
  exact forall_of_forall₂ h orders horders order hin

/-- The test of an order is always answered. -/
theorem acceptsOrder_ne_error (order : ServiceTrunkOrder) (message : String) :
    p.acceptsOrder server origOrder order ≠ .error message := by
  intro herror
  rcases acceptsOrder_cases p server origOrder order with ⟨hok, -⟩ | ⟨hok, -⟩
  · rw [hok] at herror
    cases herror
  · rw [hok] at herror
    cases herror

theorem avoids_testOrder {order : ServiceTrunkOrder} (hcomplete : Complete order) :
    Avoids bad (fun _ => True)
      (do
        if ← orStop (p.acceptsOrder server origOrder order) then
          return [order]
        else
          return [] : Pricing (List ServiceTrunkOrder))
      (fun kept _ => True ∧ ∀ order' ∈ kept, Complete order') := by
  have hanswers : ∀ message, p.acceptsOrder server origOrder order = .error message →
      CalcStop.calcException message ≠ bad :=
    fun message herror => absurd herror (acceptsOrder_ne_error order message)
  refine avoids_bind (avoids_orStop hanswers) fun accepted => ?_
  cases accepted with
  | true =>
      refine avoids_pure fun _ _ => ⟨trivial, fun order' hkept => ?_⟩
      rw [List.mem_singleton.mp hkept]
      exact hcomplete
  | false => exact avoids_pure fun _ _ => ⟨trivial, fun order' hkept => absurd hkept (by simp)⟩

theorem avoids_termTrunkOrders (hquiet : Quiet p server skipLoopProtection bad)
    {termTrunk : Trunk} (hmem : termTrunk ∈ p.autoTrunks server) :
    Avoids bad (fun _ => True)
      (p.termTrunkOrders server origOrder fUseMinimalki skipLoopProtection now termTrunk)
      (fun orders _ => True ∧ ∀ order ∈ orders, Complete order) := by
  unfold termTrunkOrders
  refine avoids_bind (avoids_orStop (hquiet.trunk termTrunk hmem)) fun accepted => ?_
  cases accepted with
  | false => exact avoids_pure fun _ _ => ⟨trivial, fun order hmem => absurd hmem (by simp)⟩
  | true =>
      refine avoids_bind ((avoids_getTrunkSettingsOrderList termTrunk _).pre fun _ _ => trivial)
        fun orders => ?_
      refine avoids_of_fact (fun _ hs => hs) fun horders => ?_
      refine avoids_bind ((avoids_orderTerm horders).pre fun _ _ => trivial) fun ordered => ?_
      refine avoids_of_fact (fun _ hs => hs.1) fun hordered => ?_
      -- each order is tested on its own
      refine avoids_bind ((avoids_mapM fun order hmem =>
        avoids_testOrder (hordered order hmem)).pre fun _ _ => trivial) fun offered => ?_
      exact avoids_pure fun _ hs => ⟨trivial, complete_of_flatten hs.2⟩

theorem complete_withPriority {order order' : ServiceTrunkOrder} (h : Complete order)
    (horder : p.withPriority order = .ok order') : Complete order' := by
  have hoffer := offer_withPriority horder
  have haccount : (offer order').account = (offer order).account := by rw [hoffer]
  have hsettings : (offer order').trunkSettings = (offer order).trunkSettings := by rw [hoffer]
  exact ⟨haccount ▸ h.1, hsettings ▸ h.2⟩

theorem avoids_withPriority (hquiet : Quiet p server skipLoopProtection bad)
    {order : ServiceTrunkOrder} (h : Complete order) :
    Avoids bad (fun _ => True) (orStop (p.withPriority order))
      (fun order' _ => True ∧ Complete order') := by
  intro s hs
  obtain ⟨hne, hok⟩ := avoids_orStop (P := fun _ => True) (hquiet.priority order) s hs
  exact ⟨hne, fun order' s' heq => ⟨trivial, complete_withPriority h (hok order' s' heq).2⟩⟩

theorem avoids_getAvailableTermServiceTrunk (hquiet : Quiet p server skipLoopProtection bad) :
    Avoids bad (fun _ => True)
      (p.getAvailableTermServiceTrunk server origOrder fUseMinimalki skipLoopProtection now)
      (fun orders _ => orders.Pairwise (Before p.repository fUseMinimalki)) := by
  unfold getAvailableTermServiceTrunk
  refine avoids_bind (avoids_mapM fun termTrunk hmem => avoids_termTrunkOrders hquiet hmem)
    fun lists => ?_
  refine avoids_of_fact (fun _ hs => complete_of_flatten hs.2) fun hlists => ?_
  refine avoids_bind ((avoids_mapM fun order hmem =>
    avoids_withPriority hquiet (hlists order hmem)).pre fun _ _ => trivial) fun prioritised => ?_
  refine avoids_of_fact (fun _ hs => forall_of_forall₂ hs.2) fun hprioritised => ?_
  intro s _
  obtain ⟨hne, hok⟩ := avoids_orderTerm (p := p) hprioritised s trivial
  exact ⟨hne, fun orders s' heq => (hok orders s' heq).2⟩

variable (p server skipLoopProtection now) in
theorem avoids_autoRoutes (hquiet : Quiet p server skipLoopProtection bad) :
    Avoids bad (fun _ => True) (p.autoRoutes server skipLoopProtection now)
      (fun found _ => found.2.Pairwise (Before p.repository p.origTrunk.swMinimalki)) := by
  unfold autoRoutes getAvailableOrigServiceTrunk
  refine avoids_bind (avoids_bind (avoids_getTrunkSettingsOrderList p.origTrunk _) fun orders =>
    avoids_pure (Q := fun _ _ => True) fun _ _ => trivial) fun origOrder => ?_
  refine avoids_bind ((avoids_getAvailableTermServiceTrunk hquiet).pre fun _ _ => trivial)
    fun termOrders => ?_
  exact avoids_pure fun _ hs => hs

/-- Where no rule and no priority refers to a missing list or group, the routes are returned. -/
theorem returns_autoRoutes
    (htrunk : ∀ termTrunk ∈ p.autoTrunks server,
      (p.acceptsTrunk skipLoopProtection termTrunk).toOption.isSome = true)
    (hpriority : ∀ order, (p.withPriority order).toOption.isSome = true) (now : Int)
    (s : PricingState) :
    ∃ origOrder routes s',
      exec (p.autoRoutes server skipLoopProtection now) s = (.ok (origOrder, routes), s') := by
  rcases hrun : exec (p.autoRoutes server skipLoopProtection now) s with
    ⟨stop | ⟨origOrder, routes⟩, s'⟩
  · have hquiet : Quiet p server skipLoopProtection stop := by
      refine ⟨fun termTrunk hmem message herror => ?_, fun order message herror => ?_⟩
      · have hsome := htrunk termTrunk hmem
        rw [herror] at hsome
        cases hsome
      · have hsome := hpriority order
        rw [herror] at hsome
        cases hsome
    have hne := (avoids_autoRoutes p server skipLoopProtection now hquiet s trivial).1
    rw [hrun] at hne
    exact absurd rfl hne
  · exact ⟨origOrder, routes, s', rfl⟩

end RadiusAuthProcessor

namespace AuthEnv

open Lib Lib.Hoare BillingCall RadiusAuthProcessor

/-! ## The trunks of a route case -/

/-- The id of the trunk of an order is among those of some trunks. -/
def Names (trunks : List Trunk) (order : ServiceTrunkOrder) : Prop :=
  ∃ trunk, order.trunk = some trunk ∧ trunk.id ∈ trunks.map fun other => other.id

/-- The trunks of the orders seen so far, each once. -/
structure Collected (seen : List ServiceTrunkOrder) (trunks : List Trunk) : Prop where
  nodup : (trunks.map fun trunk => trunk.id).Nodup
  source : ∀ trunk ∈ trunks, ∃ order ∈ seen, order.trunk = some trunk
  ranked : (trunks.map some).Sublist (seen.map fun order => order.trunk)
  complete : ∀ order ∈ seen, Names trunks order

/-- The first three trunks of a list of routes in their order, or all of them. -/
structure FirstTrunks (routes : List ServiceTrunkOrder) (trunks : List Trunk) : Prop where
  length_le : trunks.length ≤ 3
  nodup : (trunks.map fun trunk => trunk.id).Nodup
  source : ∀ trunk ∈ trunks, ∃ order ∈ routes, order.trunk = some trunk
  ranked : (trunks.map some).Sublist (routes.map fun order => order.trunk)
  complete : trunks.length < 3 → ∀ order ∈ routes, Names trunks order
  first : ∀ order ∈ routes, ¬ Names trunks order →
    ∀ trunk ∈ trunks, ∃ earlier, [earlier, order].Sublist routes ∧ earlier.trunk = some trunk

namespace Collected

variable {seen : List ServiceTrunkOrder} {trunks : List Trunk} {order : ServiceTrunkOrder}
  {trunk : Trunk}

theorem snoc_old (h : Collected seen trunks) (hnames : Names trunks order) :
    Collected (seen ++ [order]) trunks where
  nodup := h.nodup
  source trunk' hmem := by
    obtain ⟨order', hin, htrunk⟩ := h.source trunk' hmem
    exact ⟨order', List.mem_append_left _ hin, htrunk⟩
  ranked := by
    rw [List.map_append]
    exact h.ranked.trans (List.sublist_append_left _ _)
  complete order' hmem := by
    rcases List.mem_append.mp hmem with hin | hlast
    · exact h.complete order' hin
    · rw [List.mem_singleton.mp hlast]
      exact hnames

theorem snoc_new (h : Collected seen trunks) (htrunk : order.trunk = some trunk)
    (hnew : trunk.id ∉ trunks.map fun other => other.id) :
    Collected (seen ++ [order]) (trunks ++ [trunk]) where
  nodup := by
    rw [List.map_append, List.nodup_append]
    refine ⟨h.nodup, List.nodup_singleton _, ?_⟩
    intro id hid id' hid' heq
    rw [List.map_singleton, List.mem_singleton] at hid'
    exact hnew (by rw [← hid', ← heq]; exact hid)
  source trunk' hmem := by
    rcases List.mem_append.mp hmem with hin | hlast
    · obtain ⟨order', hin', htrunk'⟩ := h.source trunk' hin
      exact ⟨order', List.mem_append_left _ hin', htrunk'⟩
    · rw [List.mem_singleton.mp hlast]
      exact ⟨order, by simp, htrunk⟩
  ranked := by
    rw [List.map_append, List.map_append]
    refine h.ranked.append ?_
    rw [List.map_singleton, List.map_singleton, htrunk]
  complete order' hmem := by
    rcases List.mem_append.mp hmem with hin | hlast
    · obtain ⟨trunk', htrunk', hid⟩ := h.complete order' hin
      exact ⟨trunk', htrunk', by rw [List.map_append]; exact List.mem_append_left _ hid⟩
    · rw [List.mem_singleton.mp hlast]
      exact ⟨trunk, htrunk, by simp⟩

/-- All orders have been seen. -/
theorem firstTrunks (h : Collected seen trunks) (hlength : trunks.length ≤ 3) :
    FirstTrunks seen trunks where
  length_le := hlength
  nodup := h.nodup
  source := h.source
  ranked := h.ranked
  complete _ := h.complete
  first order hmem hnot := absurd (h.complete order hmem) hnot

/-- Three trunks have been collected. -/
theorem firstTrunks_full (h : Collected seen trunks) (hlength : trunks.length = 3)
    (orders : List ServiceTrunkOrder) : FirstTrunks (seen ++ orders) trunks where
  length_le := hlength.le
  nodup := h.nodup
  source trunk hmem := by
    obtain ⟨order, hin, htrunk⟩ := h.source trunk hmem
    exact ⟨order, List.mem_append_left _ hin, htrunk⟩
  ranked := by
    rw [List.map_append]
    exact h.ranked.trans (List.sublist_append_left _ _)
  complete hlt := absurd hlength hlt.ne
  first order hmem hnot trunk htrunk := by
    have hrest : order ∈ orders :=
      (List.mem_append.mp hmem).resolve_left fun hin => hnot (h.complete order hin)
    obtain ⟨earlier, hin, hearlier⟩ := h.source trunk htrunk
    refine ⟨earlier, ?_, hearlier⟩
    exact (List.singleton_sublist.mpr hin).append (List.singleton_sublist.mpr hrest)

end Collected

theorem routeTrunks_spec {trunks result : List Trunk} :
    ∀ {orders seen : List ServiceTrunkOrder}, Collected seen trunks → trunks.length < 3 →
      routeTrunks orders trunks = some result → FirstTrunks (seen ++ orders) result := by
  intro orders
  induction orders generalizing trunks with
  | nil =>
      intro seen h hlength hresult
      cases hresult
      rw [List.append_nil]
      exact h.firstTrunks hlength.le
  | cons order orders ih =>
      intro seen h hlength hresult
      unfold routeTrunks at hresult
      rcases htrunk : order.trunk with _ | trunk
      · rw [htrunk] at hresult
        cases hresult
      rw [htrunk] at hresult
      dsimp only at hresult
      rw [List.append_cons]
      by_cases hold : (trunks.any fun other => other.id == trunk.id) = true
      · -- a trunk that is named already
        rw [if_pos hold] at hresult
        refine ih (h.snoc_old ⟨trunk, htrunk, ?_⟩) hlength hresult
        obtain ⟨other, hmem, heq⟩ := List.any_eq_true.mp hold
        exact List.mem_map.mpr ⟨other, hmem, beq_iff_eq.mp heq⟩
      rw [if_neg hold] at hresult
      have hnew : trunk.id ∉ trunks.map fun other => other.id := by
        intro hmem
        obtain ⟨other, hin, heq⟩ := List.mem_map.mp hmem
        exact hold (List.any_eq_true.mpr ⟨other, hin, beq_iff_eq.mpr heq⟩)
      have hcollected := h.snoc_new htrunk hnew
      -- a new trunk: the third one ends the search
      have hlength' : (trunks ++ [trunk]).length = trunks.length + 1 := by simp
      by_cases htwo : trunks.length = 2
      · rw [if_pos htwo] at hresult
        cases hresult
        exact hcollected.firstTrunks_full (by omega) orders
      · rw [if_neg htwo] at hresult
        exact ih hcollected (by omega) hresult

/-- Orders with trunks have a route case. -/
theorem routeTrunks_isSome {orders : List ServiceTrunkOrder}
    (h : ∀ order ∈ orders, order.trunk.isSome = true) (trunks : List Trunk) :
    (routeTrunks orders trunks).isSome = true := by
  induction orders generalizing trunks with
  | nil => rfl
  | cons order orders ih =>
      obtain ⟨hfirst, hrest⟩ := List.forall_mem_cons.mp h
      obtain ⟨trunk, htrunk⟩ := Option.isSome_iff_exists.mp hfirst
      unfold routeTrunks
      rw [htrunk]
      dsimp only
      split
      · exact ih hrest trunks
      split
      · rfl
      · exact ih hrest _

/-! ## The answer of an automatic outcome -/

variable {env : AuthEnv} {p : RadiusAuthProcessor} {server : Server} {skipLoopProtection : Bool}

/-- The routes go through the trunks of the offers, and they are ranked. -/
theorem routes_of_autoRoutes {now : Int} {s s' : PricingState} {origOrder : ServiceTrunkOrder}
    {routes : List ServiceTrunkOrder}
    (h : exec (p.autoRoutes server skipLoopProtection now) s = (.ok (origOrder, routes), s')) :
    (∀ order ∈ routes, ∃ termTrunk ∈ p.autoTrunks server,
      p.acceptsTrunk skipLoopProtection termTrunk = .ok true ∧ order.trunk = some termTrunk) ∧
    (∀ order ∈ p.offered server (p.origOrderOf s.numberRanges) skipLoopProtection s.numberRanges,
      ∃ route ∈ routes, route.trunk = order.trunk) ∧
    (routes.map offer).Perm ((p.offered server (p.origOrderOf s.numberRanges)
      skipLoopProtection s.numberRanges).map offer) ∧
    routes.Pairwise (Before p.repository p.origTrunk.swMinimalki) := by
  have hends := @triple_autoRoutes p s.numberRanges server skipLoopProtection now s rfl
  rw [h] at hends
  obtain ⟨-, hperm⟩ := hends
  have hranked := (avoids_autoRoutes p server skipLoopProtection now quiet_nullPointer s trivial).2 _ _ h
  refine ⟨fun order hmem => ?_, fun order hmem => ?_, hperm, hranked⟩
  · obtain ⟨order', hmem', heq⟩ :=
      List.mem_map.mp (hperm.mem_iff.mp (List.mem_map_of_mem hmem))
    obtain ⟨termTrunk, htrunk, haccepts, hof⟩ := trunk_of_mem_offered hmem'
    refine ⟨termTrunk, htrunk, haccepts, ?_⟩
    have hsame : (offer order').trunk = (offer order).trunk := by rw [heq]
    exact hsame.symm.trans hof
  · obtain ⟨route, hmem', heq⟩ :=
      List.mem_map.mp (hperm.mem_iff.mpr (List.mem_map_of_mem hmem))
    refine ⟨route, hmem', ?_⟩
    have hsame : (offer route).trunk = (offer order).trunk := by rw [heq]
    exact hsame

theorem trunk_isSome_of_autoRoutes {now : Int} {s s' : PricingState}
    {origOrder : ServiceTrunkOrder} {routes : List ServiceTrunkOrder}
    (h : exec (p.autoRoutes server skipLoopProtection now) s = (.ok (origOrder, routes), s')) :
    ∀ order ∈ routes, order.trunk.isSome = true := by
  intro order hmem
  obtain ⟨termTrunk, -, -, htrunk⟩ := (routes_of_autoRoutes h).1 order hmem
  rw [htrunk]
  rfl

/-- Routes are answered. -/
theorem exec_processAutoOutcome {s : AuthState} {pricing : PricingState}
    {origOrder : ServiceTrunkOrder} {routes : List ServiceTrunkOrder}
    (h : exec (p.autoRoutes server skipLoopProtection env.now) s.pricing =
      (.ok (origOrder, routes), pricing)) :
    ∃ s', exec (env.processAutoOutcome p server skipLoopProtection) s = (.ok (), s') := by
  obtain ⟨trunks, hcase⟩ :=
    Option.isSome_iff_exists.mp (routeTrunks_isSome (trunk_isSome_of_autoRoutes h) [])
  unfold processAutoOutcome
  rw [exec_bind, exec_runPricing, h]
  dsimp only
  unfold processAutoRouteResponse
  split
  · exact ⟨_, rfl⟩
  · rw [hcase]
    exact ⟨_, rfl⟩

/-- A request with four trunks open to automatic routing, whose tariffs cost as many roubles as
their ids say.  The second trunk has a setting for the cheapest tariff besides its own. -/
def fourTrunksRequest : RadiusAuthProcessor where
  repository :=
    { data :=
        { client := fun _ => some { id := 7, accountVersion := 5 }
          serviceTrunks := fun trunkId _ =>
            [{ id := trunkId, clientAccountId := 7, trunkId := trunkId }]
          serviceTrunkSettings := fun serviceTrunkId destinationType =>
            if destinationType = 2 then
              { id := 1, nnpTariffId := serviceTrunkId } ::
                if serviceTrunkId = 12 then [{ id := 2, nnpTariffId := 10 }] else []
            else []
          nnpPackage := fun tariffId => some { id := tariffId, currencyId := "RUB".toList }
          nnpPackagePricelist := [10, 11, 12, 13, 14].map fun tariffId =>
            { id := tariffId, nnpTariffId := tariffId, pricelistId := tariffId }
          pricelistPrice := fun pricelistId _ _ => some { price := pricelistId } }
      currentTime := 0 }
  tables :=
    { trunks := [(14, "d"), (13, "c"), (12, "b"), (11, "a")].map fun trunk =>
        { id := trunk.1
          serverId := 1
          trunkName := trunk.2.toList
          autoRouting := true
          sourceTrunkRuleDefaultAllowed := true
          sourceRuleDefaultAllowed := true
          destinationRuleDefaultAllowed := true } }
  account := some { id := 3 }

theorem avoids_fail {α : Type} {P : AuthState → Prop} {Q : α → AuthState → Prop}
    (message : String) : Avoids CalcStop.nullPointer P (fail message : Auth α) Q :=
  avoids_throw (by simp)

theorem avoids_found {α : Type} (message : String) (o : Option α) :
    Avoids CalcStop.nullPointer (fun _ => True) (found message o) (fun _ _ => True) := by
  cases o with
  | none => exact avoids_fail message
  | some a => exact avoids_pure fun _ _ => trivial

theorem avoids_modifyResponse (f : RadiusAuthResponse → RadiusAuthResponse) :
    Avoids CalcStop.nullPointer (fun _ => True) (modifyResponse f) (fun _ _ => True) :=
  avoids_modify fun _ _ => trivial

theorem avoids_processAutoOutcome :
    Avoids CalcStop.nullPointer (fun _ => True)
      (env.processAutoOutcome p server skipLoopProtection) (fun _ _ => True) := by
  intro s _
  refine ⟨?_, fun _ _ _ => trivial⟩
  rcases hrun : exec (p.autoRoutes server skipLoopProtection env.now) s.pricing with
    ⟨stop | ⟨origOrder, routes⟩, pricing⟩
  · have hne := (avoids_autoRoutes p server skipLoopProtection env.now quiet_nullPointer s.pricing
      trivial).1
    rw [hrun] at hne
    unfold processAutoOutcome
    rw [exec_bind, exec_runPricing, hrun]
    exact fun heq => hne (congrArg Except.error (Except.error.inj heq))
  · obtain ⟨s', hexec⟩ := exec_processAutoOutcome hrun
    rw [hexec]
    simp

theorem avoids_processOutcome (outcomeId : Int) :
    Avoids CalcStop.nullPointer (fun _ => True)
      (env.processOutcome p server skipLoopProtection outcomeId) (fun _ _ => True) := by
  unfold processOutcome
  refine avoids_bind (avoids_found _ _) fun outcome => ?_
  split
  · exact avoids_processAutoOutcome
  split
  · unfold processMegaTrunkPhase1
    dsimp only
    split
    · exact avoids_fail _
    · exact avoids_modifyResponse _
  split
  · exact avoids_bind (avoids_found _ _) fun trunk => avoids_modifyResponse _
  split
  · exact avoids_bind (avoids_found _ _) fun routeCase => avoids_modifyResponse _
  split
  · exact avoids_bind (avoids_found _ _) fun releaseReason => avoids_modifyResponse _
  split
  · exact avoids_bind (avoids_found _ _) fun airp => avoids_modifyResponse _
  split
  · exact avoids_modifyResponse _
  · exact avoids_fail _

theorem avoids_specialOutcome (analysed : Analysed) (outcomeId : Int) :
    Avoids CalcStop.nullPointer (fun _ => True) (env.specialOutcome analysed outcomeId)
      (fun _ _ => True) := by
  unfold specialOutcome
  split
  · exact avoids_modifyResponse _
  · exact avoids_processOutcome outcomeId

theorem settle_eq_none {result : Except CalcStop Unit × AuthState} :
    env.settle result = none ↔ result.1 = .error .nullPointer := by
  match result with
  | (.ok (), s) => exact iff_of_false (by simp [settle]) (by simp)
  | (.error (.calcException message), s) => exact iff_of_false (by simp [settle]) (by simp)
  | (.error .nullPointer, s) => exact iff_of_true rfl rfl

/-- The route table of the trunk is not evaluated to the end. -/
def RoutesForever (env : AuthEnv) (analysed : Analysed) : Prop :=
  analysed.processor.processRouteTable env.depth (env.routeTableId analysed.processor.origTrunk.id)
    analysed.server.toServer = none

/-- Among the answers of the limits only an acceptance can end the process, in the route table. -/
theorem answerTo_eq_nullPointer (analysed : Analysed) (billResponse : BillResponse)
    (s : AuthState) :
    (exec (env.answerTo analysed billResponse) s).1 = .error .nullPointer ↔
      billResponse = .accept ∧ RoutesForever env analysed := by
  cases billResponse with
  | reject => exact iff_of_false (by simp [answerTo, modifyResponse]) (by simp)
  | lowBalance => exact iff_of_false (avoids_specialOutcome analysed _ s trivial).1 (by simp)
  | voipDisabled => exact iff_of_false (avoids_specialOutcome analysed _ s trivial).1 (by simp)
  | accept =>
      unfold answerTo routeOutcome RoutesForever
      rcases analysed.processor.processRouteTable env.depth
        (env.routeTableId analysed.processor.origTrunk.id) analysed.server.toServer with
        _ | ⟨message | outcomeId, server'⟩
      · exact iff_of_true rfl ⟨rfl, rfl⟩
      · exact iff_of_false (by simp [fail]) (by simp)
      · refine iff_of_false ?_ (by simp)
        dsimp only
        rw [exec_bind, exec_pure]
        dsimp only
        split
        · simp [modifyResponse]
        · exact (avoids_processOutcome outcomeId s trivial).1

/-- The process ends without an answer exactly if pricing uses an object that is missing, or the
limits let the call through and the route table of its trunk is not evaluated to the end.
Nothing that follows the route table can end it, if the request is not traced (a trace prints
the price of every order, and those of version 5 have none), its numbers have fewer than 20
characters and no entry of the block list has expired. -/
theorem process_eq_none_iff (env : AuthEnv) (request : RadiusAuthRequest)
    (blocked : AccountIdsBlocked) (pricing : PricingState) :
    env.process request blocked pricing = none ↔
      ∃ origTrunk server, Reaches env request origTrunk server ∧
        (env.priced request origTrunk pricing = none ∨
          ∃ pricing', env.priced request origTrunk pricing = some pricing' ∧
            (env.limitsOf request origTrunk pricing'.callInfo
              (env.start blocked pricing).blocked).1 = .accept ∧
            RoutesForever env
              (env.analysedOf request origTrunk server pricing'.callInfo .accept)) := by
  unfold process processBody
  rw [settle_eq_none]
  rcases admission_cases env request (env.start blocked pricing) with
    ⟨hnone, ⟨message, s', hexec⟩ | ⟨s', hexec⟩⟩ | ⟨origTrunk, server, hreaches, hcase⟩
  · -- admission throws an exception, or gives the answer itself
    rw [exec_bind_error hexec]
    exact iff_of_false (by simp) fun ⟨_, _, hreaches, _⟩ => hnone _ _ hreaches
  · rw [exec_bind_ok hexec]
    refine iff_of_false (by simp [answer, modifyResponse]) ?_
    exact fun ⟨_, _, hreaches, _⟩ => hnone _ _ hreaches
  rcases hcase with ⟨hpriced, s', hexec⟩ | ⟨pricing', s', hpriced, hexec⟩
  · -- pricing meets a missing object
    rw [exec_bind_error hexec]
    exact iff_of_true rfl ⟨origTrunk, server, hreaches, Or.inl hpriced⟩
  rw [exec_bind_ok hexec]
  change (exec (env.answerTo _ (env.limitsOf request origTrunk pricing'.callInfo
    (env.start blocked pricing).blocked).1) s').1 = _ ↔ _
  rw [answerTo_eq_nullPointer]
  constructor
  · rintro ⟨haccept, hforever⟩
    exact ⟨origTrunk, server, hreaches, Or.inr ⟨pricing', hpriced, haccept, hforever⟩⟩
  · rintro ⟨origTrunk₂, server₂, hreaches₂, hcase₂⟩
    obtain ⟨rfl, rfl⟩ := hreaches.unique hreaches₂
    rcases hcase₂ with hnone | ⟨pricing₂, hpriced₂, haccept, hforever⟩
    · have hsome : env.priced request origTrunk₂ pricing = some pricing' := hpriced
      rw [hnone] at hsome
      cases hsome
    · have hsame : env.priced request origTrunk₂ pricing = some pricing' := hpriced
      rw [hpriced₂] at hsame
      cases hsame
      exact ⟨haccept, hforever⟩

end AuthEnv
end VoipBill
