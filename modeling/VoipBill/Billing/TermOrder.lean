import VoipBill.Lib.Sorting
import VoipBill.Billing.TrunkOrders

/-!
# The order of the terminating trunks

`orderTermTrunkSettingsOrderList` sorts the orders with an unfilled minimum and the other
ones by price, and the two parts together, stably, by priority.

* `Repository.roublesOf`: the one value the comparator of prices compares;
* `termOrdersBy`: the three sorts, for any sort by price, since `std::sort` leaves the
  order of equal prices open;
* `termOrders_sorted`: the list is a permutation in the order `Before`.
-/

namespace VoipBill

open Lib Lib.Hoare

namespace Repository

variable (r : Repository)

/-- The price of an order in roubles, above every price if there is none. -/
def roublesOf (order : ServiceTrunkOrder) : WithTop ℚ :=
  match orderPrice order with
  | none => ⊤
  | some price => ((price.1 * r.rateOf price.2 : ℚ) : WithTop ℚ)

variable {r}

theorem rateOf_pos (currency : List Char) : 0 < r.rateOf currency := by
  unfold rateOf
  split
  case h_1 rate _ =>
    split
    case isTrue h => exact lt_trans (by norm_num) h
    case isFalse => exact one_pos
  case h_2 => exact one_pos

/-- Prices in one currency compare as in roubles, because every rate is positive. -/
theorem trunkOrderLessThan_iff (left right : ServiceTrunkOrder) :
    r.trunkOrderLessThan left right = true ↔ r.roublesOf left < r.roublesOf right := by
  unfold trunkOrderLessThan roublesOf
  cases orderPrice left with
  | none =>
      cases orderPrice right with
      | none => simp
      | some rightPrice => simp
  | some leftPrice =>
      cases orderPrice right with
      | none => exact iff_of_true rfl (WithTop.coe_lt_top _)
      | some rightPrice =>
          simp only [WithTop.coe_lt_coe]
          by_cases hcurrency : leftPrice.2 = rightPrice.2
          · rw [if_pos hcurrency, decide_eq_true_eq, hcurrency]
            exact (mul_lt_mul_iff_left₀ (rateOf_pos rightPrice.2)).symm
          · rw [if_neg hcurrency, decide_eq_true_eq]

theorem trunkOrderLessThan_eq_false_iff (left right : ServiceTrunkOrder) :
    r.trunkOrderLessThan right left = false ↔ r.roublesOf left ≤ r.roublesOf right := by
  rw [Bool.eq_false_iff, Ne, trunkOrderLessThan_iff, not_lt]

instance isStrictWeakOrder_trunkOrderLessThan :
    IsStrictWeakOrder ServiceTrunkOrder fun left right =>
      r.trunkOrderLessThan left right = true :=
  isStrictWeakOrder_of_key r.roublesOf trunkOrderLessThan_iff

theorem sortsBy_sortByPrice : SortsBy r.trunkOrderLessThan r.sortByPrice :=
  sortsBy_mergeSort

end Repository

namespace BillingCall

/-! ## The three sorts -/

/-- The body of `orderTermTrunkSettingsOrderList` after the counters have been looked up,
with the sort by price as a parameter. -/
def termOrdersBy (sort : List ServiceTrunkOrder → List ServiceTrunkOrder)
    (found : List (ServiceTrunkOrder × ServiceTrunkSettings × StatsTrunkSettings))
    (fUseMinimalki : Bool) : List ServiceTrunkOrder :=
  let free := (found.filter fun order => isFree fUseMinimalki order.2.1 order.2.2).map (·.1)
  let pay := (found.filter fun order => !isFree fUseMinimalki order.2.1 order.2.2).map (·.1)
  (sort free ++ sort pay).mergeSort fun left right => !decide (left.priority < right.priority)

/-- Minimums are in use and the minimum of the order is not filled. -/
def hasUnfilledMinimum (fUseMinimalki : Bool) (order : ServiceTrunkOrder) : Bool :=
  match order.trunkSettings, order.statsTrunkSettings with
  | some trunkSettings, some stats => isFree fUseMinimalki trunkSettings stats
  | _, _ => false

/-- The order that is meant: by descending priority, then unfilled minimums first, then by
the price in roubles, missing prices last. -/
def Before (r : Repository) (fUseMinimalki : Bool) (left right : ServiceTrunkOrder) : Prop :=
  right.priority < left.priority ∨
    left.priority = right.priority ∧
      (hasUnfilledMinimum fUseMinimalki left = true ∧
          hasUnfilledMinimum fUseMinimalki right = false ∨
        hasUnfilledMinimum fUseMinimalki left = hasUnfilledMinimum fUseMinimalki right ∧
          r.roublesOf left ≤ r.roublesOf right)

/-- The order without the counter that is looked up for it. -/
def withoutStats (order : ServiceTrunkOrder) : ServiceTrunkOrder :=
  { order with statsTrunkSettings := none }

variable {r : Repository} {connectTime : Int} {orders : List ServiceTrunkOrder}
  {m : StatsTrunkSettingsManager}
  {found : List (ServiceTrunkOrder × ServiceTrunkSettings × StatsTrunkSettings)}
  {fUseMinimalki : Bool} {sort : List ServiceTrunkOrder → List ServiceTrunkOrder}

theorem termOrdersBy_perm (hsort : SortsBy r.trunkOrderLessThan sort) :
    (termOrdersBy sort found fUseMinimalki).Perm (found.map (·.1)) := by
  unfold termOrdersBy
  refine (List.mergeSort_perm _ _).trans ?_
  refine ((hsort.perm _).append (hsort.perm _)).trans ?_
  rw [← List.map_append]
  exact (List.filter_append_perm _ found).map _

/-- Before the sort by priority: the part with unfilled minimums first, each part by
price. -/
theorem pairwise_parts (hsort : SortsBy r.trunkOrderLessThan sort)
    (hfree : ∀ order ∈ found,
      hasUnfilledMinimum fUseMinimalki order.1 = isFree fUseMinimalki order.2.1 order.2.2) :
    (sort ((found.filter fun order => isFree fUseMinimalki order.2.1 order.2.2).map (·.1)) ++
      sort ((found.filter fun order => !isFree fUseMinimalki order.2.1 order.2.2).map
        (·.1))).Pairwise fun left right =>
      hasUnfilledMinimum fUseMinimalki left = true ∧
          hasUnfilledMinimum fUseMinimalki right = false ∨
        hasUnfilledMinimum fUseMinimalki left = hasUnfilledMinimum fUseMinimalki right ∧
          r.roublesOf left ≤ r.roublesOf right := by
  have hfreePart : ∀ order ∈
      sort ((found.filter fun order => isFree fUseMinimalki order.2.1 order.2.2).map (·.1)),
      hasUnfilledMinimum fUseMinimalki order = true := by
    intro order hmem
    obtain ⟨pair, hpair, rfl⟩ := List.mem_map.mp ((hsort.perm _).mem_iff.mp hmem)
    obtain ⟨hin, hisFree⟩ := List.mem_filter.mp hpair
    rw [hfree pair hin, hisFree]
  have hpayPart : ∀ order ∈
      sort ((found.filter fun order => !isFree fUseMinimalki order.2.1 order.2.2).map (·.1)),
      hasUnfilledMinimum fUseMinimalki order = false := by
    intro order hmem
    obtain ⟨pair, hpair, rfl⟩ := List.mem_map.mp ((hsort.perm _).mem_iff.mp hmem)
    obtain ⟨hin, hpay⟩ := List.mem_filter.mp hpair
    rw [hfree pair hin]
    exact (Bool.not_eq_true' _).mp hpay
  refine List.pairwise_append.mpr ⟨?_, ?_, ?_⟩
  · refine (hsort.ordered _).imp_of_mem fun hleft hright hless => Or.inr ⟨?_, ?_⟩
    · rw [hfreePart _ hleft, hfreePart _ hright]
    · exact (Repository.trunkOrderLessThan_eq_false_iff _ _).mp hless
  · refine (hsort.ordered _).imp_of_mem fun hleft hright hless => Or.inr ⟨?_, ?_⟩
    · rw [hpayPart _ hleft, hpayPart _ hright]
    · exact (Repository.trunkOrderLessThan_eq_false_iff _ _).mp hless
  · intro left hleft right hright
    exact Or.inl ⟨hfreePart left hleft, hpayPart right hright⟩

theorem termOrdersBy_pairwise (hsort : SortsBy r.trunkOrderLessThan sort)
    (hfree : ∀ order ∈ found,
      hasUnfilledMinimum fUseMinimalki order.1 = isFree fUseMinimalki order.2.1 order.2.2) :
    (termOrdersBy sort found fUseMinimalki).Pairwise (Before r fUseMinimalki) := by
  have htrans : ∀ a b c : ServiceTrunkOrder, (!decide (a.priority < b.priority)) = true →
      (!decide (b.priority < c.priority)) = true →
      (!decide (a.priority < c.priority)) = true := by
    intro a b c
    simp only [Bool.not_eq_true', decide_eq_false_iff_not]
    omega
  have htotal : ∀ a b : ServiceTrunkOrder, (!decide (a.priority < b.priority) ||
      !decide (b.priority < a.priority)) = true := by
    intro a b
    simp only [Bool.or_eq_true, Bool.not_eq_true', decide_eq_false_iff_not]
    omega
  have hsorted := pairwise_stableSort htrans htotal (pairwise_parts hsort hfree)
  refine hsorted.imp fun h => ?_
  simp only [Bool.not_eq_true', decide_eq_false_iff_not, not_lt] at h
  rcases lt_or_eq_of_le h.1 with hlt | heq
  · exact Or.inl hlt
  · exact Or.inr ⟨heq.symm, h.2 heq.ge⟩

/-! ## The counters -/

theorem hasUnfilledMinimum_of_mem_lookUpStats
    {order : ServiceTrunkOrder × ServiceTrunkSettings × StatsTrunkSettings}
    (h : order ∈ (lookUpStats connectTime orders m).1) :
    hasUnfilledMinimum fUseMinimalki order.1 = isFree fUseMinimalki order.2.1 order.2.2 := by
  induction orders generalizing m with
  | nil => exact absurd h (by simp [lookUpStats])
  | cons first orders ih =>
      rw [lookUpStats] at h
      split at h
      case h_1 account trunkSettings _ hsettings =>
        rcases List.mem_cons.mp h with rfl | hrest
        · simp only [hasUnfilledMinimum, hsettings]
        · exact ih hrest
      case h_2 => exact ih h

/-- Every order is looked up once, and only gets its counter. -/
theorem withoutStats_lookUpStats
    (h : ∀ order ∈ orders, order.account.isSome = true ∧ order.trunkSettings.isSome = true) :
    ((lookUpStats connectTime orders m).1.map (·.1)).map withoutStats =
      orders.map withoutStats := by
  induction orders generalizing m with
  | nil => rfl
  | cons first orders ih =>
      obtain ⟨haccount, hsettings⟩ := h first List.mem_cons_self
      obtain ⟨account, haccount⟩ := Option.isSome_iff_exists.mp haccount
      obtain ⟨trunkSettings, hsettings⟩ := Option.isSome_iff_exists.mp hsettings
      have hrest := ih (m := (StatsTrunkSettingsManager.getCurrent m connectTime account
        trunkSettings).2) fun order hmem => h order (List.mem_cons_of_mem first hmem)
      simp only [lookUpStats, haccount, hsettings, List.map_cons, hrest, withoutStats]

/-- Ordering the orders of a terminating trunk loses and adds none. -/
theorem termOrders_perm {env : PricingEnv}
    (h : ∀ order ∈ orders, order.account.isSome = true ∧ order.trunkSettings.isSome = true) :
    ((termOrders env m orders fUseMinimalki connectTime).map withoutStats).Perm
      (orders.map withoutStats) := by
  rw [← withoutStats_lookUpStats (m := m) h]
  exact (termOrdersBy_perm (r := env.repository) Repository.sortsBy_sortByPrice).map _

/-- The comparator is a strict weak order, and whichever sort by price is used, the list
that `orderTermTrunkSettingsOrderList` returns is a permutation of its list, with the
counters looked up, in the order `Before`. -/
theorem termOrders_sorted (env : PricingEnv) :
    (IsStrictWeakOrder ServiceTrunkOrder fun left right =>
      env.repository.trunkOrderLessThan left right = true) ∧
    SortsBy env.repository.trunkOrderLessThan env.repository.sortByPrice ∧
    ∀ (orders : List ServiceTrunkOrder) (fUseMinimalki : Bool) (connectTime : Int)
      (s : PricingState),
      (∀ order ∈ orders, order.account.isSome = true ∧ order.trunkSettings.isSome = true) →
      let found := (lookUpStats connectTime orders s.billingData.statsTrunkSettings).1
      (exec (orderTermTrunkSettingsOrderList env orders fUseMinimalki connectTime) s).1 =
        .ok (termOrdersBy env.repository.sortByPrice found fUseMinimalki) ∧
      ∀ sort, SortsBy env.repository.trunkOrderLessThan sort →
        ((termOrdersBy sort found fUseMinimalki).map withoutStats).Perm
          (orders.map withoutStats) ∧
        (termOrdersBy sort found fUseMinimalki).Pairwise
          (Before env.repository fUseMinimalki) := by
  constructor
  · exact Repository.isStrictWeakOrder_trunkOrderLessThan
  · constructor
    · exact Repository.sortsBy_sortByPrice
    · intro orders fUseMinimalki connectTime s hcomplete
      constructor
      · rw [exec_orderTermTrunkSettingsOrderList fUseMinimalki hcomplete]
        rfl
      · intro sort hsort
        constructor
        · rw [← withoutStats_lookUpStats (m := s.billingData.statsTrunkSettings) hcomplete]
          exact (termOrdersBy_perm hsort).map _
        · exact termOrdersBy_pairwise hsort fun _ => hasUnfilledMinimum_of_mem_lookUpStats

/-- A dollar costs sixty roubles. -/
def dollarEnv : PricingEnv where
  repository :=
    { data := { currencyRate := fun currency => if currency = "USD".toList then some 60 else none }
      currentTime := 0 }
  cdr := {}

/-- A version 4 order at 100 roubles, a version 5 order at 2 dollars with an unfilled
minimum, and a version 4 order without a price but of a higher priority. -/
def mixedOrders : List ServiceTrunkOrder :=
  [{ account := some { id := 1, accountVersion := 4 }
     trunkSettings := some { id := 11 }
     pricelist := some { currencyId := "RUB".toList }
     price := some { price := 100 } },
   { account := some { id := 2, accountVersion := 5 }
     trunkSettings := some { id := 12, minimumMinutes := 5 }
     nnpPackage := some { currencyId := "USD".toList }
     nnpPrice := 2 },
   { account := some { id := 3, accountVersion := 4 }
     trunkSettings := some { id := 13 }
     priority := 1 }]

/-- No counter is loaded yet. -/
def noCounters : PricingState where
  callInfo := {}
  billingData := DataBillingContainer.empty
  currentNNPPackageMinute := UsageManager.empty
  numberRanges := ∅

theorem termOrders_sorted_mixedOrders :
    let found := (lookUpStats 0 mixedOrders noCounters.billingData.statsTrunkSettings).1
    let result := termOrdersBy dollarEnv.repository.sortByPrice found true
    (exec (orderTermTrunkSettingsOrderList dollarEnv mixedOrders true 0) noCounters).1 =
        .ok result ∧
      (result.map withoutStats).Perm (mixedOrders.map withoutStats) ∧
      result.Pairwise (Before dollarEnv.repository true) := by
  obtain ⟨-, hsort, hsorted⟩ := termOrders_sorted dollarEnv
  have hmixed := hsorted mixedOrders true 0 noCounters (by decide)
  exact ⟨hmixed.1, hmixed.2 dollarEnv.repository.sortByPrice hsort⟩

end BillingCall

end VoipBill
