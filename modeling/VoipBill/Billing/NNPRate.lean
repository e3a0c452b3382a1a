import VoipBill.Lib.Sorting
import VoipBill.Billing.MissingObjects
import VoipBill.Billing.VatFlag

/-!
# The rate of a version 5 leg

By number, the cheapest package price and the cheapest price of a package price list are
found in two sets and compared.  By trunk, one set holds both kinds.

* `setBegin_least`, `setBegin_append`: the first element of a set;
* `Repository.nnpTrunkOrderBySet`: the order of a trunk setting, with the merged set as
  the source has it, and `nnpTrunkOrder_eq_bySet`;
* `LeastRate`: the least of the prices that apply, a package price before an equal price
  of a price list;
* `nnpRate_least`: both ways find it.
-/

namespace VoipBill

open Lib Lib.Hoare

/-! ## The first element of a set -/

section Begin

variable {α β : Type} {lt : α → α → Bool}

theorem setBegin_eq_none_iff {inserted : List α} : setBegin lt inserted = none ↔ inserted = [] := by
  cases inserted with
  | nil => exact iff_of_true rfl rfl
  | cons a inserted => simp [setBegin]

theorem setBegin_map (f : β → α) (inserted : List β) :
    setBegin lt (inserted.map f) =
      (setBegin (fun left right => lt (f left) (f right)) inserted).map f := by
  have hfold : ∀ (inserted : List β) (b : β),
      (inserted.map f).foldl (fun least a => if lt a least then a else least) (f b) =
        f (inserted.foldl (fun least b => if lt (f b) (f least) then b else least) b) := by
    intro inserted
    induction inserted with
    | nil => exact fun _ => rfl
    | cons c inserted ih =>
        intro b
        rw [List.map_cons, List.foldl_cons, List.foldl_cons, ← ih]
        split <;> rfl
  cases inserted with
  | nil => rfl
  | cons b inserted => exact congrArg some (hfold inserted b)

variable [IsStrictWeakOrder α fun a b => lt a b = true]

theorem foldl_least (inserted : List α) (a : α) :
    ∀ b ∈ a :: inserted,
      lt b (inserted.foldl (fun least b => if lt b least then b else least) a) = false := by
  induction inserted generalizing a with
  | nil =>
      intro b hb
      rw [List.mem_singleton.mp hb]
      exact less_irrefl a
  | cons c inserted ih =>
      intro b hb
      rw [List.foldl_cons]
      have hleast := ih (if lt c a then c else a)
      have hfirst := hleast _ List.mem_cons_self
      -- neither `a` nor `c` is less than the smaller of them, which the rest keeps
      have hstart : b = a ∨ b = c → lt b (if lt c a then c else a) = false := by
        intro hb
        cases hca : lt c a with
        | true =>
            rcases hb with rfl | rfl
            · rw [if_pos rfl]
              exact Bool.eq_false_iff.mpr fun hac =>
                Bool.false_ne_true ((less_irrefl b).symm.trans (less_trans hac hca))
            · exact less_irrefl b
        | false =>
            rw [if_neg Bool.false_ne_true]
            rcases hb with rfl | rfl
            · exact less_irrefl b
            · exact hca
      rcases List.mem_cons.mp hb with rfl | hrest
      · exact not_less_trans hfirst (hstart (Or.inl rfl))
      · rcases List.mem_cons.mp hrest with rfl | hmem
        · exact not_less_trans hfirst (hstart (Or.inr rfl))
        · exact hleast b (List.mem_cons_of_mem _ hmem)

theorem setBegin_least {inserted : List α} {a : α} (h : setBegin lt inserted = some a) :
    ∀ b ∈ inserted, lt b a = false := by
  cases inserted with
  | nil => exact absurd h (by simp [setBegin])
  | cons c inserted =>
      rw [setBegin, Option.some.injEq] at h
      exact h ▸ foldl_least inserted c

theorem foldl_least_of_begin {inserted : List α} {b : α} (h : setBegin lt inserted = some b)
    (a : α) :
    inserted.foldl (fun least c => if lt c least then c else least) a =
      if lt b a then b else a := by
  induction inserted generalizing a b with
  | nil => exact absurd h (by simp [setBegin])
  | cons c inserted ih =>
      rw [setBegin, Option.some.injEq] at h
      cases hrest : setBegin lt inserted with
      | none =>
          rw [setBegin_eq_none_iff.mp hrest] at h ⊢
          rw [← h]
          rfl
      | some d =>
          have hb : b = if lt d c then d else c := by rw [← h, ih hrest]
          rw [List.foldl_cons, ih hrest, hb]
          cases hdc : lt d c with
          | true =>
              rw [if_pos rfl]
              cases hca : lt c a with
              | true => rw [if_pos rfl, if_pos hdc, if_pos (less_trans hdc hca)]
              | false => rw [if_neg Bool.false_ne_true]
          | false =>
              rw [if_neg Bool.false_ne_true]
              cases hca : lt c a with
              | true => rw [if_pos rfl, hdc, if_neg Bool.false_ne_true]
              | false =>
                  rw [if_neg Bool.false_ne_true, not_less_trans hca hdc, if_neg Bool.false_ne_true]

/-- Of two sets put together the first element is the lesser of their first elements. -/
theorem setBegin_append {left right : List α} {a b : α} (hleft : setBegin lt left = some a)
    (hright : setBegin lt right = some b) :
    setBegin lt (left ++ right) = some (if lt b a then b else a) := by
  cases left with
  | nil => exact absurd hleft (by simp [setBegin])
  | cons c left =>
      rw [setBegin, Option.some.injEq] at hleft
      rw [List.cons_append, setBegin, List.foldl_append, hleft, foldl_least_of_begin hright]

end Begin

theorem pairLess_eq_true_iff {α β : Type} [LinearOrder α] [LinearOrder β] (left right : α × β) :
    pairLess left right = true ↔
      left.1 < right.1 ∨ ¬ right.1 < left.1 ∧ left.2 < right.2 := by
  simp only [pairLess, Bool.or_eq_true, Bool.and_eq_true, Bool.not_eq_true', decide_eq_true_eq,
    decide_eq_false_iff_not]

/-- `operator<` of a pair is the lexicographic order. -/
theorem pairLess_iff {α β : Type} [LinearOrder α] [LinearOrder β] (left right : α × β) :
    pairLess left right = true ↔ toLex left < toLex right := by
  rw [pairLess_eq_true_iff, Prod.Lex.toLex_lt_toLex]
  constructor
  · rintro (hlt | ⟨hnot, hlt⟩)
    · exact Or.inl hlt
    · rcases lt_or_eq_of_le (not_lt.mp hnot) with hfirst | heq
      · exact Or.inl hfirst
      · exact Or.inr ⟨heq, hlt⟩
  · rintro (hlt | ⟨heq, hlt⟩)
    · exact Or.inl hlt
    · exact Or.inr ⟨heq.not_gt, hlt⟩

/-- A set of prices is ordered by the price and then by the place. -/
instance isStrictWeakOrder_pricePlace {τ : Type} :
    IsStrictWeakOrder (ℚ × Nat × τ) fun left right =>
      pairLess (left.1, left.2.1) (right.1, right.2.1) = true :=
  isStrictWeakOrder_of_key (fun found : ℚ × Nat × τ => toLex (found.1, found.2.1))
    fun _ _ => pairLess_iff _ _

namespace Repository

variable {τ : Type} {found : List (ℚ × Nat × τ)}

theorem cheapest_eq_none_iff : cheapest found = none ↔ found = [] := by
  rw [cheapest, Option.map_eq_none_iff, setBegin_eq_none_iff]

theorem le_of_cheapest {price : ℚ} {t : τ} (h : cheapest found = some (price, t)) :
    ∀ other ∈ found, price ≤ other.1 := by
  obtain ⟨first, hfirst, heq⟩ := Option.map_eq_some_iff.mp h
  obtain ⟨rfl, -⟩ := Prod.mk.inj heq
  intro other hmem
  have hnot := setBegin_least hfirst other hmem
  rw [Bool.eq_false_iff, Ne, pairLess_iff, Prod.Lex.toLex_lt_toLex, not_or] at hnot
  exact not_lt.mp hnot.1

/-! ## The merged set of a trunk setting -/

/-- An element of `set<pair<double, pair<NNPPackagePricelist *, NNPPackagePrice *>>>`: a
price with the places of its rows, one of which is null. -/
structure NNPPackagePair where
  price : ℚ
  nnpPackagePricelist : Option (Nat × NNPPackagePricelist)
  nnpPackagePrice : Option (Nat × NNPPackagePrice)

namespace NNPPackagePair

/-- A pointer as an address, null before every row of a table. -/
def address {τ : Type} : Option (Nat × τ) → Nat
  | none => 0
  | some row => row.1 + 1

def addresses (pair : NNPPackagePair) : Nat × Nat :=
  (address pair.nnpPackagePricelist, address pair.nnpPackagePrice)

def less (left right : NNPPackagePair) : Bool :=
  decide (left.price < right.price) ||
    !decide (right.price < left.price) && pairLess left.addresses right.addresses

def ofPrice (found : ℚ × Nat × NNPPackagePrice) : NNPPackagePair :=
  ⟨found.1, none, some found.2⟩

def ofPricelist (found : ℚ × Nat × NNPPackagePricelist) : NNPPackagePair :=
  ⟨found.1, some found.2, none⟩

theorem less_eq_true_iff (left right : NNPPackagePair) :
    less left right = true ↔ left.price < right.price ∨
      ¬ right.price < left.price ∧ pairLess left.addresses right.addresses = true := by
  simp only [less, Bool.or_eq_true, Bool.and_eq_true, Bool.not_eq_true', decide_eq_true_eq,
    decide_eq_false_iff_not]

theorem less_iff (left right : NNPPackagePair) :
    less left right = true ↔
      toLex (left.price, toLex left.addresses) < toLex (right.price, toLex right.addresses) := by
  rw [less_eq_true_iff, pairLess_iff left.addresses]
  exact (pairLess_eq_true_iff (left.price, toLex left.addresses)
    (right.price, toLex right.addresses)).symm.trans (pairLess_iff _ _)

instance isStrictWeakOrder_less :
    IsStrictWeakOrder NNPPackagePair fun left right => less left right = true :=
  isStrictWeakOrder_of_key (fun pair => toLex (pair.price, toLex pair.addresses)) less_iff

@[simp] theorem less_ofPrice (left right : ℚ × Nat × NNPPackagePrice) :
    less (ofPrice left) (ofPrice right) =
      pairLess (left.1, left.2.1) (right.1, right.2.1) := by
  rw [Bool.eq_iff_iff, less_eq_true_iff, pairLess_eq_true_iff, pairLess_eq_true_iff]
  simp [ofPrice, addresses, address]

@[simp] theorem less_ofPricelist (left right : ℚ × Nat × NNPPackagePricelist) :
    less (ofPricelist left) (ofPricelist right) =
      pairLess (left.1, left.2.1) (right.1, right.2.1) := by
  rw [Bool.eq_iff_iff, less_eq_true_iff, pairLess_eq_true_iff, pairLess_eq_true_iff]
  simp [ofPricelist, addresses, address]

/-- A package price stands before an equal price of a price list. -/
@[simp] theorem less_ofPricelist_ofPrice (left : ℚ × Nat × NNPPackagePricelist)
    (right : ℚ × Nat × NNPPackagePrice) :
    less (ofPricelist left) (ofPrice right) = decide (left.1 < right.1) := by
  rw [Bool.eq_iff_iff, less_eq_true_iff, pairLess_eq_true_iff]
  simp [ofPrice, ofPricelist, addresses, address]

end NNPPackagePair

variable (r : Repository)

/-- The elements of `resultNNPPackage`. -/
def resultNNPPackage (tariffId : Int) (nnpDestinationIds : List Int) (dstNumber : Int) :
    List NNPPackagePair :=
  (r.findNNPPackagePriceIds tariffId nnpDestinationIds).map NNPPackagePair.ofPrice ++
    (r.findNNPPackagePricelistIds tariffId dstNumber).map NNPPackagePair.ofPricelist

/-- The order of a trunk setting by the first element of the merged set. -/
def nnpTrunkOrderBySet (order : ServiceTrunkOrder) (trunkSettings : ServiceTrunkSettings)
    (nnpDestinationIds : List Int) (dstNumber : Int) : Option ServiceTrunkOrder :=
  (setBegin NNPPackagePair.less
    (r.resultNNPPackage trunkSettings.nnpTariffId nnpDestinationIds dstNumber)).map fun first =>
    { order with
      nnpPackage := r.data.nnpPackage trunkSettings.nnpTariffId
      nnpPackagePricelist :=
        (first.nnpPackagePricelist.map (·.2)).or order.nnpPackagePricelist
      nnpPackagePrice := (first.nnpPackagePrice.map (·.2)).or order.nnpPackagePrice
      nnpPrice := first.price }

theorem nnpTrunkOrder_eq_bySet (order : ServiceTrunkOrder) (trunkSettings : ServiceTrunkSettings)
    (nnpDestinationIds : List Int) (dstNumber : Int) :
    r.nnpTrunkOrder order trunkSettings nnpDestinationIds dstNumber =
      r.nnpTrunkOrderBySet order trunkSettings nnpDestinationIds dstNumber := by
  unfold nnpTrunkOrder nnpTrunkOrderBySet resultNNPPackage cheapest
  generalize r.findNNPPackagePriceIds trunkSettings.nnpTariffId nnpDestinationIds = prices
  generalize r.findNNPPackagePricelistIds trunkSettings.nnpTariffId dstNumber = pricelists
  have hprices := @setBegin_map _ _ NNPPackagePair.less NNPPackagePair.ofPrice prices
  have hpricelists := @setBegin_map _ _ NNPPackagePair.less NNPPackagePair.ofPricelist pricelists
  simp only [NNPPackagePair.less_ofPrice] at hprices
  simp only [NNPPackagePair.less_ofPricelist] at hpricelists
  cases hprice : setBegin (fun left right : ℚ × Nat × NNPPackagePrice =>
      pairLess (left.1, left.2.1) (right.1, right.2.1)) prices with
  | none =>
      rw [hprice] at hprices
      rw [setBegin_eq_none_iff.mp hprices, List.nil_append, hpricelists]
      cases setBegin (fun left right : ℚ × Nat × NNPPackagePricelist =>
          pairLess (left.1, left.2.1) (right.1, right.2.1)) pricelists with
      | none => rfl
      | some pricelist => rfl
  | some price =>
      rw [hprice] at hprices
      cases hpricelist : setBegin (fun left right : ℚ × Nat × NNPPackagePricelist =>
          pairLess (left.1, left.2.1) (right.1, right.2.1)) pricelists with
      | none =>
          rw [hpricelist] at hpricelists
          rw [setBegin_eq_none_iff.mp hpricelists, List.append_nil, hprices]
          rfl
      | some pricelist =>
          rw [hpricelist] at hpricelists
          rw [setBegin_append hprices hpricelists]
          simp only [NNPPackagePair.less_ofPricelist_ofPrice, decide_eq_true_eq, Option.map_some]
          by_cases hle : price.1 ≤ pricelist.1
          · rw [if_pos hle, if_neg (not_lt.mpr hle)]
            rfl
          · rw [if_neg hle, if_pos (not_le.mp hle)]
            rfl

end Repository

/-! ## The prices that apply -/

/-- A package price of one of the tariffs, for one of the destinations. -/
structure PriceApplies (r : Repository) (tariffs : Set Int) (nnpDestinationIds : List Int)
    (price : NNPPackagePrice) : Prop where
  row : price ∈ r.data.nnpPackagePrice
  tariff : price.nnpTariffId ∈ tariffs
  destination : price.nnpDestinationId ∈ nnpDestinationIds

/-- A package price list of one of the tariffs, with a price for the number. -/
structure PricelistApplies (r : Repository) (tariffs : Set Int) (dstNumber : Int)
    (pricelist : NNPPackagePricelist) (listed : PricelistPrice) : Prop where
  row : pricelist ∈ r.data.nnpPackagePricelist
  tariff : pricelist.nnpTariffId ∈ tariffs
  listed : r.getPrice pricelist.pricelistId dstNumber = some listed

/-- The least of the prices that apply and the row it comes from. -/
inductive LeastRate (r : Repository) (tariffs : Set Int) (nnpDestinationIds : List Int)
    (dstNumber : Int) : ℚ → Option NNPPackagePrice → Option NNPPackagePricelist → Prop
  | packagePrice (price : NNPPackagePrice)
      (applies : PriceApplies r tariffs nnpDestinationIds price)
      (least : ∀ other, PriceApplies r tariffs nnpDestinationIds other →
        price.price ≤ other.price)
      (wins : ∀ pricelist listed, PricelistApplies r tariffs dstNumber pricelist listed →
        price.price ≤ listed.price) :
      LeastRate r tariffs nnpDestinationIds dstNumber price.price (some price) none
  | packagePricelist (pricelist : NNPPackagePricelist) (listed : PricelistPrice)
      (applies : PricelistApplies r tariffs dstNumber pricelist listed)
      (least : ∀ other otherListed, PricelistApplies r tariffs dstNumber other otherListed →
        listed.price ≤ otherListed.price)
      (wins : ∀ price, PriceApplies r tariffs nnpDestinationIds price →
        listed.price < price.price) :
      LeastRate r tariffs nnpDestinationIds dstNumber listed.price none (some pricelist)
  | none (noPrice : ∀ price, ¬ PriceApplies r tariffs nnpDestinationIds price)
      (noPricelist : ∀ pricelist listed,
        ¬ PricelistApplies r tariffs dstNumber pricelist listed) :
      LeastRate r tariffs nnpDestinationIds dstNumber 0 none none

/-- Some price applies. -/
def SomePriceApplies (r : Repository) (tariffs : Set Int) (nnpDestinationIds : List Int)
    (dstNumber : Int) : Prop :=
  (∃ price, PriceApplies r tariffs nnpDestinationIds price) ∨
    ∃ pricelist listed, PricelistApplies r tariffs dstNumber pricelist listed

section Applies

variable {r : Repository} {tariffs : Set Int} {nnpDestinationIds : List Int} {dstNumber : Int}

/-- The least rate is one value. -/
theorem LeastRate.rate_unique {rate rate' : ℚ} {price price' : Option NNPPackagePrice}
    {pricelist pricelist' : Option NNPPackagePricelist}
    (h : LeastRate r tariffs nnpDestinationIds dstNumber rate price pricelist)
    (h' : LeastRate r tariffs nnpDestinationIds dstNumber rate' price' pricelist') :
    rate = rate' := by
  cases h with
  | packagePrice price applies least wins =>
      cases h' with
      | packagePrice price' applies' least' wins' =>
          exact le_antisymm (least price' applies') (least' price applies)
      | packagePricelist pricelist' listed' applies' least' wins' =>
          exact absurd (wins _ _ applies') (not_le.mpr (wins' price applies))
      | none noPrice noPricelist => exact absurd applies (noPrice price)
  | packagePricelist pricelist listed applies least wins =>
      cases h' with
      | packagePrice price' applies' least' wins' =>
          exact absurd (wins' _ _ applies) (not_le.mpr (wins price' applies'))
      | packagePricelist pricelist' listed' applies' least' wins' =>
          exact le_antisymm (least _ _ applies') (least' _ _ applies)
      | none noPrice noPricelist => exact absurd applies (noPricelist _ _)
  | none noPrice noPricelist =>
      cases h' with
      | packagePrice price' applies' least' wins' => exact absurd applies' (noPrice price')
      | packagePricelist pricelist' listed' applies' least' wins' =>
          exact absurd applies' (noPricelist _ _)
      | none => rfl

theorem mem_findNNPPackagePriceIds_iff {tariffId : Int} {rate : ℚ} {price : NNPPackagePrice} :
    (∃ place, (rate, place, price) ∈ r.findNNPPackagePriceIds tariffId nnpDestinationIds) ↔
      PriceApplies r {tariffId} nnpDestinationIds price ∧ rate = price.price := by
  constructor
  · rintro ⟨place, hmem⟩
    obtain ⟨hrow, htariff, heq⟩ := Repository.of_mem_findNNPPackagePriceIds hmem
    obtain ⟨found, hfound, hpair⟩ := List.mem_map.mp hmem
    obtain ⟨-, -, rfl⟩ := by simpa only [Prod.mk.injEq] using hpair
    have hfilter := (List.mem_filter.mp hfound).2
    simp only [Bool.and_eq_true, List.contains_iff_mem] at hfilter
    exact ⟨⟨hrow, htariff, hfilter.2⟩, heq⟩
  · rintro ⟨⟨hrow, htariff, hdestination⟩, rfl⟩
    obtain ⟨place, hplace⟩ := List.mem_iff_getElem?.mp hrow
    refine ⟨place, List.mem_map.mpr ⟨(price, place), List.mem_filter.mpr ⟨?_, ?_⟩, rfl⟩⟩
    · exact List.mem_zipIdx_iff_getElem?.mpr hplace
    · simp only [Bool.and_eq_true, beq_iff_eq, List.contains_iff_mem]
      exact ⟨htariff, hdestination⟩

theorem mem_findNNPPackagePricelistIds_iff {tariffId : Int} {rate : ℚ}
    {pricelist : NNPPackagePricelist} :
    (∃ place, (rate, place, pricelist) ∈ r.findNNPPackagePricelistIds tariffId dstNumber) ↔
      ∃ listed, PricelistApplies r {tariffId} dstNumber pricelist listed ∧
        rate = listed.price := by
  constructor
  · rintro ⟨place, hmem⟩
    obtain ⟨hrow, htariff, listed, hlisted, heq⟩ :=
      Repository.of_mem_findNNPPackagePricelistIds hmem
    exact ⟨listed, ⟨hrow, htariff, hlisted⟩, heq⟩
  · rintro ⟨listed, ⟨hrow, htariff, hlisted⟩, rfl⟩
    obtain ⟨place, hplace⟩ := List.mem_iff_getElem?.mp hrow
    refine ⟨place, List.mem_filterMap.mpr ⟨(pricelist, place), List.mem_filter.mpr ⟨?_, ?_⟩, ?_⟩⟩
    · exact List.mem_zipIdx_iff_getElem?.mpr hplace
    · exact beq_iff_eq.mpr htariff
    · rw [hlisted, Option.map_some]

/-- What the cheapest of the found package prices is. -/
structure CheapestPrice (r : Repository) (tariffs : Set Int) (nnpDestinationIds : List Int)
    (found : ℚ × NNPPackagePrice) : Prop where
  applies : PriceApplies r tariffs nnpDestinationIds found.2
  rate : found.1 = found.2.price
  least : ∀ other, PriceApplies r tariffs nnpDestinationIds other → found.1 ≤ other.price

/-- What the cheapest of the found prices of price lists is. -/
structure CheapestPricelist (r : Repository) (tariffs : Set Int) (dstNumber : Int)
    (found : ℚ × NNPPackagePricelist) : Prop where
  applies : ∃ listed, PricelistApplies r tariffs dstNumber found.2 listed ∧
    found.1 = listed.price
  least : ∀ other listed, PricelistApplies r tariffs dstNumber other listed →
    found.1 ≤ listed.price

/-- What the search for a package price has found. -/
def PriceFound (r : Repository) (tariffs : Set Int) (nnpDestinationIds : List Int) :
    Option (ℚ × NNPPackagePrice) → Prop
  | none => ∀ price, ¬ PriceApplies r tariffs nnpDestinationIds price
  | some found => CheapestPrice r tariffs nnpDestinationIds found

/-- What the search for a price of a package price list has found. -/
def PricelistFound (r : Repository) (tariffs : Set Int) (dstNumber : Int) :
    Option (ℚ × NNPPackagePricelist) → Prop
  | none => ∀ pricelist listed, ¬ PricelistApplies r tariffs dstNumber pricelist listed
  | some found => CheapestPricelist r tariffs dstNumber found

theorem priceFound_cheapest {found : List (ℚ × Nat × NNPPackagePrice)}
    (hfound : ∀ rate price, (∃ place, (rate, place, price) ∈ found) ↔
      PriceApplies r tariffs nnpDestinationIds price ∧ rate = price.price) :
    PriceFound r tariffs nnpDestinationIds (Repository.cheapest found) := by
  cases hcheapest : Repository.cheapest found with
  | none =>
      intro price happlies
      obtain ⟨place, hmem⟩ := (hfound price.price price).mpr ⟨happlies, rfl⟩
      rw [Repository.cheapest_eq_none_iff.mp hcheapest] at hmem
      exact absurd hmem (by simp)
  | some first =>
      obtain ⟨happlies, hrate⟩ := (hfound first.1 first.2).mp (Repository.mem_of_cheapest hcheapest)
      refine ⟨happlies, hrate, fun other hother => ?_⟩
      obtain ⟨place, hmem⟩ := (hfound other.price other).mpr ⟨hother, rfl⟩
      exact Repository.le_of_cheapest hcheapest _ hmem

theorem pricelistFound_cheapest {found : List (ℚ × Nat × NNPPackagePricelist)}
    (hfound : ∀ rate pricelist, (∃ place, (rate, place, pricelist) ∈ found) ↔
      ∃ listed, PricelistApplies r tariffs dstNumber pricelist listed ∧ rate = listed.price) :
    PricelistFound r tariffs dstNumber (Repository.cheapest found) := by
  cases hcheapest : Repository.cheapest found with
  | none =>
      intro pricelist listed happlies
      obtain ⟨place, hmem⟩ := (hfound listed.price pricelist).mpr ⟨listed, happlies, rfl⟩
      rw [Repository.cheapest_eq_none_iff.mp hcheapest] at hmem
      exact absurd hmem (by simp)
  | some first =>
      constructor
      · exact (hfound first.1 first.2).mp (Repository.mem_of_cheapest hcheapest)
      · intro other listed hother
        obtain ⟨place, hmem⟩ := (hfound listed.price other).mpr ⟨listed, hother, rfl⟩
        exact Repository.le_of_cheapest hcheapest _ hmem

/-! ### The lesser of the two -/

theorem leastRate_of_price {price : ℚ × NNPPackagePrice}
    {pricelist : Option (ℚ × NNPPackagePricelist)}
    (hprice : PriceFound r tariffs nnpDestinationIds (some price))
    (hpricelist : PricelistFound r tariffs dstNumber pricelist)
    (hle : ∀ found, pricelist = some found → price.1 ≤ found.1) :
    LeastRate r tariffs nnpDestinationIds dstNumber price.1 (some price.2) none := by
  rw [hprice.rate]
  refine .packagePrice price.2 hprice.applies (fun other hother => ?_) fun other listed hother => ?_
  · exact hprice.rate ▸ hprice.least other hother
  · cases pricelist with
    | none => exact absurd hother (hpricelist other listed)
    | some found => exact hprice.rate ▸ (hle found rfl).trans (hpricelist.least other listed hother)

theorem leastRate_of_pricelist {price : Option (ℚ × NNPPackagePrice)}
    {pricelist : ℚ × NNPPackagePricelist}
    (hprice : PriceFound r tariffs nnpDestinationIds price)
    (hpricelist : PricelistFound r tariffs dstNumber (some pricelist))
    (hlt : ∀ found, price = some found → pricelist.1 < found.1) :
    LeastRate r tariffs nnpDestinationIds dstNumber pricelist.1 none (some pricelist.2) := by
  obtain ⟨listed, happlies, hrate⟩ := hpricelist.applies
  have hleast := hpricelist.least
  rw [hrate] at hleast ⊢
  refine .packagePricelist pricelist.2 listed happlies hleast fun other hother => ?_
  cases price with
  | none => exact absurd hother (hprice other)
  | some found => exact hrate ▸ (hlt found rfl).trans_le (hprice.least other hother)

/-- The order of a trunk setting is there if some price applies, and has the least
rate. -/
theorem leastRate_nnpTrunkOrder {base : ServiceTrunkOrder} {trunkSettings : ServiceTrunkSettings}
    (hbase : base.nnpPackagePrice = none ∧ base.nnpPackagePricelist = none) :
    match r.nnpTrunkOrder base trunkSettings nnpDestinationIds dstNumber with
    | none => ¬ SomePriceApplies r {trunkSettings.nnpTariffId} nnpDestinationIds dstNumber
    | some order => SomePriceApplies r {trunkSettings.nnpTariffId} nnpDestinationIds dstNumber ∧
        LeastRate r {trunkSettings.nnpTariffId} nnpDestinationIds dstNumber order.nnpPrice
          order.nnpPackagePrice order.nnpPackagePricelist := by
  have hprice : PriceFound r {trunkSettings.nnpTariffId} nnpDestinationIds _ :=
    priceFound_cheapest fun _ _ => mem_findNNPPackagePriceIds_iff
  have hpricelist : PricelistFound r {trunkSettings.nnpTariffId} dstNumber _ :=
    pricelistFound_cheapest fun _ _ => mem_findNNPPackagePricelistIds_iff
  unfold Repository.nnpTrunkOrder
  cases hp : Repository.cheapest
      (r.findNNPPackagePriceIds trunkSettings.nnpTariffId nnpDestinationIds) with
  | none =>
      rw [hp] at hprice
      cases hl : Repository.cheapest
          (r.findNNPPackagePricelistIds trunkSettings.nnpTariffId dstNumber) with
      | none =>
          rw [hl] at hpricelist
          rintro (⟨price, happlies⟩ | ⟨pricelist, listed, happlies⟩)
          · exact hprice price happlies
          · exact hpricelist pricelist listed happlies
      | some pricelist =>
          rw [hl] at hpricelist
          obtain ⟨listed, happlies, -⟩ := hpricelist.applies
          dsimp only
          rw [hbase.1]
          exact ⟨Or.inr ⟨_, listed, happlies⟩,
            leastRate_of_pricelist hprice hpricelist fun _ h => absurd h (by simp)⟩
  | some price =>
      rw [hp] at hprice
      have hsome : SomePriceApplies r {trunkSettings.nnpTariffId} nnpDestinationIds dstNumber :=
        Or.inl ⟨_, hprice.applies⟩
      cases hl : Repository.cheapest
          (r.findNNPPackagePricelistIds trunkSettings.nnpTariffId dstNumber) with
      | none =>
          rw [hl] at hpricelist
          dsimp only
          rw [hbase.2]
          exact ⟨hsome, leastRate_of_price hprice hpricelist fun _ h => absurd h (by simp)⟩
      | some pricelist =>
          rw [hl] at hpricelist
          dsimp only
          -- of equal rates the price of the package comes first
          by_cases hle : price.1 ≤ pricelist.1
          · rw [if_pos hle]
            dsimp only
            rw [hbase.2]
            refine ⟨hsome, leastRate_of_price hprice hpricelist ?_⟩
            rintro found ⟨⟩
            exact hle
          · rw [if_neg hle]
            dsimp only
            rw [hbase.1]
            refine ⟨hsome, leastRate_of_pricelist hprice hpricelist ?_⟩
            rintro found ⟨⟩
            exact not_le.mp hle

end Applies

namespace BillingCall

/-! ## By number -/

/-- The tariffs of connected tariffs. -/
def tariffsOf (lights : List NNPAccountTariffLight) : Set Int :=
  { tariffId | ∃ light ∈ lights, light.nnpTariffId = tariffId }

/-- The connected tariffs of a number service, active at the connect time of the call. -/
def activeLights (env : PricingEnv) (call : Call) (serviceNumber : ServiceNumber) :
    List NNPAccountTariffLight :=
  env.repository.data.nnpAccountTariffLight.findAllActiveByClientID call.accountId
    call.connectTime serviceNumber.id

/-- The rate is the least one and the ids are those of the row it comes from. -/
def RatedLeast (r : Repository) (tariffs : Set Int) (nnpDestinationIds : List Int)
    (dstNumber : Int) (rated : Int × Int × ℚ) : Prop :=
  ∃ price pricelist,
    LeastRate r tariffs nnpDestinationIds dstNumber rated.2.2 price pricelist ∧
      rated.1 = price.elim 0 (·.id) ∧ rated.2.1 = pricelist.elim 0 (·.id)

/-- No price that applies is negative. -/
def NonnegPrices (r : Repository) (tariffs : Set Int) (nnpDestinationIds : List Int)
    (dstNumber : Int) : Prop :=
  (∀ price, PriceApplies r tariffs nnpDestinationIds price → 0 ≤ price.price) ∧
    ∀ pricelist listed, PricelistApplies r tariffs dstNumber pricelist listed → 0 ≤ listed.price

section Number

variable {env : PricingEnv} {lights : List NNPAccountTariffLight} {tariffs : Set Int}
  {nnpDestinationIds : List Int} {dstNumber : Int}

theorem priceFound_setupNNPPackagePrice :
    PriceFound env.repository (tariffsOf lights) nnpDestinationIds
      (setupNNPPackagePrice env lights nnpDestinationIds) := by
  refine priceFound_cheapest fun rate price => ?_
  constructor
  · rintro ⟨place, hmem⟩
    obtain ⟨light, hlight, hfound⟩ := List.mem_flatMap.mp hmem
    obtain ⟨happlies, hrate⟩ := mem_findNNPPackagePriceIds_iff.mp ⟨place, hfound⟩
    exact ⟨⟨happlies.row, ⟨light, hlight, happlies.tariff.symm⟩, happlies.destination⟩, hrate⟩
  · rintro ⟨⟨hrow, ⟨light, hlight, htariff⟩, hdestination⟩, hrate⟩
    obtain ⟨place, hmem⟩ :=
      mem_findNNPPackagePriceIds_iff.mpr ⟨⟨hrow, htariff.symm, hdestination⟩, hrate⟩
    exact ⟨place, List.mem_flatMap.mpr ⟨light, hlight, hmem⟩⟩

theorem pricelistFound_setupNNPPackagePricelist :
    PricelistFound env.repository (tariffsOf lights) dstNumber
      (setupNNPPackagePricelist env lights dstNumber) := by
  refine pricelistFound_cheapest fun rate pricelist => ?_
  constructor
  · rintro ⟨place, hmem⟩
    obtain ⟨light, hlight, hfound⟩ := List.mem_flatMap.mp hmem
    obtain ⟨listed, happlies, hrate⟩ := mem_findNNPPackagePricelistIds_iff.mp ⟨place, hfound⟩
    exact ⟨listed, ⟨happlies.row, ⟨light, hlight, happlies.tariff.symm⟩, happlies.listed⟩, hrate⟩
  · rintro ⟨listed, ⟨hrow, ⟨light, hlight, htariff⟩, hlisted⟩, hrate⟩
    obtain ⟨place, hmem⟩ :=
      mem_findNNPPackagePricelistIds_iff.mpr ⟨listed, ⟨hrow, htariff.symm, hlisted⟩, hrate⟩
    exact ⟨place, List.mem_flatMap.mpr ⟨light, hlight, hmem⟩⟩

/-- The comparison of absolute values finds the least rate, because no price is
negative. -/
theorem ratedLeast_withNNPRate {r : Repository} {call : Call}
    {price : Option (ℚ × NNPPackagePrice)} {pricelist : Option (ℚ × NNPPackagePricelist)}
    (hids : call.nnpPackagePriceId = 0 ∧ call.nnpPackagePricelistId = 0)
    (hnonneg : NonnegPrices r tariffs nnpDestinationIds dstNumber)
    (hprice : PriceFound r tariffs nnpDestinationIds price)
    (hpricelist : PricelistFound r tariffs dstNumber pricelist) :
    RatedLeast r tariffs nnpDestinationIds dstNumber
      ((withNNPRate price pricelist call).nnpPackagePriceId,
        (withNNPRate price pricelist call).nnpPackagePricelistId,
        (withNNPRate price pricelist call).rate) := by
  cases price with
  | none =>
      cases pricelist with
      | none => exact ⟨none, none, .none hprice hpricelist, hids.1, rfl⟩
      | some pricelist =>
          refine ⟨none, some pricelist.2, ?_, hids.1, rfl⟩
          exact leastRate_of_pricelist hprice hpricelist fun _ h => absurd h (by simp)
  | some price =>
      cases pricelist with
      | none =>
          refine ⟨some price.2, none, ?_, rfl, hids.2⟩
          exact leastRate_of_price hprice hpricelist fun _ h => absurd h (by simp)
      | some pricelist =>
          -- prices are compared by their absolute values
          have hprice0 : |price.1| = price.1 := by
            rw [hprice.rate]
            exact abs_of_nonneg (hnonneg.1 _ hprice.applies)
          have hpricelist0 : |pricelist.1| = pricelist.1 := by
            obtain ⟨listed, happlies, hrate⟩ := hpricelist.applies
            rw [hrate]
            exact abs_of_nonneg (hnonneg.2 _ _ happlies)
          simp only [withNNPRate, hprice0, hpricelist0]
          by_cases hle : price.1 ≤ pricelist.1
          · rw [if_pos hle]
            refine ⟨some price.2, none, leastRate_of_price hprice hpricelist ?_, rfl, hids.2⟩
            rintro found ⟨⟩
            exact hle
          · rw [if_neg hle]
            refine ⟨none, some pricelist.2, leastRate_of_pricelist hprice hpricelist ?_, hids.1, rfl⟩
            rintro found ⟨⟩
            exact not_le.mp hle

/-- The search for a package minute returns: the tariff of every candidate is
connected. -/
theorem returns_setupNNPPackageMinute :
    Triple (fun _ => True) (setupNNPPackageMinute env lights nnpDestinationIds)
      (fun _ _ => True) fun _ => False := by
  have hcandidates : ∀ minutes, (∀ minute ∈ minutes, minute ∈ packageMinutesOf env lights) →
      Triple (fun _ => True) (minuteCandidates env lights nnpDestinationIds minutes)
        (fun _ _ => True) fun _ => False := by
    intro minutes
    induction minutes with
    | nil => exact fun _ => triple_pure fun _ _ => trivial
    | cons minute minutes ih =>
        intro hmem
        have htail := ih fun minute' h => hmem minute' (List.mem_cons_of_mem minute h)
        obtain ⟨light, hlight⟩ := Option.isSome_iff_exists.mp
          (of_mem_packageMinutesOf (hmem minute List.mem_cons_self)).1
        rw [minuteCandidates, hlight]
        split
        case isFalse => exact htail
        case isTrue =>
          refine triple_deref_some ?_
          refine triple_bind (R := fun _ _ => True) (fun _ _ => trivial) fun candidate => ?_
          exact triple_bind htail fun candidates => triple_pure fun _ _ => trivial
  unfold setupNNPPackageMinute
  exact triple_bind (hcandidates _ fun _ h => h) fun _ => triple_pure fun _ _ => trivial

/-- However `calcOrigNNPByNumber` ends, the leg has the least rate. -/
theorem ratedLeast_calcOrigNNPByNumber {s : PricingState} {serviceNumber : ServiceNumber}
    (hnumber : s.callInfo.serviceNumber = some serviceNumber)
    (hfresh : ratedBy s = (0, 0, 0))
    (hnonneg : NonnegPrices env.repository
      (tariffsOf (activeLights env s.callInfo.call serviceNumber))
      (destinationsOf env s.numberRanges s.callInfo.call.dstNumber) s.callInfo.call.dstNumber) :
    RatedLeast env.repository (tariffsOf (activeLights env s.callInfo.call serviceNumber))
      (destinationsOf env s.numberRanges s.callInfo.call.dstNumber) s.callInfo.call.dstNumber
      (ratedBy (exec (calcOrigNNPByNumber env) s).2) := by
  unfold calcOrigNNPByNumber
  rw [exec_bind_ok (exec_getCallInfo s), hnumber, exec_bind_ok (exec_orThrow_some _ _ s)]
  change RatedLeast _ _ _ _ (ratedBy (exec (if activeLights env s.callInfo.call serviceNumber = []
    then _ else _) s).2)
  by_cases hlights : activeLights env s.callInfo.call serviceNumber = []
  · -- no tariff is active: nothing is written
    rw [if_pos hlights, exec_throw, hfresh, hlights]
    refine ⟨none, none, .none (fun price h => ?_) fun pricelist listed h => ?_, rfl, rfl⟩
    · obtain ⟨light, hlight, -⟩ := h.tariff
      exact absurd hlight (by simp)
    · obtain ⟨light, hlight, -⟩ := h.tariff
      exact absurd hlight (by simp)
  · obtain ⟨minute, s₁, hminute, -⟩ := (@returns_setupNNPPackageMinute env
      (activeLights env s.callInfo.call serviceNumber)
      (destinationsOf env s.numberRanges s.callInfo.call.dstNumber)).returns (s := s) trivial
    have hkept := @keeps_ratedBy_setupNNPPackageMinute env
      (activeLights env s.callInfo.call serviceNumber)
      (destinationsOf env s.numberRanges s.callInfo.call.dstNumber) s
    rw [hminute, hfresh] at hkept
    simp only [ratedBy, Prod.mk.injEq] at hkept
    have hrange : exec (getNNPNumberRange env s.callInfo.call.dstNumber) s =
        (.ok ((env.repository.data.nnpNumberRange s.callInfo.call.dstNumber).bind
          fun row => s.numberRanges[row]?), s) := rfl
    rw [if_neg hlights, exec_bind_ok hrange]
    change RatedLeast _ _ _ _ (ratedBy (exec (setupNNPPackageMinute env
      (activeLights env s.callInfo.call serviceNumber)
      (destinationsOf env s.numberRanges s.callInfo.call.dstNumber) >>= fun minute => _) s).2)
    -- the rate is written between the search for a minute and its charge
    rw [exec_bind_ok hminute, exec_bind_ok (exec_modifyCall _ s₁)]
    have htaken := @keeps_ratedBy_takeMinutes env
      (activeLights env s.callInfo.call serviceNumber) minute
    unfold activeLights at htaken
    rw [htaken]
    exact ratedLeast_withNNPRate ⟨hkept.1, hkept.2.1⟩ hnonneg priceFound_setupNNPPackagePrice
      pricelistFound_setupNNPPackagePricelist

end Number

/-! ## By trunk -/

section Trunk

variable {r : Repository} {trunk : Trunk} {serviceTrunk : ServiceTrunk}
  {trunkSettings : ServiceTrunkSettings} {account : Client} {nnpDestinationIds : List Int}
  {srcNumber dstNumber destinationType : Int} {order : ServiceTrunkOrder}

/-- The list of a trunk holds an order of a setting of one of its services. -/
def Offers (r : Repository) (trunk : Trunk) (nnpDestinationIds : List Int)
    (srcNumber dstNumber destinationType : Int) (serviceTrunk : ServiceTrunk)
    (trunkSettings : ServiceTrunkSettings) (order : ServiceTrunkOrder) : Prop :=
  order ∈ r.getTrunkSettingsOrderList trunk nnpDestinationIds srcNumber dstNumber
      destinationType ∧
    order.serviceTrunk = some serviceTrunk ∧ order.trunkSettings = some trunkSettings

theorem trunkSettingsOrder_trunkSettings
    (h : r.trunkSettingsOrder serviceTrunk trunkSettings nnpDestinationIds srcNumber dstNumber =
      some order) :
    order.trunkSettings = some trunkSettings := by
  unfold Repository.trunkSettingsOrder at h
  split at h
  case h_1 => exact absurd h (by simp)
  case h_2 account haccount =>
    split at h
    case isTrue =>
      obtain ⟨found, -, rfl⟩ := Option.map_eq_some_iff.mp h
      rfl
    case isFalse =>
      split at h
      case isTrue =>
        split at h
        case isTrue => exact (nnpTrunkOrder_spec ⟨rfl, rfl, rfl, rfl⟩ h).2.1
        case isFalse => exact absurd h (by simp)
      case isFalse => exact absurd h (by simp)

/-- A setting of a trunk for a version 5 account whose conditions on the numbers hold. -/
structure NNPSetting (r : Repository) (trunk : Trunk) (srcNumber dstNumber destinationType : Int)
    (serviceTrunk : ServiceTrunk) (trunkSettings : ServiceTrunkSettings) : Prop where
  service : serviceTrunk ∈ r.getAllServiceTrunk trunk.id
  setting : trunkSettings ∈ r.data.serviceTrunkSettings serviceTrunk.id destinationType
  version : ∃ account, r.data.client serviceTrunk.clientAccountId = some account ∧
    account.accountVersion = 5
  conditions : r.checkNNPTrunkSettingsConditions trunkSettings srcNumber dstNumber = true

theorem offers_iff (h : NNPSetting r trunk srcNumber dstNumber destinationType serviceTrunk
      trunkSettings) :
    Offers r trunk nnpDestinationIds srcNumber dstNumber destinationType serviceTrunk
        trunkSettings order ↔
      ∃ unplaced, r.trunkSettingsOrder serviceTrunk trunkSettings nnpDestinationIds srcNumber
          dstNumber = some unplaced ∧ { unplaced with trunk := some trunk } = order := by
  constructor
  · rintro ⟨hmem, hservice, hsettings⟩
    obtain ⟨serviceTrunk', -, hlist⟩ := List.mem_flatMap.mp hmem
    obtain ⟨trunkSettings', -, hmap⟩ := List.mem_filterMap.mp hlist
    obtain ⟨unplaced, hsome, rfl⟩ := Option.map_eq_some_iff.mp hmap
    -- the order carries the service and the setting it was made of
    have hservice' := Repository.trunkSettingsOrder_serviceTrunk hsome
    have hsettings' := trunkSettingsOrder_trunkSettings hsome
    obtain rfl := Option.some.inj (hservice.symm.trans hservice')
    obtain rfl := Option.some.inj (hsettings.symm.trans hsettings')
    exact ⟨unplaced, hsome, rfl⟩
  · rintro ⟨unplaced, hsome, rfl⟩
    have hservice := Repository.trunkSettingsOrder_serviceTrunk hsome
    have hsettings := trunkSettingsOrder_trunkSettings hsome
    refine ⟨List.mem_flatMap.mpr ⟨serviceTrunk, h.service, ?_⟩, hservice, hsettings⟩
    exact List.mem_filterMap.mpr
      ⟨trunkSettings, h.setting, Option.map_eq_some_iff.mpr ⟨unplaced, hsome, rfl⟩⟩

theorem leastRate_trunkSettingsOrder
    (h : NNPSetting r trunk srcNumber dstNumber destinationType serviceTrunk trunkSettings) :
    match r.trunkSettingsOrder serviceTrunk trunkSettings nnpDestinationIds srcNumber dstNumber with
    | none => ¬ SomePriceApplies r {trunkSettings.nnpTariffId} nnpDestinationIds dstNumber
    | some order => SomePriceApplies r {trunkSettings.nnpTariffId} nnpDestinationIds dstNumber ∧
        LeastRate r {trunkSettings.nnpTariffId} nnpDestinationIds dstNumber order.nnpPrice
          order.nnpPackagePrice order.nnpPackagePricelist := by
  obtain ⟨account, haccount, hversion⟩ := h.version
  unfold Repository.trunkSettingsOrder
  rw [haccount]
  dsimp only
  rw [if_neg (by omega), if_pos hversion, if_pos h.conditions]
  exact leastRate_nnpTrunkOrder ⟨rfl, rfl⟩

theorem exists_offers_iff
    (h : NNPSetting r trunk srcNumber dstNumber destinationType serviceTrunk trunkSettings) :
    (∃ order, Offers r trunk nnpDestinationIds srcNumber dstNumber destinationType serviceTrunk
        trunkSettings order) ↔
      SomePriceApplies r {trunkSettings.nnpTariffId} nnpDestinationIds dstNumber := by
  have hleast := @leastRate_trunkSettingsOrder r trunk serviceTrunk trunkSettings
    nnpDestinationIds srcNumber dstNumber destinationType h
  simp only [offers_iff h]
  cases horder : r.trunkSettingsOrder serviceTrunk trunkSettings nnpDestinationIds srcNumber
      dstNumber with
  | none =>
      rw [horder] at hleast
      simpa using hleast
  | some order =>
      rw [horder] at hleast
      exact iff_of_true ⟨_, order, rfl, rfl⟩ hleast.1

theorem leastRate_of_offers
    (h : NNPSetting r trunk srcNumber dstNumber destinationType serviceTrunk trunkSettings)
    (hoffers : Offers r trunk nnpDestinationIds srcNumber dstNumber destinationType serviceTrunk
      trunkSettings order) :
    LeastRate r {trunkSettings.nnpTariffId} nnpDestinationIds dstNumber order.nnpPrice
      order.nnpPackagePrice order.nnpPackagePricelist := by
  have hleast := @leastRate_trunkSettingsOrder r trunk serviceTrunk trunkSettings
    nnpDestinationIds srcNumber dstNumber destinationType h
  obtain ⟨unplaced, hsome, rfl⟩ := (offers_iff h).mp hoffers
  rw [hsome] at hleast
  exact hleast.2

end Trunk

/-- The rate of a version 5 leg is the least price that applies, by number and, through the
merged set, by trunk; for one tariff both are the same. -/
theorem nnpRate_least (env : PricingEnv) (s : PricingState) (serviceNumber : ServiceNumber)
    (hnumber : s.callInfo.serviceNumber = some serviceNumber) (hfresh : ratedBy s = (0, 0, 0))
    (hnonneg : NonnegPrices env.repository
      (tariffsOf (activeLights env s.callInfo.call serviceNumber))
      (destinationsOf env s.numberRanges s.callInfo.call.dstNumber)
      s.callInfo.call.dstNumber) :
    let r := env.repository
    let tariffs := tariffsOf (activeLights env s.callInfo.call serviceNumber)
    let dstNumber := s.callInfo.call.dstNumber
    let nnpDestinationIds := destinationsOf env s.numberRanges dstNumber
    let rated := ratedBy (exec (calcOrigNNPByNumber env) s).2
    RatedLeast r tariffs nnpDestinationIds dstNumber rated ∧
    (∀ order trunkSettings, r.nnpTrunkOrder order trunkSettings nnpDestinationIds dstNumber =
      r.nnpTrunkOrderBySet order trunkSettings nnpDestinationIds dstNumber) ∧
    ∀ trunk srcNumber destinationType serviceTrunk trunkSettings,
      NNPSetting r trunk srcNumber dstNumber destinationType serviceTrunk trunkSettings →
      ((∃ order, Offers r trunk nnpDestinationIds srcNumber dstNumber destinationType
          serviceTrunk trunkSettings order) ↔
        SomePriceApplies r {trunkSettings.nnpTariffId} nnpDestinationIds dstNumber) ∧
      ∀ order, Offers r trunk nnpDestinationIds srcNumber dstNumber destinationType serviceTrunk
          trunkSettings order →
        LeastRate r {trunkSettings.nnpTariffId} nnpDestinationIds dstNumber order.nnpPrice
          order.nnpPackagePrice order.nnpPackagePricelist ∧
        (tariffs = {trunkSettings.nnpTariffId} → order.nnpPrice = rated.2.2) := by
  have hrated := ratedLeast_calcOrigNNPByNumber hnumber hfresh hnonneg
  refine ⟨hrated, fun order trunkSettings => Repository.nnpTrunkOrder_eq_bySet _ _ _ _ _,
    fun trunk srcNumber destinationType serviceTrunk trunkSettings hsetting =>
      ⟨exists_offers_iff hsetting, fun order hoffers => ?_⟩⟩
  have hleast := leastRate_of_offers hsetting hoffers
  refine ⟨hleast, fun htariffs => ?_⟩
  obtain ⟨price, pricelist, hnumberLeast, -, -⟩ := hrated
  rw [htariffs] at hnumberLeast
  exact hleast.rate_unique hnumberLeast

/-- One tariff with a package price and a price list, both at 4. -/
def equalPricesEnv : PricingEnv where
  repository :=
    { data :=
        { nnpNumberRange := fun _ => some 1
          nnpNumberRangePrefix := fun _ => [1]
          nnpPrefixDestination := fun _ => [{ nnpDestinationId := 2, isAddition := true }]
          pricelistPrice := fun _ _ _ => some { price := 4 }
          nnpPackagePrice := [{ id := 3, nnpTariffId := 10, nnpDestinationId := 2, price := 4 }]
          nnpPackagePricelist := [{ id := 6, nnpTariffId := 10, pricelistId := 8 }]
          nnpAccountTariffLight :=
            { data :=
                [{ id := 1
                   accountClientId := 7
                   serviceNumberId := 5
                   nnpTariffId := 10
                   deactivateFrom := 100 }] } }
      currentTime := 0 }
  cdr := {}

/-- An originating leg of number service 5 of account 7. -/
def numberLeg : PricingState where
  callInfo :=
    { serviceNumber := some { id := 5 }
      call := { orig := true, accountId := 7, dstNumber := 79161234567 } }
  billingData := DataBillingContainer.empty
  currentNNPPackageMinute := UsageManager.empty
  numberRanges := (∅ : IntMap NNPNumberRange).insert 1 { id := 1 }

theorem nnpRate_least_equalPrices :
    RatedLeast equalPricesEnv.repository
      (tariffsOf (activeLights equalPricesEnv numberLeg.callInfo.call { id := 5 }))
      (destinationsOf equalPricesEnv numberLeg.numberRanges 79161234567) 79161234567
      (ratedBy (exec (calcOrigNNPByNumber equalPricesEnv) numberLeg).2) := by
  refine (nnpRate_least equalPricesEnv numberLeg { id := 5 } rfl rfl ⟨?_, ?_⟩).1
  · intro price happlies
    obtain rfl := List.mem_singleton.mp happlies.row
    exact (by decide : (0 : ℚ) ≤ 4)
  · intro pricelist listed happlies
    obtain rfl := Option.some.inj happlies.listed
    exact (by decide : (0 : ℚ) ≤ 4)

end BillingCall

end VoipBill
