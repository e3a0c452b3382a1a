import VoipBill.Model.LoadedLists

/-!
# Looking up a price by the longest prefix

The prices of a list are in the order of their prefixes as text, those of one prefix in the
order of their dates.  The search by time divides them at a point if they follow each other,
which they do when their validity intervals are disjoint and none is empty.

* `selects_findByPrefix`: one turn of the search finds the valid price of one prefix;
* `findLoop_spec`: the loop finds the longest of the prefixes it tries;
* `longest_price_found_iff`: the search agrees with a scan of the whole table;
* `price_hidden_by_emptyRow`: a row that ends before it begins hides the price before it.
-/

namespace VoipBill

open Lib.BinarySearch

namespace DefsRow

/-- Order of the query: by price list, prefix as text and first day. -/
def NotAfter (left right : DefsRow) : Prop :=
  left.pricelistId < right.pricelistId ∨ left.pricelistId = right.pricelistId ∧
    (decimal left.ndef < decimal right.ndef ∨ decimal left.ndef = decimal right.ndef ∧
      left.dateFrom ≤ right.dateFrom)

def ValidAt (row : DefsRow) (timestamp : Int) : Prop :=
  row.dateFrom ≤ timestamp ∧ timestamp ≤ row.dateTo + 86399

/-- The rows of one price list and prefix have disjoint validity intervals. -/
def Disjoint (rows : List DefsRow) : Prop :=
  rows.Pairwise fun left right => left.pricelistId = right.pricelistId →
    decimal left.ndef = decimal right.ndef →
    ∀ timestamp, ¬ (left.ValidAt timestamp ∧ right.ValidAt timestamp)

theorem NotAfter.pricelistId_le {left right : DefsRow} (h : left.NotAfter right) :
    left.pricelistId ≤ right.pricelistId := by
  rcases h with hlt | ⟨heq, -⟩
  · exact le_of_lt hlt
  · exact le_of_eq heq

theorem NotAfter.prefix_le {left right : DefsRow} (h : left.NotAfter right)
    (hlist : left.pricelistId = right.pricelistId) : decimal left.ndef ≤ decimal right.ndef := by
  rcases h with hlt | ⟨-, hlt | ⟨heq, -⟩⟩
  · exact absurd hlist (ne_of_lt hlt)
  · exact le_of_lt hlt
  · exact le_of_eq heq

theorem NotAfter.dateFrom_le {left right : DefsRow} (h : left.NotAfter right)
    (hlist : left.pricelistId = right.pricelistId)
    (hsamePrefix : decimal left.ndef = decimal right.ndef) : left.dateFrom ≤ right.dateFrom := by
  rcases h with hlt | ⟨-, hlt | ⟨-, hle⟩⟩
  · exact absurd hlist (ne_of_lt hlt)
  · exact absurd hsamePrefix (ne_of_lt hlt)
  · exact hle

end DefsRow

theorem decimal_ne_nil (n : Int) : decimal n ≠ [] := by
  unfold decimal
  split
  · exact List.cons_ne_nil _ _
  · exact List.ne_nil_of_length_pos (Nat.length_toDigits_pos)

namespace PricelistPriceItem

def ValidAt (item : PricelistPriceItem) (timestamp : Int) : Prop :=
  item.dateFrom ≤ timestamp ∧ timestamp ≤ item.dateTo

/-- A price of the list for a number that is valid at a time. -/
def Matches (pricelistId number timestamp : Int) (item : PricelistPriceItem) : Prop :=
  item.pricelistId = pricelistId ∧ item.pricePrefix <+: decimal number ∧ item.ValidAt timestamp

end PricelistPriceItem

namespace PricelistPriceList

open PricelistPriceItem

section Search

variable {rows : List DefsRow} {pricelistId timestamp : Int}

/-- Where no interval is empty, what has ended has ended before all that begins later. -/
theorem pairwise_dateTo (hsorted : rows.Pairwise DefsRow.NotAfter)
    (hdisjoint : DefsRow.Disjoint rows) (hvalid : ∀ row ∈ rows, ∃ t, row.ValidAt t) :
    rows.Pairwise fun left right => left.pricelistId = right.pricelistId →
      decimal left.ndef = decimal right.ndef →
      right.dateTo + 86399 < timestamp → left.dateTo + 86399 < timestamp := by
  have hboth := List.Pairwise.and_mem.mp (hsorted.and hdisjoint)
  refine hboth.imp fun {left right} h hlist hsamePrefix hended => ?_
  obtain ⟨-, hmem, horder, hapart⟩ := h
  obtain ⟨t, hfrom, hto⟩ := hvalid right hmem
  have hle := horder.dateFrom_le hlist hsamePrefix
  by_contra hlasts
  -- else the first day of the right one lies in both intervals
  exact hapart hlist hsamePrefix right.dateFrom ⟨⟨hle, by omega⟩, le_refl _, by omega⟩

/-- One turn of the search selects the valid price of a prefix. -/
theorem selects_findByPrefix (hsorted : rows.Pairwise DefsRow.NotAfter)
    (hdisjoint : DefsRow.Disjoint rows) (hvalid : ∀ row ∈ rows, ∃ t, row.ValidAt t)
    {start : List Char} (hstart : start ≠ []) :
    ∃ range, findByPrefix (load rows) pricelistId start timestamp = front (load rows) range ∧
      Selects (load rows) range fun item =>
        item.pricelistId = pricelistId ∧ item.pricePrefix = start ∧ item.ValidAt timestamp := by
  let byList := equalRange (fun left : PricelistPriceItem => decide (left.pricelistId < pricelistId))
    (fun right => decide (pricelistId < right.pricelistId)) (load rows) (0, (load rows).length)
  let byPrefix := equalRange (fun left : PricelistPriceItem => decide (left.pricePrefix < start))
    (fun right => decide (start < right.pricePrefix)) (load rows) byList
  have hlist : Selects (load rows) byList fun item => True ∧ item.pricelistId = pricelistId :=
    (selects_all _).narrowKey (fun _ => decide_eq_true_iff) (fun _ => decide_eq_true_iff)
      (List.pairwise_map.mpr (hsorted.imp fun hle _ _ => hle.pricelistId_le))
  have hsamePrefix : Selects (load rows) byPrefix fun item =>
      (True ∧ item.pricelistId = pricelistId) ∧ item.pricePrefix = start :=
    hlist.narrowKey (fun _ => decide_eq_true_iff) (fun _ => decide_eq_true_iff)
      (List.pairwise_map.mpr (hsorted.imp fun hle hleft hright =>
        hle.prefix_le (hleft.2.trans hright.2.symm)))
  have htime : Selects (load rows)
      (equalRange (fun left => decide (left.dateTo < timestamp))
        (fun right => decide (timestamp < right.dateFrom)) (load rows) byPrefix)
      fun item => ((True ∧ item.pricelistId = pricelistId) ∧ item.pricePrefix = start) ∧
        item.dateFrom ≤ timestamp ∧ timestamp ≤ item.dateTo :=
    hsamePrefix.narrowInterval (fun _ => decide_eq_true_iff) (fun _ => decide_eq_true_iff)
      (List.pairwise_map.mpr ((pairwise_dateTo hsorted hdisjoint hvalid).imp
        fun hended hleft hright => hended (hleft.1.2.trans hright.1.2.symm)
          (hleft.2.trans hright.2.symm)))
      (List.pairwise_map.mpr (hsorted.imp fun hle hleft hright =>
        hle.dateFrom_le (hleft.1.2.trans hright.1.2.symm) (hleft.2.trans hright.2.symm)))
  refine ⟨_, ?_, htime.congr fun item => by simp [ValidAt, and_assoc]⟩
  unfold findByPrefix
  simp only [if_pos hstart]
  rfl

theorem findByPrefix_eq_none_iff (hsorted : rows.Pairwise DefsRow.NotAfter)
    (hdisjoint : DefsRow.Disjoint rows) (hvalid : ∀ row ∈ rows, ∃ t, row.ValidAt t)
    {start : List Char} (hstart : start ≠ []) :
    findByPrefix (load rows) pricelistId start timestamp = none ↔
      ∀ item ∈ load rows, item.pricelistId = pricelistId → item.pricePrefix = start →
        ¬ item.ValidAt timestamp := by
  obtain ⟨range, hfind, hselects⟩ := selects_findByPrefix hsorted hdisjoint hvalid hstart
  rw [hfind, hselects.front_eq_none_iff]
  refine forall₂_congr fun item _ => ?_
  rw [not_and, not_and]

theorem of_findByPrefix (hsorted : rows.Pairwise DefsRow.NotAfter)
    (hdisjoint : DefsRow.Disjoint rows) (hvalid : ∀ row ∈ rows, ∃ t, row.ValidAt t)
    {start : List Char} (hstart : start ≠ []) {item : PricelistPriceItem}
    (hfound : findByPrefix (load rows) pricelistId start timestamp = some item) :
    item ∈ load rows ∧ item.pricelistId = pricelistId ∧ item.pricePrefix = start ∧
      item.ValidAt timestamp := by
  obtain ⟨range, hfind, hselects⟩ := selects_findByPrefix hsorted hdisjoint hvalid hstart
  exact hselects.of_front (hfind ▸ hfound)

/-- The loop finds the longest of the prefixes it tries, and nothing exactly if none of
them has a valid price. -/
theorem findLoop_spec (hsorted : rows.Pairwise DefsRow.NotAfter)
    (hdisjoint : DefsRow.Disjoint rows) (hvalid : ∀ row ∈ rows, ∃ t, row.ValidAt t)
    {text : List Char} {len : Nat} (hlen : len ≤ text.length) :
    (findLoop (load rows) pricelistId text timestamp len = none ↔
      ∀ item ∈ load rows, item.pricelistId = pricelistId → item.pricePrefix <+: text →
        item.pricePrefix.length ≤ len → ¬ item.ValidAt timestamp) ∧
    ∀ item, findLoop (load rows) pricelistId text timestamp len = some item →
      item ∈ load rows ∧ item.pricelistId = pricelistId ∧ item.pricePrefix <+: text ∧
        item.ValidAt timestamp ∧
        ∀ other ∈ load rows, other.pricelistId = pricelistId → other.pricePrefix <+: text →
          other.pricePrefix.length ≤ len → other.ValidAt timestamp →
          other.pricePrefix.length ≤ item.pricePrefix.length := by
  have hnonempty : ∀ item ∈ load rows, 0 < item.pricePrefix.length := by
    intro item hmem
    obtain ⟨row, -, rfl⟩ := List.mem_map.mp hmem
    exact List.length_pos_of_ne_nil (decimal_ne_nil row.ndef)
  induction len with
  | zero =>
      refine ⟨iff_of_true rfl fun item hmem _ _ hzero => ?_, fun item hfound => ?_⟩
      · have hpos := hnonempty item hmem
        omega
      · exact absurd hfound (by simp [findLoop])
  | succ len ih =>
      have hstart : text.take (len + 1) ≠ [] := by
        intro hnil
        have hzero := congrArg List.length hnil
        rw [List.length_take, List.length_nil] at hzero
        omega
      have htake : (text.take (len + 1)).length = len + 1 := by
        rw [List.length_take]
        omega
      -- a prefix of this length is the text that is tried
      have hexact : ∀ item : PricelistPriceItem, item.pricePrefix <+: text →
          item.pricePrefix.length = len + 1 → item.pricePrefix = text.take (len + 1) := by
        intro item hsamePrefix hlength
        rw [List.prefix_iff_eq_take.mp hsamePrefix, hlength]
      rw [findLoop]
      cases hfound : findByPrefix (load rows) pricelistId (text.take (len + 1)) timestamp with
      | some found =>
          obtain ⟨hmem, hlist, hsamePrefix, htime⟩ :=
            of_findByPrefix hsorted hdisjoint hvalid hstart hfound
          have hfoundPrefix : found.pricePrefix <+: text := hsamePrefix ▸ List.take_prefix _ _
          have hfoundLength : found.pricePrefix.length = len + 1 := by rw [hsamePrefix, htake]
          dsimp only
          refine ⟨iff_of_false (by simp) fun hnone =>
            hnone found hmem hlist hfoundPrefix hfoundLength.le htime, fun item heq => ?_⟩
          rw [← Option.some.inj heq]
          exact ⟨hmem, hlist, hfoundPrefix, htime, fun other _ _ _ hle _ => by omega⟩
      | none =>
          have hnoneHere :=
            (findByPrefix_eq_none_iff hsorted hdisjoint hvalid hstart).mp hfound
          obtain ⟨hnoneIff, hsome⟩ := ih (by omega)
          dsimp only
          refine ⟨hnoneIff.trans ⟨fun h item hmem hlist hsamePrefix hle htime => ?_,
            fun h item hmem hlist hsamePrefix hle => h item hmem hlist hsamePrefix (by omega)⟩,
            fun item heq => ?_⟩
          · by_cases hshort : item.pricePrefix.length ≤ len
            · exact h item hmem hlist hsamePrefix hshort htime
            · exact hnoneHere item hmem hlist (hexact item hsamePrefix (by omega)) htime
          · obtain ⟨hmem, hlist, hsamePrefix, htime, hlongest⟩ := hsome item heq
            refine ⟨hmem, hlist, hsamePrefix, htime, fun other hother hotherList hotherPrefix hle
              hotherTime => ?_⟩
            by_cases hshort : other.pricePrefix.length ≤ len
            · exact hlongest other hother hotherList hotherPrefix hshort hotherTime
            · exact absurd hotherTime
                (hnoneHere other hother hotherList (hexact other hotherPrefix (by omega)))

/-- A price of the list for the number that is valid then, with the longest prefix. -/
def IsLongest (data : List PricelistPriceItem) (pricelistId number timestamp : Int)
    (item : PricelistPriceItem) : Prop :=
  item ∈ data ∧ item.Matches pricelistId number timestamp ∧
    ∀ other ∈ data, other.Matches pricelistId number timestamp →
      other.pricePrefix.length ≤ item.pricePrefix.length

/-- There is at most one such price. -/
theorem IsLongest.unique (hdisjoint : DefsRow.Disjoint rows) {number : Int}
    {item other : PricelistPriceItem}
    (h : IsLongest (load rows) pricelistId number timestamp item)
    (h' : IsLongest (load rows) pricelistId number timestamp other) : item = other := by
  obtain ⟨hmem, hmatches, hlongest⟩ := h
  obtain ⟨hmem', hmatches', hlongest'⟩ := h'
  have hle := hlongest other hmem' hmatches'
  have hge := hlongest' item hmem hmatches
  have hsamePrefix : item.pricePrefix = other.pricePrefix := by
    rw [List.prefix_iff_eq_take.mp hmatches.2.1, List.prefix_iff_eq_take.mp hmatches'.2.1,
      show item.pricePrefix.length = other.pricePrefix.length by omega]
  have hapart : (load rows).Pairwise fun left right => left.pricelistId = right.pricelistId →
      left.pricePrefix = right.pricePrefix → left.ValidAt timestamp → right.ValidAt timestamp →
        left = right :=
    List.pairwise_map.mpr (hdisjoint.imp fun hnot hlist hpre hleft hright =>
      absurd ⟨hleft, hright⟩ (hnot hlist hpre timestamp))
  have hflip : (load rows).Pairwise fun left right => right.pricelistId = left.pricelistId →
      right.pricePrefix = left.pricePrefix → right.ValidAt timestamp → left.ValidAt timestamp →
        right = left :=
    hapart.imp fun heq hlist hpre hright hleft => (heq hlist.symm hpre.symm hleft hright).symm
  exact List.Pairwise.forall_of_forall_of_flip (fun _ _ _ _ _ _ => rfl) hapart hflip hmem hmem'
    (hmatches.1.trans hmatches'.1.symm) hsamePrefix hmatches.2.2 hmatches'.2.2

/-- **The search by prefixes agrees with a scan of the table**, if no validity interval is
empty: it finds the valid price with the longest prefix, and nothing exactly if no price of
the list for the number is valid. -/
theorem longest_price_found_iff (rows : List DefsRow) (hsorted : rows.Pairwise DefsRow.NotAfter)
    (hdisjoint : DefsRow.Disjoint rows) (hvalid : ∀ row ∈ rows, ∃ t, row.ValidAt t)
    (pricelistId timestamp number : Int) :
    (∀ item, find (load rows) pricelistId number timestamp = some item ↔
      IsLongest (load rows) pricelistId number timestamp item) ∧
    (find (load rows) pricelistId number timestamp = none ↔
      ∀ item ∈ load rows, ¬ item.Matches pricelistId number timestamp) := by
  obtain ⟨hnoneLoop, hsomeLoop⟩ := @findLoop_spec rows pricelistId timestamp hsorted hdisjoint
    hvalid (decimal number) _ (le_refl (decimal number).length)
  have hnone : find (load rows) pricelistId number timestamp = none ↔
      ∀ item ∈ load rows, ¬ item.Matches pricelistId number timestamp := by
    refine hnoneLoop.trans ⟨fun h item hmem hmatches => ?_, fun h item hmem hlist hsamePrefix _ htime =>
      h item hmem ⟨hlist, hsamePrefix, htime⟩⟩
    exact h item hmem hmatches.1 hmatches.2.1 hmatches.2.1.length_le hmatches.2.2
  have hsome : ∀ item, find (load rows) pricelistId number timestamp = some item →
      IsLongest (load rows) pricelistId number timestamp item := by
    intro item hfound
    obtain ⟨hmem, hlist, hsamePrefix, htime, hlongest⟩ := hsomeLoop item hfound
    exact ⟨hmem, ⟨hlist, hsamePrefix, htime⟩, fun other hother hmatches =>
      hlongest other hother hmatches.1 hmatches.2.1 hmatches.2.1.length_le hmatches.2.2⟩
  refine ⟨fun item => ⟨hsome item, fun hlongest => ?_⟩, hnone⟩
  cases hfound : find (load rows) pricelistId number timestamp with
  | none => exact absurd hlongest.2.1 (hnone.mp hfound item hlongest.1)
  | some found => rw [(hsome found hfound).unique hdisjoint hlongest]

/-- The prefixes 7 and 79, the longer one for days 0 to 9 and from day 10 on. -/
def twoPrefixes : List DefsRow :=
  [{ pricelistId := 1, ndef := 7, price := 5, dateFrom := 0, dateTo := 86400 * 900 },
   { pricelistId := 1, ndef := 79, price := 2, dateFrom := 0, dateTo := 86400 * 9 },
   { pricelistId := 1, ndef := 79, price := 3, dateFrom := 86400 * 10, dateTo := 86400 * 900 }]

theorem longest_price_found_iff_twoPrefixes :
    (find (load twoPrefixes) 1 795 (86400 * 10)).map (·.price) = some 3 ∧
      ∀ item, find (load twoPrefixes) 1 795 (86400 * 10) = some item ↔
        IsLongest (load twoPrefixes) 1 795 (86400 * 10) item := by
  have hsorted : twoPrefixes.Pairwise DefsRow.NotAfter := by
    unfold DefsRow.NotAfter
    decide +kernel
  have hvalid : ∀ row ∈ twoPrefixes, ∃ t, row.ValidAt t := by
    intro row hmem
    refine ⟨row.dateFrom, le_refl _, ?_⟩
    revert row
    decide
  have hdisjoint : DefsRow.Disjoint twoPrefixes := by
    have hdates : twoPrefixes.Pairwise fun left right => left.pricelistId = right.pricelistId →
        decimal left.ndef = decimal right.ndef → left.dateTo + 86399 < right.dateFrom := by
      decide +kernel
    refine hdates.imp fun hlt hlist hsamePrefix t hboth => ?_
    have hbefore := hlt hlist hsamePrefix
    have hto := hboth.1.2
    have hfrom := hboth.2.1
    omega
  exact ⟨by decide +kernel,
    (longest_price_found_iff twoPrefixes hsorted hdisjoint hvalid 1 (86400 * 10) 795).1⟩

/-- A price for days 0 to 9, and one from day 10 on that ended on day 5. -/
def emptyRow : List DefsRow :=
  [{ pricelistId := 1, ndef := 79, price := 2, dateFrom := 0, dateTo := 86400 * 9 },
   { pricelistId := 1, ndef := 79, price := 3, dateFrom := 86400 * 10, dateTo := 86400 * 5 }]

/-- The row whose interval is empty hides the price that is valid on day 7. -/
theorem price_hidden_by_emptyRow :
    emptyRow.Pairwise DefsRow.NotAfter ∧ DefsRow.Disjoint emptyRow ∧
      (∃ item ∈ load emptyRow, item.Matches 1 795 (86400 * 7)) ∧
      find (load emptyRow) 1 795 (86400 * 7) = none := by
  refine ⟨?_, ?_, ⟨(load emptyRow).head (by decide), List.head_mem _, by decide, ?_, ?_⟩,
    by decide +kernel⟩
  · unfold DefsRow.NotAfter
    decide +kernel
  · refine List.pairwise_cons.mpr ⟨fun right hmem _ _ t hboth => ?_, List.pairwise_singleton _ _⟩
    have hfrom := hboth.2.1
    have hto := hboth.2.2
    rw [List.mem_singleton.mp hmem] at hfrom hto
    dsimp only at hfrom hto
    omega
  · decide +kernel
  · exact ⟨by decide, by decide⟩

end Search

end PricelistPriceList
end VoipBill
