import VoipBill.NNP.CanonicalCover
import VoipBill.NNP.PrefixBlocks
import VoipBill.NNP.RangeLoad

/-!
# From numbers to destinations and back

`getNNPDestinationByNum` reads the links of the one range that is found for a number;
`getPrefixByNNPDestination` adds up all ranges that are linked to a destination and
subtracts others.

* `mem_getNNPDestinationByNum_iff`: the destinations of a number, by the links of its range,
  which is a nearest one (`Nearest`);
* `getPrefixByNNPDestination_eq`: the trees of a destination, where their links are kept;
* `covered_iff`: the numbers of a destination, by the links of all ranges over them;
* `RowsAgree`: what the rows over a number have to say of a destination for the two to agree
  (`forward_reverse_iff`).
-/

namespace VoipBill

open Lib.Digits Lib.Hoare PrefixTree PrefixNode

/-- A number starts with the digits of one of the prefixes. -/
def CoveredBy (prefixes : List Nat) (num : Nat) : Prop :=
  ∃ phonePrefix ∈ prefixes, digits phonePrefix <+: digits num

instance (prefixes : List Nat) (num : Nat) : Decidable (CoveredBy prefixes num) :=
  inferInstanceAs (Decidable (∃ phonePrefix ∈ prefixes, digits phonePrefix <+: digits num))

namespace NNPTables

variable (tables : NNPTables)

/-- A prefix links a range to a destination, by addition or subtraction. -/
def Links (prefixId rangeId destinationId : Int) (isAddition : Bool) : Prop :=
  (prefixId, rangeId) ∈ tables.nnpNumberRangePrefix ∧
    (prefixId, { nnpDestinationId := destinationId, isAddition := isAddition }) ∈
      tables.nnpPrefixDestination

/-- The range is linked to the destination by an addition and by no subtraction. -/
def Picks (destinationId : Int) (range : NNPNumberRangeItem) : Prop :=
  1 ≤ range.id ∧ (∃ prefixId, tables.Links prefixId range.id destinationId true) ∧
    ¬ ∃ prefixId, tables.Links prefixId range.id destinationId false

/-- A shortest range over the number of those that loading keeps, and the last one with its
borders. -/
structure Nearest (build : Build) (num : Nat) (range : NNPNumberRangeItem) : Prop where
  pos : 0 < num
  kept : range ∈ tables.nnpNumberRange.kept build
  contains : range.contains num = true
  shortest : ∀ other ∈ tables.nnpNumberRange.kept build, other.contains num = true →
    range.getLength ≤ other.getLength
  last : ∀ other ∈ tables.nnpNumberRange.kept build,
    other.fullNumberFrom = range.fullNumberFrom → other.fullNumberTo = range.fullNumberTo →
      other.id ≤ range.id

/-- The range is linked to the destination by a prefix with a valid id. -/
def Concerns (destinationId : Int) (isAddition : Bool) (range : NNPNumberRangeItem) : Prop :=
  range ∈ tables.nnpNumberRange.data ∧ 1 ≤ range.id ∧
    ∃ prefixId, 1 ≤ prefixId ∧ tables.Links prefixId range.id destinationId isAddition

/-- Some range over the digit string is linked to the destination. -/
def Reaches (destinationId : Int) (isAddition : Bool) (ds : List (Fin 10)) : Prop :=
  ∃ range, tables.Concerns destinationId isAddition range ∧
    range.fullNumberFrom ≤ value ds ∧ value ds ≤ range.fullNumberTo

/-- The range and link rows over a number fit each other.  No nearest range picks the
destination where the ranges do not add the number, subtract it or drop it with others; where
they add it and it stays, every nearest range picks the destination. -/
inductive RowsAgree (build : Build) (destinationId : Int) (num : Nat) : Prop
  | notAdded
      (hnot : ¬ tables.Reaches destinationId true (digits num))
      (hnone : ∀ range, tables.Nearest build num range → ¬ tables.Picks destinationId range)
  | subtracted
      (hminus : tables.Reaches destinationId false (digits num))
      (hnone : ∀ range, tables.Nearest build num range → ¬ tables.Picks destinationId range)
  | dropped
      (hdropped : ¬ Kept (tables.Reaches destinationId true) (tables.Reaches destinationId false)
        (digits num))
      (hnone : ∀ range, tables.Nearest build num range → ¬ tables.Picks destinationId range)
  | added
      (hplus : tables.Reaches destinationId true (digits num))
      (hminus : ¬ tables.Reaches destinationId false (digits num))
      (hkept : Kept (tables.Reaches destinationId true) (tables.Reaches destinationId false)
        (digits num))
      (hsome : ∃ range, tables.Nearest build num range)
      (hall : ∀ range, tables.Nearest build num range → tables.Picks destinationId range)

/-- The tree of the numbers of some ranges, with every link. -/
def treeOf (ranges : List NNPNumberRangeItem) : PrefixChildren :=
  ranges.foldl (fun tree range =>
    PrefixTree.addRange (digits range.fullNumberTo) (digits range.fullNumberFrom) tree)
    PrefixTree.empty

/-- No link is lost while the trees of the destination are built. -/
def TreesKept (build : Build) (destinationId : Int) : Prop :=
  PrefixBlock.LinksKept build (fun build => tables.minusTree build destinationId)
      (PrefixBlock.new storageSize) ∧
    PrefixBlock.LinksKept build
      (fun build => tables.plusTree build destinationId
        (treeOf (tables.rangesByNNPDestination destinationId false)))
      (PrefixBlock.new storageSize)

/-- A number is covered by the prefixes of a destination if and only if the destination is
one of the number's. -/
def Agree (build : Build) (destinationId : Int) (num : Nat) : Prop :=
  ∃ prefixes, tables.getPrefixByNNPDestination build destinationId = .ok prefixes ∧
    (CoveredBy prefixes num ↔ destinationId ∈ tables.getNNPDestinationByNum build num)

variable {tables} {build : Build} {destinationId : Int} {num : Nat}

/-! ## From a number to its destinations -/

theorem mem_getNNPDestinationsByPrefix_iff {prefixIds : List Int} :
    destinationId ∈ tables.repository.getNNPDestinationsByPrefix prefixIds ↔
      (∃ prefixId ∈ prefixIds, (prefixId, { nnpDestinationId := destinationId }) ∈
        tables.nnpPrefixDestination) ∧
      ¬ ∃ prefixId ∈ prefixIds, (prefixId,
        { nnpDestinationId := destinationId, isAddition := false }) ∈
          tables.nnpPrefixDestination := by
  have hlinks : ∀ isAddition : Bool,
      destinationId ∈ ((prefixIds.flatMap tables.repository.data.nnpPrefixDestination).filter
        fun link => link.isAddition == isAddition).map (·.nnpDestinationId) ↔
      ∃ prefixId ∈ prefixIds, (prefixId,
        { nnpDestinationId := destinationId, isAddition := isAddition }) ∈
          tables.nnpPrefixDestination := by
    intro isAddition
    simp only [List.mem_map, List.mem_filter, List.mem_flatMap, repository, beq_iff_eq]
    constructor
    · rintro ⟨link, ⟨⟨prefixId, hprefix, entry, ⟨hentry, rfl⟩, rfl⟩, hsign⟩, rfl⟩
      refine ⟨entry.1, hprefix, ?_⟩
      rw [← hsign]
      exact hentry
    · rintro ⟨prefixId, hprefix, hentry⟩
      exact ⟨_, ⟨⟨prefixId, hprefix, _, ⟨hentry, rfl⟩, rfl⟩, rfl⟩, rfl⟩
  have hins := hlinks true
  have hdel := hlinks false
  simp only [beq_true] at hins
  simp only [beq_false] at hdel
  simp only [Repository.getNNPDestinationsByPrefix, List.mem_filter, List.contains_eq_mem,
    Bool.not_eq_true', decide_eq_false_iff_not]
  rw [hins, hdel]

/-- **Forward.**  The destinations of a number are those its range picks. -/
theorem mem_getNNPDestinationByNum_iff :
    destinationId ∈ tables.getNNPDestinationByNum build num ↔
      ∃ range, tables.nnpNumberRange.getNNPNumberRange build num = some range ∧
        tables.Picks destinationId range := by
  unfold getNNPDestinationByNum Repository.getNNPDestinationByNumberRange Picks
  cases hfound : tables.nnpNumberRange.getNNPNumberRange build num with
  | none => simp
  | some range =>
      simp only [Option.map_some, Option.some.injEq, exists_eq_left']
      by_cases hid : range.id < 1
      · have hnot : ¬ 1 ≤ range.id := by omega
        simp [hid, hnot]
      · have hle : 1 ≤ range.id := by omega
        have hprefixes : ∀ prefixId, prefixId ∈ tables.getNNPPrefixsByNumberRange range.id ↔
            (prefixId, range.id) ∈ tables.nnpNumberRangePrefix := by
          intro prefixId
          simp [getNNPPrefixsByNumberRange, hid]
        rw [if_neg hid, mem_getNNPDestinationsByPrefix_iff]
        simp only [repository, hprefixes, Links, hle, true_and]

/-- The range that is found is a nearest one. -/
theorem nearest_of_found {range : NNPNumberRangeItem}
    (h : tables.nnpNumberRange.getNNPNumberRange build num = some range) :
    tables.Nearest build num range := by
  have hpos : 0 < num := by
    by_contra hnot
    rw [NNPNumberRangeList.getNNPNumberRange, if_neg hnot] at h
    exact absurd h (by simp)
  obtain ⟨hkept, hover, hshortest⟩ := NNPNumberRangeList.getNNPNumberRange_eq_some h
  exact ⟨hpos, hkept, hover, hshortest,
    fun other hother hfrom hto => NNPNumberRangeList.id_le_of_sameBorders h hother hfrom hto⟩

/-- Where there is a nearest range, one is found. -/
theorem found_of_nearest {range : NNPNumberRangeItem} (h : tables.Nearest build num range) :
    ∃ found, tables.nnpNumberRange.getNNPNumberRange build num = some found := by
  cases hfound : tables.nnpNumberRange.getNNPNumberRange build num with
  | some found => exact ⟨found, rfl⟩
  | none =>
      have hnone := (NNPNumberRangeList.getNNPNumberRange_eq_none_iff h.pos).mp hfound range h.kept
      exact absurd h.contains (Bool.eq_false_iff.mp hnone)

/-! ## From a destination to its numbers -/

/-- An id finds the range that has it. -/
theorem getNNPNumberRangeById_eq_some_iff (list : NNPNumberRangeList) {id : Int}
    {range : NNPNumberRangeItem} :
    list.getNNPNumberRangeById id = some range ↔
      range ∈ list.data ∧ 1 ≤ range.id ∧ range.id = id := by
  unfold NNPNumberRangeList.getNNPNumberRangeById
  by_cases hid : id < 1
  · rw [if_pos hid]
    constructor
    · exact fun h => absurd h (by simp)
    · rintro ⟨-, hle, rfl⟩
      omega
  · rw [if_neg hid]
    constructor
    · intro h
      have heq : range.id = id := by simpa using List.find?_some h
      exact ⟨List.mem_of_find?_eq_some h, by omega, heq⟩
    · rintro ⟨hmem, -, rfl⟩
      -- ids ascend, so no earlier range has this one
      obtain ⟨data, hsorted, hlength⟩ := list
      simp only at hmem ⊢
      clear hlength
      induction data with
      | nil => simp at hmem
      | cons first rest ih =>
          rw [List.pairwise_cons] at hsorted
          rcases List.mem_cons.mp hmem with rfl | hrest
          · simp
          · have hne : first.id ≠ range.id := (hsorted.1 range hrest).ne
            rw [List.find?_cons_of_neg (by simpa using hne)]
            exact ih hsorted.2 hrest

theorem mem_rangesByNNPDestination_iff {isAddition : Bool} {range : NNPNumberRangeItem} :
    range ∈ tables.rangesByNNPDestination destinationId isAddition ↔
      tables.Concerns destinationId isAddition range := by
  simp only [rangesByNNPDestination, rangesOf, List.mem_filterMap, List.mem_flatMap,
    getNNPNumberRangeById_eq_some_iff, Concerns]
  constructor
  · rintro ⟨id, ⟨prefixId, hprefix, hrange⟩, hmem, hle, rfl⟩
    refine ⟨hmem, hle, prefixId, ?_⟩
    unfold getNumberRangesByNNPPrefix at hrange
    split at hrange
    · simp at hrange
    · simp only [getPrefixsByNNPDestination, List.mem_map, List.mem_filter, beq_iff_eq,
        Bool.and_eq_true] at hprefix hrange
      obtain ⟨link, ⟨hlink, hdestination, hsign⟩, rfl⟩ := hprefix
      obtain ⟨entry, ⟨hentry, hid⟩, heq⟩ := hrange
      refine ⟨by omega, ?_, ?_⟩
      · rw [← hid, ← heq]
        exact hentry
      · rw [← hdestination, ← hsign]
        exact hlink
  · rintro ⟨hmem, hle, prefixId, hprefix, hrange, hlink⟩
    refine ⟨range.id, ⟨prefixId, ?_, ?_⟩, hmem, hle, rfl⟩
    · simp only [getPrefixsByNNPDestination, List.mem_map, List.mem_filter, beq_iff_eq,
        Bool.and_eq_true]
      exact ⟨_, ⟨hlink, rfl, rfl⟩, rfl⟩
    · rw [getNumberRangesByNNPPrefix, if_neg (by omega)]
      simp only [List.mem_map, List.mem_filter, beq_iff_eq]
      exact ⟨_, ⟨hrange, rfl⟩, rfl⟩

/-- The borders of a range. -/
def borders (range : NNPNumberRangeItem) : Nat × Nat := (range.fullNumberFrom, range.fullNumberTo)

theorem treeOf_eq_build (ranges : List NNPNumberRangeItem) :
    treeOf ranges = PrefixTree.build (ranges.map borders) := by
  rw [PrefixTree.build, List.foldl_map]
  rfl

theorem validPair_borders {ranges : List NNPNumberRangeItem}
    (hsame : ∀ range ∈ ranges,
      (digits range.fullNumberFrom).length = (digits range.fullNumberTo).length) :
    ∀ pair ∈ ranges.map borders, ValidPair pair := by
  intro pair hpair
  obtain ⟨range, hrange, rfl⟩ := List.mem_map.mp hpair
  exact ⟨range.le, hsame range hrange⟩

/-- **A tree of ranges** of one length is canonical and holds the strings between their
borders. -/
theorem treeOf_spec {ranges : List NNPNumberRangeItem} {len : Nat}
    (hlen : ∀ range ∈ ranges, (digits range.fullNumberFrom).length = len + 1 ∧
      (digits range.fullNumberTo).length = len + 1) :
    (∀ i, Canonical len (treeOf ranges i)) ∧
      ∀ (d : Fin 10) (ds : List (Fin 10)), ds.length = len →
        ((treeOf ranges d).Covers ds ↔ ∃ range ∈ ranges,
          range.fullNumberFrom ≤ value (d :: ds) ∧ value (d :: ds) ≤ range.fullNumberTo) := by
  have hshort : ∀ pair ∈ ranges.map borders, (digits pair.1).length ≤ len + 1 := by
    intro pair hpair
    obtain ⟨range, hrange, rfl⟩ := List.mem_map.mp hpair
    exact (hlen range hrange).1.le
  obtain ⟨hcanonical, hcovers⟩ := build_spec
    (validPair_borders fun range h => (hlen range h).1.trans (hlen range h).2.symm) hshort
  rw [treeOf_eq_build]
  refine ⟨hcanonical, fun d ds hds => ?_⟩
  rw [hcovers d ds hds.ge]
  simp only [List.mem_map, exists_exists_and_eq_and]
  refine exists_congr fun range => and_congr_right fun hrange => ?_
  -- the string is as long as the borders
  have htake : (d :: ds).take (digits range.fullNumberFrom).length = d :: ds := by
    rw [(hlen range hrange).1, List.take_succ_cons, List.take_of_length_le hds.le]
  show _ ≤ value ((d :: ds).take _) ∧ value ((d :: ds).take _) ≤ _ ↔ _
  rw [borders, htake]

theorem coveredBy_print_iff {tree : PrefixChildren} (hzero : tree 0 = .no ∨ tree 0 = .all)
    {d : Fin 10} {ds : List (Fin 10)} (hnum : digits num = d :: ds) :
    CoveredBy (PrefixTree.print tree) num ↔ (tree d).Covers ds := by
  rw [← coveredBy_printed_cons, ← map_digits_print hzero, ← hnum]
  simp only [CoveredBy, Lib.PrefixCover.CoveredBy, List.mem_map, exists_exists_and_eq_and]

theorem allocates_addRanges (ranges : List NNPNumberRangeItem) (tree : PrefixChildren) :
    ∃ n, PrefixBlock.Allocates (fun build => addRanges build ranges tree)
      (ranges.foldl (fun tree range => PrefixTree.addRange (digits range.fullNumberTo)
        (digits range.fullNumberFrom) tree) tree) n := by
  induction ranges generalizing tree with
  | nil => exact ⟨0, PrefixBlock.allocates_pure tree⟩
  | cons range rest ih =>
      obtain ⟨n, hn⟩ := PrefixBlock.allocates_addRange (digits range.fullNumberTo)
        (digits range.fullNumberFrom) tree
      obtain ⟨m, hm⟩ := ih (PrefixTree.addRange (digits range.fullNumberTo)
        (digits range.fullNumberFrom) tree)
      exact ⟨n + m, hn.bind hm⟩

/-- The prefixes of a destination, where no link of its trees is lost. -/
theorem getPrefixByNNPDestination_eq (h : tables.TreesKept build destinationId) :
    tables.getPrefixByNNPDestination build destinationId =
      .ok (PrefixTree.print (PrefixTree.subTree
        (treeOf (tables.rangesByNNPDestination destinationId true))
        (treeOf (tables.rangesByNNPDestination destinationId false)))) := by
  obtain ⟨hminusKept, hplusKept⟩ := h
  obtain ⟨n, hminus⟩ := allocates_addRanges (tables.rangesByNNPDestination destinationId false)
    PrefixTree.empty
  obtain ⟨m, hplus⟩ := allocates_addRanges (tables.rangesByNNPDestination destinationId true)
    PrefixTree.empty
  obtain ⟨k, hsub⟩ := PrefixBlock.allocates_subTree
    (treeOf (tables.rangesByNNPDestination destinationId true))
    (treeOf (tables.rangesByNNPDestination destinationId false))
  have hboth : PrefixBlock.Allocates (fun build => tables.plusTree build destinationId
      (treeOf (tables.rangesByNNPDestination destinationId false))) _ (m + k) := hplus.bind hsub
  rw [getPrefixByNNPDestination, minusTree, hminus.exec_eq hminusKept]
  show (do
    let plus ← (exec (tables.plusTree build destinationId
      (treeOf (tables.rangesByNNPDestination destinationId false)))
        (PrefixBlock.new storageSize)).1
    return PrefixTree.print plus : Except PrefixError (List Nat)) = _
  rw [hboth.exec_eq hplusKept]
  rfl

/-- **Reverse.**  The numbers of a destination are those that some range adds and none
subtracts, and that the subtraction keeps. -/
theorem covered_iff
    (hlen : ∀ isAddition range, tables.Concerns destinationId isAddition range →
      (digits range.fullNumberFrom).length = (digits num).length) :
    CoveredBy (PrefixTree.print (PrefixTree.subTree
        (treeOf (tables.rangesByNNPDestination destinationId true))
        (treeOf (tables.rangesByNNPDestination destinationId false)))) num ↔
      tables.Reaches destinationId true (digits num) ∧
        ¬ tables.Reaches destinationId false (digits num) ∧
        Kept (tables.Reaches destinationId true) (tables.Reaches destinationId false)
          (digits num) := by
  obtain ⟨d, ds, hnum⟩ := List.exists_cons_of_ne_nil (digits_ne_nil num)
  have hrange : ∀ isAddition, ∀ range ∈ tables.rangesByNNPDestination destinationId isAddition,
      (digits range.fullNumberFrom).length = ds.length + 1 ∧
        (digits range.fullNumberTo).length = ds.length + 1 := by
    intro isAddition range hmem
    have hconcerns := mem_rangesByNNPDestination_iff.mp hmem
    rw [← tables.nnpNumberRange.sameLength range hconcerns.1, hlen isAddition range hconcerns, hnum,
      List.length_cons]
    exact ⟨rfl, rfl⟩
  obtain ⟨hplus, -⟩ := treeOf_spec (hrange true)
  obtain ⟨hminus, -⟩ := treeOf_spec (hrange false)
  have hreaches : ∀ isAddition (e : Fin 10) (es : List (Fin 10)), es.length = ds.length →
      ((treeOf (tables.rangesByNNPDestination destinationId isAddition) e).Covers es ↔
        tables.Reaches destinationId isAddition (e :: es)) := by
    intro isAddition e es hes
    rw [(treeOf_spec (hrange isAddition)).2 e es hes]
    simp only [mem_rangesByNNPDestination_iff, Reaches]
  have hzero : ∀ isAddition,
      treeOf (tables.rangesByNNPDestination destinationId isAddition) 0 = .no ∨
        treeOf (tables.rangesByNNPDestination destinationId isAddition) 0 = .all := by
    intro isAddition
    rw [treeOf_eq_build]
    exact build_zero (validPair_borders fun range h =>
      (hrange isAddition range h).1.trans (hrange isAddition range h).2.symm)
  rw [coveredBy_print_iff (subTree_zero (hzero true) (hzero false)) hnum,
    covers_subTree hminus hplus rfl, hreaches true d ds rfl, hreaches false d ds rfl, hnum, Kept]
  rw [keptBelow_congr fun es hes => ⟨hreaches true d es hes, hreaches false d es hes⟩]

/-- A range 1 that prefix 1 adds to destination 7, and a range 2 that prefix 2 subtracts. -/
def addedAndSubtracted (added subtracted : NNPNumberRangeItem)
    (hid : added.id < subtracted.id)
    (hlength : ∀ range ∈ [added, subtracted],
      (digits range.fullNumberFrom).length = (digits range.fullNumberTo).length) :
    NNPTables where
  nnpNumberRange := ⟨[added, subtracted], by simp [hid], hlength⟩
  nnpNumberRangePrefix := [(1, added.id), (2, subtracted.id)]
  nnpPrefixDestination := [(1, { nnpDestinationId := 7 }),
    (2, { nnpDestinationId := 7, isAddition := false })]

/-- The numbers 100 to 199 without 150 to 159. -/
def wideRange : NNPTables :=
  addedAndSubtracted NNPNumberRangeList.hundred NNPNumberRangeList.fifties (by decide) (by decide)

/-- The numbers 100 to 105 without 103. -/
def narrowRange : NNPTables :=
  addedAndSubtracted
    { id := 1, fullNumberFrom := 100, fullNumberTo := 105, le := by decide }
    { id := 2, fullNumberFrom := 103, fullNumberTo := 103, le := by decide }
    (by decide) (by decide)

end NNPTables
end VoipBill
