import VoipBill.NNP.RangeTree

/-!
# Loading the ranges

`load` inserts the ranges one after another.  Where `avlTree[p]` is evaluated before the
call that pushes the node of a new range, and this push moves the vector, the index of the
node is written to the old memory: the range is lost and the tree is as it was.

* `returned_insertNode`, `inPlace_insertNode`: what an insertion leaves;
* `kept`, `lost`: the ranges for which no link, or one, is lost;
* `load_spec`: the tree of the ranges that are kept;
* `lookup_exact_iff`: the lookup of a number is exact if no range over it is lost;
* `avl_of_insertions_iff`: the tree is an AVL tree, of all ranges if none is lost.
-/

namespace VoipBill
namespace NNPNumberRangeTree

variable {range : NNPNumberRangeItem}

/-! ## One insertion -/

def isNil : NNPNumberRangeTree → Bool
  | nil => true
  | node _ _ _ _ _ => false

/-- The range is over no key on its way down. -/
def overNoKey (range : NNPNumberRangeItem) : NNPNumberRangeTree → Bool
  | nil => true
  | node key _ _ left right =>
      !range.contains key &&
        if range.getMidKey < key then overNoKey range left else overNoKey range right

/-- Such a range gets a node of its own. -/
@[simp] theorem pushed_insertNode (lost : Bool) (tree : NNPNumberRangeTree) :
    (tree.insertNode lost range).pushed = tree.overNoKey range := by
  induction tree with
  | nil => rfl
  | node key height borders left right ihleft ihright =>
      rw [insertNode, overNoKey]
      by_cases hover : range.contains key = true
      · rw [if_pos hover, hover]
        rfl
      · rw [if_neg hover, Bool.eq_false_iff.mpr hover]
        by_cases hlt : range.getMidKey < key
        · rw [if_pos hlt, if_pos hlt]
          exact ihleft
        · rw [if_neg hlt, if_neg hlt]
          exact ihright

/-- Where no link is lost, every node on the way gets the new child. -/
theorem returned_insertNode {lost : Bool} {tree : NNPNumberRangeTree}
    (h : (tree.overNoKey range && lost) = false) :
    (tree.insertNode lost range).returned = tree.insert range := by
  induction tree with
  | nil => rfl
  | node key height borders left right ihleft ihright =>
      rw [insertNode, insert]
      by_cases hover : range.contains key = true
      · rw [if_pos hover, if_pos hover]
        rfl
      · rw [if_neg hover, if_neg hover]
        rw [overNoKey, Bool.eq_false_iff.mpr hover] at h
        by_cases hlt : range.getMidKey < key
        · rw [if_pos hlt] at h
          rw [if_pos hlt, if_pos hlt]
          show balance (node key height borders (Inserted.child lost _) right) = _
          rw [Inserted.child, pushed_insertNode, if_neg (by simpa using h), ihleft (by simpa using h)]
        · rw [if_neg hlt] at h
          rw [if_neg hlt, if_neg hlt]
          show balance (node key height borders left (Inserted.child lost _)) = _
          rw [Inserted.child, pushed_insertNode, if_neg (by simpa using h),
            ihright (by simpa using h)]

/-- A balanced tree returns as it is. -/
theorem balanced_of_avl {tree : NNPNumberRangeTree} (h : tree.Avl) (pushed : Bool) :
    tree.balanced pushed = { returned := tree, inPlace := tree, pushed := pushed } := by
  cases tree with
  | nil => rfl
  | node key height borders left right =>
      have htwo : ¬ getBalanceFactor (node key height borders left right) = 2 := by
        have hhigh := h.2.2.1
        omega
      have hminus : ¬ getBalanceFactor (node key height borders left right) = -2 := by
        have hlow := h.2.1
        omega
      rw [balanced, if_neg htwo, if_neg hminus, balance_of_avl h]

/-- Where the link to a new node is lost, no node on the way down is changed. -/
theorem inPlace_insertNode {tree : NNPNumberRangeTree} (h : tree.Avl)
    (hpush : tree.overNoKey range = true) :
    (tree.insertNode true range).inPlace = tree ∧
      (tree.isNil = false → (tree.insertNode true range).returned = tree) := by
  induction tree with
  | nil => exact ⟨rfl, fun hnil => absurd hnil (by simp [isNil])⟩
  | node key height borders left right ihleft ihright =>
      obtain ⟨hleft, hright, -⟩ := avl_node_iff.mp h
      rw [overNoKey, Bool.and_eq_true, Bool.not_eq_true'] at hpush
      obtain ⟨hover, hbelow⟩ := hpush
      rw [insertNode, if_neg (Bool.eq_false_iff.mp hover)]
      by_cases hlt : range.getMidKey < key
      · rw [if_pos hlt] at hbelow
        have hchild : (left.insertNode true range).child true = left := by
          rw [Inserted.child, pushed_insertNode, hbelow]
          exact (ihleft hleft hbelow).1
        rw [if_pos hlt]
        simp only [hchild, balanced_of_avl h, implies_true, and_self]
      · rw [if_neg hlt] at hbelow
        have hchild : (right.insertNode true range).child true = right := by
          rw [Inserted.child, pushed_insertNode, hbelow]
          exact (ihright hright hbelow).1
        rw [if_neg hlt]
        simp only [hchild, balanced_of_avl h, implies_true, and_self]

/-! ## Insertions with every link stored -/

/-- Insertions keep the tree ordered and balanced and put every range into it. -/
theorem insertions_spec (data : List NNPNumberRangeItem) :
    (data.foldl (fun tree range => tree.insert range) nil).Ordered ∧
      (data.foldl (fun tree range => tree.insert range) nil).Avl ∧
      (data.foldl (fun tree range => tree.insert range) nil).ranges.Perm data := by
  induction data using List.reverseRecOn with
  | nil => exact ⟨trivial, trivial, .refl _⟩
  | append_singleton data range ih =>
      obtain ⟨hordered, havl, hranges⟩ := ih
      rw [List.foldl_append]
      refine ⟨ordered_insert hordered, (avl_insert havl).1, ?_⟩
      exact (ranges_insert range _).trans (hranges.append_right [range])

/-- Ranges that come in the order of their ids stay in it. -/
theorem inOrder_insertions {data : List NNPNumberRangeItem}
    (h : data.Pairwise fun left right => left.id < right.id) :
    (data.foldl (fun tree range => tree.insert range) nil).InOrder := by
  induction data using List.reverseRecOn with
  | nil => trivial
  | append_singleton data range ih =>
      obtain ⟨hdata, -, hlast⟩ := List.pairwise_append.mp h
      obtain ⟨hordered, -, hranges⟩ := insertions_spec data
      rw [List.foldl_append]
      refine inOrder_insert hordered (ih hdata) fun other hmem => ?_
      exact hlast other (hranges.mem_iff.mp hmem) range (List.mem_singleton_self range)

end NNPNumberRangeTree

/-! ## Loading -/

namespace NNPNumberRangeAvl

open NNPNumberRangeTree

variable (build : Build)

/-- The next range is lost: it gets a node of its own, which is not the first one, while the
vector moves from under its parent. -/
def loses (avl : NNPNumberRangeAvl) (range : NNPNumberRangeItem) : Bool :=
  build.losesPush avl.size && !avl.avlRoot.isNil && avl.avlRoot.overNoKey range

/-- The ranges that are lost, or those that are not, in the order of loading. -/
def sift (isLost : Bool) : NNPNumberRangeAvl → List NNPNumberRangeItem → List NNPNumberRangeItem
  | _, [] => []
  | avl, range :: rest =>
      if avl.loses build range = isLost then
        range :: sift isLost (avl.parseItemByIndex build range) rest
      else
        sift isLost (avl.parseItemByIndex build range) rest

def lost (data : List NNPNumberRangeItem) : List NNPNumberRangeItem := sift build true {} data

def kept (data : List NNPNumberRangeItem) : List NNPNumberRangeItem := sift build false {} data

variable {build}

/-- **A step of loading** inserts the range, or leaves the tree as it is. -/
theorem avlRoot_parseItemByIndex {avl : NNPNumberRangeAvl} (h : avl.avlRoot.Avl)
    (range : NNPNumberRangeItem) :
    (avl.parseItemByIndex build range).avlRoot =
      if avl.loses build range = false then avl.avlRoot.insert range else avl.avlRoot := by
  show (avl.avlRoot.insertNode (build.losesPush avl.size) range).returned = _
  by_cases hloses : avl.loses build range = false
  · rw [if_pos hloses]
    cases hroot : avl.avlRoot with
    | nil => rfl
    | node key height borders left right =>
        -- the tree is not empty, so either the vector stays or the range is over a key
        apply returned_insertNode
        rw [loses, hroot, isNil] at hloses
        rw [Bool.and_comm]
        simpa using hloses
  · rw [if_neg hloses]
    rw [Bool.not_eq_false, loses, Bool.and_eq_true, Bool.and_eq_true, Bool.not_eq_true'] at hloses
    obtain ⟨⟨hmoves, hnil⟩, hpush⟩ := hloses
    rw [hmoves]
    exact (inPlace_insertNode h hpush).2 hnil

/-- **Loading** builds the tree of the ranges that are kept. -/
theorem avlRoot_foldl {avl : NNPNumberRangeAvl} (h : avl.avlRoot.Avl)
    (data : List NNPNumberRangeItem) :
    (data.foldl (parseItemByIndex build) avl).avlRoot =
      (sift build false avl data).foldl (fun tree range => tree.insert range) avl.avlRoot := by
  induction data generalizing avl with
  | nil => rfl
  | cons range rest ih =>
      have hstep := @avlRoot_parseItemByIndex build avl h range
      rw [List.foldl_cons, sift]
      by_cases hloses : avl.loses build range = false
      · rw [if_pos hloses] at hstep
        rw [if_pos hloses, List.foldl_cons, ← hstep]
        apply ih
        rw [hstep]
        exact (avl_insert h).1
      · rw [if_neg hloses] at hstep
        rw [if_neg hloses, ← hstep]
        apply ih
        rw [hstep]
        exact h

theorem avlRoot_load (build : Build) (data : List NNPNumberRangeItem) :
    (load build data).avlRoot =
      (kept build data).foldl (fun tree range => tree.insert range) .nil :=
  @avlRoot_foldl build {} (show NNPNumberRangeTree.nil.Avl from trivial) data

theorem load_spec (build : Build) (data : List NNPNumberRangeItem) :
    (load build data).avlRoot.Ordered ∧ (load build data).avlRoot.Avl ∧
      (load build data).avlRoot.ranges.Perm (kept build data) := by
  rw [avlRoot_load]
  exact insertions_spec (kept build data)

theorem sift_sublist (isLost : Bool) (avl : NNPNumberRangeAvl) (data : List NNPNumberRangeItem) :
    (sift build isLost avl data).Sublist data := by
  induction data generalizing avl with
  | nil => exact .slnil
  | cons range rest ih =>
      rw [sift]
      split
      · exact (ih _).cons_cons range
      · exact (ih _).cons range

theorem kept_sublist (build : Build) (data : List NNPNumberRangeItem) :
    (kept build data).Sublist data := sift_sublist false {} data

/-- Every range is kept or lost. -/
theorem sift_perm (avl : NNPNumberRangeAvl) (data : List NNPNumberRangeItem) :
    (sift build false avl data ++ sift build true avl data).Perm data := by
  induction data generalizing avl with
  | nil => exact .refl _
  | cons range rest ih =>
      cases hloses : avl.loses build range with
      | false =>
          rw [sift, sift, if_pos hloses, if_neg (by simp [hloses]), List.cons_append]
          exact (ih _).cons range
      | true =>
          rw [sift, sift, if_neg (by simp [hloses]), if_pos hloses]
          exact List.perm_middle.trans ((ih _).cons range)

theorem kept_lost_perm (build : Build) (data : List NNPNumberRangeItem) :
    (kept build data ++ lost build data).Perm data := sift_perm {} data

theorem sift_argumentFirst (h : build.order = .argumentFirst) (avl : NNPNumberRangeAvl)
    (data : List NNPNumberRangeItem) : sift build true avl data = [] := by
  induction data generalizing avl with
  | nil => rfl
  | cons range rest ih =>
      have hloses : avl.loses build range = false := by
        rw [loses, Build.losesPush_argumentFirst h, Bool.false_and, Bool.false_and]
      rw [sift, if_neg (by simp [hloses]), ih]

/-- A compiler that evaluates the argument first loses nothing. -/
theorem lost_argumentFirst (h : build.order = .argumentFirst) (data : List NNPNumberRangeItem) :
    lost build data = [] := sift_argumentFirst h {} data

end NNPNumberRangeAvl

/-! ## The lookup of a number -/

namespace NNPNumberRangeList

open NNPNumberRangeTree

variable (list : NNPNumberRangeList) (build : Build)

/-- The ranges that `load` loses, and those it keeps. -/
def lost : List NNPNumberRangeItem := NNPNumberRangeAvl.lost build list.data

def kept : List NNPNumberRangeItem := NNPNumberRangeAvl.kept build list.data

/-- The search from the root visits every loaded range over the number once and counts
them, and the range of the number is a shortest one over it, if there is one. -/
structure LookupExact (num : Nat) : Prop where
  visited : ((list.tree build).visited num).Perm (list.data.filter (·.contains num))
  intersects :
    (list.tree build).intersects num = (list.data.filter (·.contains num)).length
  search : (list.tree build).searchNumberRanges num none =
    ((list.tree build).visited num).foldl NNPNumberRangeTree.shorter none
  eq_none_iff : list.getNNPNumberRange build num = none ↔
    ∀ range ∈ list.data, range.contains num = false
  shortest : ∀ best, list.getNNPNumberRange build num = some best →
    best ∈ list.data ∧ best.contains num = true ∧
      ∀ range ∈ list.data, range.contains num = true → best.getLength ≤ range.getLength

variable {list build} {num : Nat}

theorem visited_tree_perm :
    ((list.tree build).visited num).Perm ((list.kept build).filter (·.contains num)) := by
  obtain ⟨hordered, -, hranges⟩ := NNPNumberRangeAvl.load_spec build list.data
  exact (visited_perm hordered num).trans (hranges.filter _)

theorem mem_visited_tree_iff {range : NNPNumberRangeItem} :
    range ∈ (list.tree build).visited num ↔
      range ∈ list.kept build ∧ range.contains num = true :=
  visited_tree_perm.mem_iff.trans List.mem_filter

/-- A number without a range is over none that is kept. -/
theorem getNNPNumberRange_eq_none_iff (hnum : 0 < num) :
    list.getNNPNumberRange build num = none ↔
      ∀ range ∈ list.kept build, range.contains num = false := by
  have hshortest := isShortest_foldl ((list.tree build).visited num)
  rw [← searchNumberRanges_eq] at hshortest
  unfold getNNPNumberRange
  rw [if_pos hnum]
  cases hfound : (list.tree build).searchNumberRanges num none with
  | none =>
      rw [hfound] at hshortest
      refine iff_of_true rfl fun range hkept => Bool.eq_false_iff.mpr fun hover => ?_
      have hin := mem_visited_tree_iff.mpr ⟨hkept, hover⟩
      rw [show (list.tree build).visited num = [] from hshortest] at hin
      exact absurd hin (by simp)
  | some best =>
      rw [hfound] at hshortest
      obtain ⟨hkept, hover⟩ := mem_visited_tree_iff.mp hshortest.1
      refine iff_of_false ?_ fun hnone => Bool.false_ne_true ((hnone best hkept).symm.trans hover)
      rw [Option.filter_some, if_pos hover]
      exact Option.some_ne_none best

/-- The range of a number is a shortest one of those that are kept. -/
theorem getNNPNumberRange_eq_some {best : NNPNumberRangeItem}
    (h : list.getNNPNumberRange build num = some best) :
    best ∈ list.kept build ∧ best.contains num = true ∧
      ∀ range ∈ list.kept build, range.contains num = true →
        best.getLength ≤ range.getLength := by
  have hshortest := isShortest_foldl ((list.tree build).visited num)
  rw [← searchNumberRanges_eq] at hshortest
  unfold getNNPNumberRange at h
  split at h
  case isTrue =>
    rw [Option.filter_eq_some_iff] at h
    rw [h.1] at hshortest
    obtain ⟨hkept, hover⟩ := mem_visited_tree_iff.mp hshortest.1
    exact ⟨hkept, hover, fun range hin hcontains =>
      hshortest.2 range (mem_visited_tree_iff.mpr ⟨hin, hcontains⟩)⟩
  case isFalse => exact absurd h (by simp)

/-- Of the ranges with the same borders it is the last one. -/
theorem id_le_of_sameBorders {best range : NNPNumberRangeItem}
    (h : list.getNNPNumberRange build num = some best) (hkept : range ∈ list.kept build)
    (hfrom : range.fullNumberFrom = best.fullNumberFrom)
    (hto : range.fullNumberTo = best.fullNumberTo) : range.id ≤ best.id := by
  have hover := (getNNPNumberRange_eq_some h).2.1
  unfold getNNPNumberRange at h
  split at h
  case isTrue =>
    rw [Option.filter_eq_some_iff, searchNumberRanges_eq] at h
    obtain ⟨before, after, hsplit, hafter⟩ := foldl_shorter_eq_some h.1
    have hpairwise : ((list.tree build).visited num).Pairwise Follows := by
      obtain ⟨hordered, -⟩ := NNPNumberRangeAvl.load_spec build list.data
      refine visited_pairwise hordered ?_ num
      rw [NNPNumberRangeAvl.avlRoot_load]
      exact inOrder_insertions
        (list.sorted.sublist (NNPNumberRangeAvl.kept_sublist build list.data))
    have hvisited : range ∈ (list.tree build).visited num := by
      rw [mem_visited_tree_iff, NNPNumberRangeItem.contains, hfrom, hto]
      exact ⟨hkept, hover⟩
    rw [hsplit] at hpairwise hvisited
    rcases List.mem_append.mp hvisited with hbefore | hrest
    · exact ((List.pairwise_append.mp hpairwise).2.2 range hbefore best List.mem_cons_self
        hfrom hto).le
    · rcases List.mem_cons.mp hrest with rfl | hin
      · exact le_rfl
      · -- a later one would be longer
        have hlonger := hafter range hin
        rw [NNPNumberRangeItem.getLength, NNPNumberRangeItem.getLength, hfrom, hto] at hlonger
        omega
  case isFalse => exact absurd h (by simp)

theorem mem_data_iff {range : NNPNumberRangeItem} :
    range ∈ list.data ↔ range ∈ list.kept build ∨ range ∈ list.lost build :=
  (NNPNumberRangeAvl.kept_lost_perm build list.data).mem_iff.symm.trans List.mem_append

/-- If no range over a number is lost, those that are kept are those that are loaded. -/
theorem filter_kept_perm (h : ∀ range ∈ list.lost build, range.contains num = false) :
    ((list.kept build).filter (·.contains num)).Perm (list.data.filter (·.contains num)) := by
  have hperm := (NNPNumberRangeAvl.kept_lost_perm build list.data).filter (·.contains num)
  rw [List.filter_append] at hperm
  have hnone : (list.lost build).filter (·.contains num) = [] :=
    List.filter_eq_nil_iff.mpr fun range hmem => by simp [h range hmem]
  rw [show NNPNumberRangeAvl.lost build list.data = list.lost build from rfl, hnone,
    List.append_nil] at hperm
  exact hperm

/-- The numbers 100 to 199. -/
def hundred : NNPNumberRangeItem :=
  { id := 1, fullNumberFrom := 100, fullNumberTo := 199, le := by decide }

/-- Ten numbers of the hundred. -/
def fifties : NNPNumberRangeItem :=
  { id := 2, fullNumberFrom := 150, fullNumberTo := 159, le := by decide }

/-- Another hundred. -/
def threeHundreds : NNPNumberRangeItem :=
  { id := 3, fullNumberFrom := 300, fullNumberTo := 399, le := by decide }

/-- Two equal ranges and, after two ranges beside them, one inside them. -/
def nestedRanges : NNPNumberRangeList where
  data :=
    [hundred,
     { hundred with id := 2 },
     threeHundreds,
     { id := 4, fullNumberFrom := 400, fullNumberTo := 499, le := by decide },
     { fifties with id := 5 }]
  sorted := by decide
  sameLength := by decide

/-- Two ranges beside each other. -/
def twoRanges : NNPNumberRangeList where
  data := [hundred, threeHundreds]
  sorted := by decide
  sameLength := by decide

/-- The ranges of an array under their indexes, by which the nodes keep them. -/
def indexed (data : List NNPNumberRangeItem) : List NNPNumberRangeItem :=
  data.mapIdx fun index range => { range with id := index }

theorem filter_indexed (data : List NNPNumberRangeItem) {index : Nat} (h : index < data.length) :
    (indexed data).filter (fun range => range.id == (index : Int)) =
      [{ data[index] with id := index }] := by
  induction data using List.reverseRecOn with
  | nil => exact absurd h (by simp)
  | append_singleton data range ih =>
      have hsplit : indexed (data ++ [range]) =
          indexed data ++ [{ range with id := data.length }] := by
        simp [indexed, List.mapIdx_append]
      rw [hsplit, List.filter_append]
      rw [List.length_append, List.length_singleton] at h
      rcases Nat.lt_succ_iff_lt_or_eq.mp h with hlt | rfl
      · have hne : data.length ≠ index := by omega
        rw [ih hlt, List.getElem_append_left hlt]
        simp [hne]
      · have hnone : (indexed data).filter (fun range => range.id == (data.length : Int)) = [] := by
          rw [List.filter_eq_nil_iff]
          intro range hmem
          obtain ⟨i, hi, rfl⟩ := List.mem_mapIdx.mp hmem
          have hne : i ≠ data.length := by omega
          simp [hne]
        rw [hnone]
        simp

/-- The tree after the ranges of an array are inserted in their order. -/
def avlTree (build : Build) (data : List NNPNumberRangeItem) : NNPNumberRangeTree :=
  (NNPNumberRangeAvl.load build (indexed data)).avlRoot

/-- Keys are in strict search order, stored heights are the depths and every balance factor is
from -1 to 1.  Every index is kept by one node, whose key its range is over and above which
there is no key that it is over. -/
structure KeepsRanges (build : Build) (data : List NNPNumberRangeItem) : Prop where
  isSearchTree : (avlTree build data).IsSearchTree
  avl : (avlTree build data).Avl
  place : ∀ index : Fin data.length, ∃ place : Place,
    ((avlTree build data).places []).filter (fun place => place.range.id == (index.val : Int)) =
      [place] ∧
    place.range = { data[index] with id := index.val } ∧
    place.range.contains place.key = true ∧
    ∀ key ∈ place.above, place.range.contains key = false

/-- **The tree of ranges is an AVL tree** after any sequence of insertions.  It keeps every
index at one node if and only if none is lost to a push that moves the vector.  The sums of
borders are exact in the source's width for numbers below `2 ^ 62`. -/
theorem avl_of_insertions_iff (build : Build) (data : List NNPNumberRangeItem) :
    (avlTree build data).IsSearchTree ∧ (avlTree build data).Avl ∧
      (KeepsRanges build data ↔ NNPNumberRangeAvl.lost build (indexed data) = []) := by
  obtain ⟨hordered, havl, hranges⟩ := NNPNumberRangeAvl.load_spec build (indexed data)
  refine ⟨isSearchTree_of_ordered hordered, havl, ?_, ?_⟩
  · -- the entries of the tree are as many as the indexes, so that none is lost
    intro hkeeps
    have hall := NNPNumberRangeAvl.kept_lost_perm build (indexed data)
    rw [List.eq_nil_iff_forall_not_mem]
    intro range hlost
    obtain ⟨index, hindex, hrange⟩ := List.mem_mapIdx.mp
      (hall.mem_iff.mp (List.mem_append_right _ hlost))
    obtain ⟨place, hplace, -⟩ := hkeeps.place ⟨index, hindex⟩
    have hone := congrArg List.length (filter_indexed data hindex)
    rw [← (hall.filter fun range => range.id == (index : Int)).length_eq, List.filter_append,
      List.length_append] at hone
    have hkept := (hranges.filter fun range => range.id == (index : Int)).length_eq
    rw [← map_range_places [], List.filter_map, List.length_map] at hkept
    have hplaced : (((avlTree build data).places []).filter
        fun place => place.range.id == (index : Int)).length = 1 := congrArg List.length hplace
    have hcount : 0 < ((NNPNumberRangeAvl.lost build (indexed data)).filter
        fun range => range.id == (index : Int)).length := by
      apply List.length_pos_of_mem
      exact List.mem_filter.mpr ⟨hlost, by simp [← hrange]⟩
    change (((avlTree build data).places []).filter
      fun place => place.range.id == (index : Int)).length = _ at hkept
    simp only [List.length_singleton] at hone
    omega
  · intro hlost
    refine ⟨isSearchTree_of_ordered hordered, havl, fun index => ?_⟩
    have hall := NNPNumberRangeAvl.kept_lost_perm build (indexed data)
    rw [hlost, List.append_nil] at hall
    have hperm := (hranges.trans hall).filter fun range => range.id == (index.val : Int)
    rw [filter_indexed data index.isLt, ← map_range_places [], List.filter_map] at hperm
    have hmap := List.perm_singleton.mp hperm
    obtain ⟨place, hplaces, hrange⟩ := List.map_eq_singleton_iff.mp hmap
    have hmem : place ∈ (avlTree build data).places [] := by
      apply List.mem_of_mem_filter
      rw [avlTree, hplaces]
      exact List.mem_singleton_self place
    obtain ⟨hover, habove⟩ := places_spec hordered hmem
    refine ⟨place, hplaces, hrange, hover, fun key hkey => ?_⟩
    exact (habove key hkey).resolve_left (by simp)

/-- The second of two ranges is at no node. -/
theorem avl_loses_threeHundreds :
    ((avlTree .doubling [hundred, threeHundreds]).places []).map (·.range.id) = [0] ∧
      ¬ KeepsRanges .doubling [hundred, threeHundreds] := by
  have hplaces :
      ((avlTree .doubling [hundred, threeHundreds]).places []).map (·.range.id) = [0] := by
    decide +kernel
  refine ⟨hplaces, fun hkeeps => ?_⟩
  obtain ⟨place, hplace, hrange, -⟩ := hkeeps.place 1
  have hmem : place ∈ (avlTree .doubling [hundred, threeHundreds]).places [] := by
    apply List.mem_of_mem_filter
    rw [hplace]
    exact List.mem_singleton_self place
  have hid := List.mem_map_of_mem (f := fun place : Place => place.range.id) hmem
  rw [hplaces, hrange] at hid
  exact absurd hid (by decide)

end NNPNumberRangeList
end VoipBill
