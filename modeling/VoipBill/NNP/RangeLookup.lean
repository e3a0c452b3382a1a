import VoipBill.Model.NNPNumberRangeList

/-!
# Looking up the range of a number

A range is kept at a node whose key it is over.  So the ranges below the left child of a
node all end before its key, those below the right child all begin after it, and a search
may turn left or right without missing a range.

* `mirror`: exchanges left and right, and with them the two rotations;
* `Ordered`: this invariant; `ordered_rotateRight` and `ordered_rotateLeft` move exactly
  the ranges that are over the key that goes up;
* `ranges`: the contents of a tree, which rotations permute;
* `visited`: the ranges a search looks at as containing the number, which are those of the
  tree (`visited_perm`);
* `IsShortest`: the one returned is a shortest of them;
* `InOrder`: ranges with the same borders stay at one node, in the order of loading, so that
  the last one of them is returned.
-/

namespace VoipBill

namespace NNPNumberRangeItem

theorem contains_iff {range : NNPNumberRangeItem} {num : Nat} :
    range.contains num = true ↔ range.fullNumberFrom ≤ num ∧ num ≤ range.fullNumberTo := by
  simp [contains]

theorem contains_getMidKey (range : NNPNumberRangeItem) :
    range.contains range.getMidKey = true := by
  have hle := range.le
  rw [contains_iff, getMidKey]
  omega

end NNPNumberRangeItem

namespace NNPNumberRangeTree

open NNPNumberRangeItem

/-! ## Contents and order of a tree -/

/-- The ranges of a tree. -/
def ranges : NNPNumberRangeTree → List NNPNumberRangeItem
  | nil => []
  | node _ _ borders left right => borders ++ (left.ranges ++ right.ranges)

/-- Every key of the tree and both ends of every range satisfy `P`. -/
def All (P : Nat → Prop) : NNPNumberRangeTree → Prop
  | nil => True
  | node key _ borders left right =>
      P key ∧ (∀ range ∈ borders, P range.fullNumberFrom ∧ P range.fullNumberTo) ∧
        left.All P ∧ right.All P

/-- Every range is at a key it is over, between the keys above it. -/
def Ordered : NNPNumberRangeTree → Prop
  | nil => True
  | node key _ borders left right =>
      (∀ range ∈ borders, range.contains key = true) ∧ left.All (· < key) ∧
        right.All (key < ·) ∧ left.Ordered ∧ right.Ordered

/-- Of two ranges with the same borders, the first one was loaded before the second. -/
def Follows (first second : NNPNumberRangeItem) : Prop :=
  first.fullNumberFrom = second.fullNumberFrom → first.fullNumberTo = second.fullNumberTo →
    first.id < second.id

/-- The ranges of every node are in the order of loading as far as their borders agree. -/
def InOrder : NNPNumberRangeTree → Prop
  | nil => True
  | node _ _ borders left right => borders.Pairwise Follows ∧ left.InOrder ∧ right.InOrder

theorem All.imp {P Q : Nat → Prop} (hPQ : ∀ n, P n → Q n) {tree : NNPNumberRangeTree}
    (h : tree.All P) : tree.All Q := by
  induction tree with
  | nil => trivial
  | node key height borders left right ihleft ihright =>
      obtain ⟨hkey, hborders, hleft, hright⟩ := h
      exact ⟨hPQ key hkey, fun range hmem => ⟨hPQ _ (hborders range hmem).1,
        hPQ _ (hborders range hmem).2⟩, ihleft hleft, ihright hright⟩

theorem All.of_mem {P : Nat → Prop} {tree : NNPNumberRangeTree} (h : tree.All P)
    {range : NNPNumberRangeItem} (hmem : range ∈ tree.ranges) :
    P range.fullNumberFrom ∧ P range.fullNumberTo := by
  induction tree with
  | nil => exact absurd hmem (by simp [ranges])
  | node key height borders left right ihleft ihright =>
      obtain ⟨hkey, hborders, hleft, hright⟩ := h
      simp only [ranges, List.mem_append] at hmem
      rcases hmem with hmem | hmem | hmem
      · exact hborders range hmem
      · exact ihleft hleft hmem
      · exact ihright hright hmem

/-! ## Heights -/

@[simp] theorem ranges_fixHeight (tree : NNPNumberRangeTree) :
    tree.fixHeight.ranges = tree.ranges := by
  cases tree <;> rfl

@[simp] theorem all_fixHeight {P : Nat → Prop} (tree : NNPNumberRangeTree) :
    tree.fixHeight.All P ↔ tree.All P := by
  cases tree <;> exact Iff.rfl

@[simp] theorem ordered_fixHeight (tree : NNPNumberRangeTree) :
    tree.fixHeight.Ordered ↔ tree.Ordered := by
  cases tree <;> exact Iff.rfl

@[simp] theorem inOrder_fixHeight (tree : NNPNumberRangeTree) :
    tree.fixHeight.InOrder ↔ tree.InOrder := by
  cases tree <;> exact Iff.rfl

/-! ## Left and right -/

/-- The tree with left and right exchanged. -/
def mirror : NNPNumberRangeTree → NNPNumberRangeTree
  | nil => nil
  | node key height borders left right => node key height borders right.mirror left.mirror

@[simp] theorem mirror_mirror (tree : NNPNumberRangeTree) : tree.mirror.mirror = tree := by
  induction tree with
  | nil => rfl
  | node key height borders left right ihleft ihright => rw [mirror, mirror, ihleft, ihright]

@[simp] theorem getHeight_mirror (tree : NNPNumberRangeTree) :
    tree.mirror.getHeight = tree.getHeight := by
  cases tree <;> rfl

theorem mirror_fixHeight (tree : NNPNumberRangeTree) :
    tree.fixHeight.mirror = tree.mirror.fixHeight := by
  cases tree with
  | nil => rfl
  | node key height borders left right =>
      simp only [fixHeight, mirror, getHeight_mirror, max_comm]

theorem mirror_rotateRight (tree : NNPNumberRangeTree) :
    tree.rotateRight.mirror = tree.mirror.rotateLeft := by
  match tree with
  | nil => rfl
  | node _ _ _ nil _ => rfl
  | node key height borders (node leftKey leftHeight leftBorders left middle) right =>
      simp only [rotateRight, rotateLeft, mirror, mirror_fixHeight]

/-- A left rotation is a right rotation in the mirror. -/
theorem rotateLeft_eq (tree : NNPNumberRangeTree) :
    tree.rotateLeft = tree.mirror.rotateRight.mirror := by
  rw [mirror_rotateRight, mirror_mirror]

theorem ranges_mirror (tree : NNPNumberRangeTree) : tree.mirror.ranges.Perm tree.ranges := by
  induction tree with
  | nil => exact .refl _
  | node key height borders left right ihleft ihright =>
      exact ((ihright.append ihleft).trans List.perm_append_comm).append_left borders

theorem all_mirror {P : Nat → Prop} (tree : NNPNumberRangeTree) :
    tree.mirror.All P ↔ tree.All P := by
  induction tree with
  | nil => exact Iff.rfl
  | node key height borders left right ihleft ihright =>
      rw [mirror, All, All, ihleft, ihright, and_comm (a := right.All P)]

/-! ## Rotations -/

section Rotations

variable {P : Nat → Prop}

theorem count_filter_add [DecidableEq NNPNumberRangeItem] (borders : List NNPNumberRangeItem)
    (key : Nat) (range : NNPNumberRangeItem) :
    (borders.filter (·.contains key)).count range +
      (borders.filter (!·.contains key)).count range = borders.count range := by
  rw [← List.count_append]
  exact (List.filter_append_perm _ borders).count_eq range

theorem ranges_rotateRight (tree : NNPNumberRangeTree) :
    (rotateRight tree).ranges.Perm tree.ranges := by
  classical
  match tree with
  | nil => exact .refl _
  | node _ _ _ nil _ => exact .refl _
  | node key height borders (node leftKey leftHeight leftBorders left middle) right =>
      refine List.perm_iff_count.mpr fun range => ?_
      have hmoved := count_filter_add borders leftKey range
      simp only [rotateRight, ranges_fixHeight, ranges, List.count_append]
      omega

theorem ranges_rotateLeft (tree : NNPNumberRangeTree) :
    (rotateLeft tree).ranges.Perm tree.ranges := by
  rw [rotateLeft_eq]
  exact (ranges_mirror _).trans ((ranges_rotateRight _).trans (ranges_mirror tree))

theorem all_rotateRight {tree : NNPNumberRangeTree} (h : tree.All P) :
    (rotateRight tree).All P := by
  match tree, h with
  | nil, h => exact h
  | node _ _ _ nil _, h => exact h
  | node key height borders (node leftKey leftHeight leftBorders left middle) right, h =>
      obtain ⟨hkey, hborders, ⟨hleftKey, hleftBorders, hleft, hmiddle⟩, hright⟩ := h
      simp only [rotateRight, all_fixHeight, All]
      refine ⟨hleftKey, fun range hmem => ?_, hleft, hkey, fun range hmem => ?_, hmiddle, hright⟩
      · rcases List.mem_append.mp hmem with hmem | hmem
        · exact hleftBorders range hmem
        · exact hborders range (List.mem_filter.mp hmem).1
      · exact hborders range (List.mem_filter.mp hmem).1

theorem all_rotateLeft {tree : NNPNumberRangeTree} (h : tree.All P) :
    (rotateLeft tree).All P := by
  rw [rotateLeft_eq, all_mirror]
  exact all_rotateRight ((all_mirror tree).mpr h)

/-- A range over the key that stays below it when a smaller key goes up lies above that
key. -/
theorem ordered_rotateRight {tree : NNPNumberRangeTree} (h : tree.Ordered) :
    (rotateRight tree).Ordered := by
  match tree, h with
  | nil, h => exact h
  | node _ _ _ nil _, h => exact h
  | node key height borders (node leftKey leftHeight leftBorders left middle) right, h =>
      obtain ⟨hborders, ⟨hlt, -, hleftBelow, hmiddleBelow⟩, hrightAbove,
        ⟨hleftBorders, hleft, hmiddle, holeft, homiddle⟩, horight⟩ := h
      simp only [rotateRight, ordered_fixHeight, all_fixHeight, Ordered, All]
      refine ⟨fun range hmem => ?_, hleft, ⟨hlt, fun range hmem => ?_, hmiddle,
        hrightAbove.imp fun n hn => hlt.trans hn⟩, holeft, fun range hmem => ?_, hmiddleBelow,
        hrightAbove, homiddle, horight⟩
      · rcases List.mem_append.mp hmem with hmem | hmem
        · exact hleftBorders range hmem
        · exact (List.mem_filter.mp hmem).2
      · obtain ⟨hin, hout⟩ := List.mem_filter.mp hmem
        have hover := contains_iff.mp (hborders range hin)
        rw [Bool.not_eq_true', Bool.eq_false_iff, Ne, contains_iff] at hout
        omega
      · exact hborders range (List.mem_filter.mp hmem).1

theorem ordered_rotateLeft {tree : NNPNumberRangeTree} (h : tree.Ordered) :
    (rotateLeft tree).Ordered := by
  match tree, h with
  | nil, h => exact h
  | node _ _ _ _ nil, h => exact h
  | node key height borders left (node rightKey rightHeight rightBorders middle right), h =>
      obtain ⟨hborders, hleftBelow, ⟨hlt, -, hmiddleAbove, hrightAbove⟩, holeft, hrightBorders,
        hmiddle, hright, homiddle, horight⟩ := h
      simp only [rotateLeft, ordered_fixHeight, all_fixHeight, Ordered, All]
      refine ⟨fun range hmem => ?_, ⟨hlt, fun range hmem => ?_,
        hleftBelow.imp fun n hn => hn.trans hlt, hmiddle⟩, hright, ⟨fun range hmem => ?_,
        hleftBelow, hmiddleAbove, holeft, homiddle⟩, horight⟩
      · rcases List.mem_append.mp hmem with hmem | hmem
        · exact hrightBorders range hmem
        · exact (List.mem_filter.mp hmem).2
      · obtain ⟨hin, hout⟩ := List.mem_filter.mp hmem
        have hover := contains_iff.mp (hborders range hin)
        rw [Bool.not_eq_true', Bool.eq_false_iff, Ne, contains_iff] at hout
        omega
      · exact hborders range (List.mem_filter.mp hmem).1

/-- Ranges that join those of another key have other borders. -/
theorem follows_append {before after : List NNPNumberRangeItem} {key : Nat}
    (hbefore : before.Pairwise Follows) (hafter : after.Pairwise Follows)
    (hover : ∀ range ∈ after, range.contains key = true)
    (hnot : ∀ range ∈ before, range.contains key = false) :
    (before ++ after).Pairwise Follows := by
  refine List.pairwise_append.mpr ⟨hbefore, hafter, fun first hfirst second hsecond => ?_⟩
  intro hfrom hto
  have hin := hover second hsecond
  rw [contains, ← hfrom, ← hto] at hin
  exact absurd hin (Bool.eq_false_iff.mp (hnot first hfirst))

theorem inOrder_rotateRight {tree : NNPNumberRangeTree} (h : tree.Ordered)
    (hin : tree.InOrder) : (rotateRight tree).InOrder := by
  match tree, h, hin with
  | nil, _, hin => exact hin
  | node _ _ _ nil _, _, hin => exact hin
  | node key height borders (node leftKey leftHeight leftBorders left middle) right, h, hin =>
      obtain ⟨hborders, ⟨-, hbelow, -, -⟩, -⟩ := h
      obtain ⟨hown, ⟨hleftOwn, hleft, hmiddle⟩, hright⟩ := hin
      simp only [rotateRight, inOrder_fixHeight, InOrder]
      refine ⟨@follows_append _ _ key hleftOwn (hown.filter _) (fun range hmem => ?_)
        (fun range hmem => ?_), hleft, hown.filter _, hmiddle, hright⟩
      · exact hborders range (List.mem_filter.mp hmem).1
      · have hends := hbelow range hmem
        rw [Bool.eq_false_iff, Ne, contains_iff]
        omega

theorem inOrder_rotateLeft {tree : NNPNumberRangeTree} (h : tree.Ordered)
    (hin : tree.InOrder) : (rotateLeft tree).InOrder := by
  match tree, h, hin with
  | nil, _, hin => exact hin
  | node _ _ _ _ nil, _, hin => exact hin
  | node key height borders left (node rightKey rightHeight rightBorders middle right), h, hin =>
      obtain ⟨hborders, -, ⟨-, hbeyond, -, -⟩, -⟩ := h
      obtain ⟨hown, hleft, hrightOwn, hmiddle, hright⟩ := hin
      simp only [rotateLeft, inOrder_fixHeight, InOrder]
      refine ⟨@follows_append _ _ key hrightOwn (hown.filter _) (fun range hmem => ?_)
        (fun range hmem => ?_), ⟨hown.filter _, hleft, hmiddle⟩, hright⟩
      · exact hborders range (List.mem_filter.mp hmem).1
      · have hends := hbeyond range hmem
        rw [Bool.eq_false_iff, Ne, contains_iff]
        omega

end Rotations

/-! ## Balancing and insertion -/

/-- A tree of the same ranges in a possibly different shape. -/
structure Rearranged (tree tree' : NNPNumberRangeTree) : Prop where
  ranges : tree'.ranges.Perm tree.ranges
  all : ∀ {P : Nat → Prop}, tree.All P → tree'.All P
  ordered : tree.Ordered → tree'.Ordered
  inOrder : tree.Ordered → tree.InOrder → tree'.InOrder

namespace Rearranged

theorem refl (tree : NNPNumberRangeTree) : Rearranged tree tree :=
  ⟨.refl _, id, id, fun _ => id⟩

theorem trans {tree tree' tree'' : NNPNumberRangeTree} (h : Rearranged tree tree')
    (h' : Rearranged tree' tree'') : Rearranged tree tree'' :=
  ⟨h'.ranges.trans h.ranges, fun hall => h'.all (h.all hall),
    fun hordered => h'.ordered (h.ordered hordered),
    fun hordered hin => h'.inOrder (h.ordered hordered) (h.inOrder hordered hin)⟩

theorem fixHeight (tree : NNPNumberRangeTree) : Rearranged tree tree.fixHeight :=
  ⟨.of_eq (ranges_fixHeight tree), (all_fixHeight tree).mpr, (ordered_fixHeight tree).mpr,
    fun _ => (inOrder_fixHeight tree).mpr⟩

theorem rotateRight (tree : NNPNumberRangeTree) : Rearranged tree tree.rotateRight :=
  ⟨ranges_rotateRight tree, all_rotateRight, ordered_rotateRight, inOrder_rotateRight⟩

theorem rotateLeft (tree : NNPNumberRangeTree) : Rearranged tree tree.rotateLeft :=
  ⟨ranges_rotateLeft tree, all_rotateLeft, ordered_rotateLeft, inOrder_rotateLeft⟩

variable {key : Nat} {height : Int} {borders : List NNPNumberRangeItem}
  {left left' right right' : NNPNumberRangeTree}

theorem node (hleft : Rearranged left left') (hright : Rearranged right right') :
    Rearranged (node key height borders left right) (node key height borders left' right') where
  ranges := (hleft.ranges.append hright.ranges).append_left borders
  all h := ⟨h.1, h.2.1, hleft.all h.2.2.1, hright.all h.2.2.2⟩
  ordered h := ⟨h.1, hleft.all h.2.1, hright.all h.2.2.1, hleft.ordered h.2.2.2.1,
    hright.ordered h.2.2.2.2⟩
  inOrder h hin := ⟨hin.1, hleft.inOrder h.2.2.2.1 hin.2.1, hright.inOrder h.2.2.2.2 hin.2.2⟩

end Rearranged

theorem rearranged_balance (tree : NNPNumberRangeTree) : Rearranged tree (balance tree) := by
  refine (Rearranged.fixHeight tree).trans ?_
  unfold balance
  cases tree.fixHeight with
  | nil => exact .refl nil
  | node key height borders left right =>
      dsimp only
      split
      case isTrue =>
        refine Rearranged.trans (.node (.refl left) ?_) (.rotateLeft _)
        split
        · exact .rotateRight right
        · exact .refl right
      case isFalse =>
        split
        case isTrue =>
          refine Rearranged.trans (.node ?_ (.refl right)) (.rotateRight _)
          split
          · exact .rotateLeft left
          · exact .refl left
        case isFalse => exact .refl _

variable {range : NNPNumberRangeItem}

/-- Insertion with every link stored. -/
def insert (range : NNPNumberRangeItem) : NNPNumberRangeTree → NNPNumberRangeTree
  | nil => .node range.getMidKey 1 [range] nil nil
  | .node key height borders left right =>
      if range.contains key then
        balance (.node key height (borders ++ [range]) left right)
      else if range.getMidKey < key then
        balance (.node key height borders (insert range left) right)
      else
        balance (.node key height borders left (insert range right))

theorem ranges_insert (range : NNPNumberRangeItem) (tree : NNPNumberRangeTree) :
    (insert range tree).ranges.Perm (tree.ranges ++ [range]) := by
  classical
  induction tree with
  | nil => exact .refl _
  | node key height borders left right ihleft ihright =>
      rw [insert]
      split
      · refine (rearranged_balance _).ranges.trans (List.perm_iff_count.mpr fun other => ?_)
        simp only [ranges, List.count_append]
        omega
      · split
        · refine (rearranged_balance _).ranges.trans (List.perm_iff_count.mpr fun other => ?_)
          have hcount := ihleft.count_eq other
          simp only [ranges, List.count_append] at hcount ⊢
          omega
        · refine (rearranged_balance _).ranges.trans (List.perm_iff_count.mpr fun other => ?_)
          have hcount := ihright.count_eq other
          simp only [ranges, List.count_append] at hcount ⊢
          omega

theorem all_insert {P : Nat → Prop} {tree : NNPNumberRangeTree} (h : tree.All P)
    (hmid : P range.getMidKey) (hends : P range.fullNumberFrom ∧ P range.fullNumberTo) :
    (insert range tree).All P := by
  induction tree with
  | nil =>
      refine ⟨hmid, fun other hmem => ?_, trivial, trivial⟩
      rw [List.mem_singleton.mp hmem]
      exact hends
  | node key height borders left right ihleft ihright =>
      obtain ⟨hkey, hborders, hleft, hright⟩ := h
      rw [insert]
      split
      · refine (rearranged_balance _).all ⟨hkey, fun other hmem => ?_, hleft, hright⟩
        rcases List.mem_append.mp hmem with hmem | hmem
        · exact hborders other hmem
        · rw [List.mem_singleton.mp hmem]
          exact hends
      · split
        · exact (rearranged_balance _).all ⟨hkey, hborders, ihleft hleft, hright⟩
        · exact (rearranged_balance _).all ⟨hkey, hborders, hleft, ihright hright⟩

section Place

variable {key : Nat} {height : Int} {borders : List NNPNumberRangeItem}
  {left right : NNPNumberRangeTree}

theorem ordered_over (h : (node key height borders left right).Ordered)
    (hover : range.contains key = true) :
    (node key height (borders ++ [range]) left right).Ordered := by
  refine ⟨fun other hmem => ?_, h.2⟩
  rcases List.mem_append.mp hmem with hmem | hmem
  · exact h.1 other hmem
  · rw [List.mem_singleton.mp hmem]
    exact hover

/-- A range that is not over a key lies on the side of its middle: below it, -/
theorem ordered_below (h : (node key height borders left right).Ordered)
    (hover : ¬ range.contains key = true) (hlt : range.getMidKey < key)
    (hinserted : (insert range left).Ordered) :
    (node key height borders (insert range left) right).Ordered := by
  have hmid := contains_iff.mp range.contains_getMidKey
  obtain ⟨hborders, hleft, hright, -, horight⟩ := h
  rw [contains_iff] at hover
  refine ⟨hborders, all_insert hleft hlt ⟨?_, ?_⟩, hright, hinserted, horight⟩
  · omega
  · omega

/-- or beyond it. -/
theorem ordered_beyond (h : (node key height borders left right).Ordered)
    (hover : ¬ range.contains key = true) (hlt : ¬ range.getMidKey < key)
    (hinserted : (insert range right).Ordered) :
    (node key height borders left (insert range right)).Ordered := by
  have hmid := contains_iff.mp range.contains_getMidKey
  obtain ⟨hborders, hleft, hright, holeft, -⟩ := h
  rw [contains_iff] at hover
  refine ⟨hborders, hleft, all_insert hright ?_ ⟨?_, ?_⟩, holeft, hinserted⟩
  · omega
  · omega
  · omega

end Place

theorem ordered_insert {tree : NNPNumberRangeTree} (h : tree.Ordered) :
    (insert range tree).Ordered := by
  induction tree with
  | nil =>
      refine ⟨fun other hmem => ?_, trivial, trivial, trivial, trivial⟩
      rw [List.mem_singleton.mp hmem]
      exact range.contains_getMidKey
  | node key height borders left right ihleft ihright =>
      rw [insert]
      split
      case isTrue hover => exact (rearranged_balance _).ordered (ordered_over h hover)
      case isFalse hover =>
        split
        case isTrue hlt =>
          exact (rearranged_balance _).ordered
            (ordered_below h hover hlt (ihleft h.2.2.2.1))
        case isFalse hlt =>
          exact (rearranged_balance _).ordered
            (ordered_beyond h hover hlt (ihright h.2.2.2.2))

/-- A range that is loaded after those of the tree goes behind those of its node. -/
theorem inOrder_insert {tree : NNPNumberRangeTree} (h : tree.Ordered) (hin : tree.InOrder)
    (hlast : ∀ other ∈ tree.ranges, other.id < range.id) : (insert range tree).InOrder := by
  induction tree with
  | nil => exact ⟨List.pairwise_singleton _ _, trivial, trivial⟩
  | node key height borders left right ihleft ihright =>
      obtain ⟨hown, hleft, hright⟩ := hin
      simp only [ranges, List.mem_append] at hlast
      rw [insert]
      split
      case isTrue hover =>
        refine (rearranged_balance _).inOrder (ordered_over h hover) ⟨?_, hleft, hright⟩
        refine List.pairwise_append.mpr ⟨hown, List.pairwise_singleton _ _, ?_⟩
        intro first hfirst second hsecond _ _
        rw [List.mem_singleton.mp hsecond]
        exact hlast first (Or.inl hfirst)
      case isFalse hover =>
        split
        case isTrue hlt =>
          exact (rearranged_balance _).inOrder
            (ordered_below h hover hlt (ordered_insert h.2.2.2.1))
            ⟨hown, ihleft h.2.2.2.1 hleft fun other hmem => hlast other (Or.inr (Or.inl hmem)),
              hright⟩
        case isFalse hlt =>
          exact (rearranged_balance _).inOrder
            (ordered_beyond h hover hlt (ordered_insert h.2.2.2.2))
            ⟨hown, hleft,
              ihright h.2.2.2.2 hright fun other hmem => hlast other (Or.inr (Or.inr hmem))⟩

/-! ## The search -/

/-- The ranges that the search takes as being over the number, in its order. -/
def visited (num : Nat) : NNPNumberRangeTree → List NNPNumberRangeItem
  | nil => []
  | node key _ borders left right =>
      if num = key then borders
      else
        borders.filter (·.contains num) ++
          if num ≤ key then visited num left else visited num right

/-- What `searchNumberRanges` returns besides the range it finds: `intersects`. -/
def intersects (num : Nat) : NNPNumberRangeTree → Nat
  | nil => 0
  | node key _ borders left right =>
      if num = key then borders.length
      else
        (borders.filter (·.contains num)).length +
          if num ≤ key then intersects num left else intersects num right

theorem intersects_eq (num : Nat) (tree : NNPNumberRangeTree) :
    intersects num tree = (visited num tree).length := by
  induction tree with
  | nil => rfl
  | node key height borders left right ihleft ihright =>
      rw [intersects, visited]
      split
      · rfl
      · rw [List.length_append]
        split
        · rw [ihleft]
        · rw [ihright]

theorem searchNumberRanges_eq (num : Nat) (tree : NNPNumberRangeTree)
    (result : Option NNPNumberRangeItem) :
    searchNumberRanges num tree result = (visited num tree).foldl shorter result := by
  induction tree generalizing result with
  | nil => rfl
  | node key height borders left right ihleft ihright =>
      rw [searchNumberRanges, visited]
      split
      · rfl
      · rw [List.foldl_append]
        split
        · rw [ihleft]
        · rw [ihright]

theorem filter_ranges_eq_nil {num : Nat} {tree : NNPNumberRangeTree}
    (h : ∀ range ∈ tree.ranges, range.contains num = false) :
    tree.ranges.filter (·.contains num) = [] :=
  List.filter_eq_nil_iff.mpr fun range hmem => by simp [h range hmem]

/-- In an ordered tree the search misses no range over the number. -/
theorem visited_perm {tree : NNPNumberRangeTree} (h : tree.Ordered) (num : Nat) :
    (visited num tree).Perm (tree.ranges.filter (·.contains num)) := by
  induction tree with
  | nil => exact .refl _
  | node key height borders left right ihleft ihright =>
      obtain ⟨hborders, hleft, hright, holeft, horight⟩ := h
      -- on the far side of the key no range is over the number
      have hnotLeft : key ≤ num → left.ranges.filter (·.contains num) = [] := by
        refine fun hle => filter_ranges_eq_nil fun range hmem => ?_
        have hends := hleft.of_mem hmem
        rw [Bool.eq_false_iff, Ne, contains_iff]
        omega
      have hnotRight : num ≤ key → right.ranges.filter (·.contains num) = [] := by
        refine fun hle => filter_ranges_eq_nil fun range hmem => ?_
        have hends := hright.of_mem hmem
        rw [Bool.eq_false_iff, Ne, contains_iff]
        omega
      rw [visited, ranges, List.filter_append, List.filter_append]
      split
      case isTrue hkey =>
        subst hkey
        rw [hnotLeft le_rfl, hnotRight le_rfl, List.append_nil, List.append_nil,
          List.filter_eq_self.mpr hborders]
      case isFalse hkey =>
        split
        case isTrue hle =>
          rw [hnotRight hle, List.append_nil]
          exact (ihleft holeft).append_left _
        case isFalse hle =>
          rw [hnotLeft (not_le.mp hle).le, List.nil_append]
          exact (ihright horight).append_left _

/-- The search meets ranges with the same borders in the order of loading. -/
theorem visited_pairwise {tree : NNPNumberRangeTree} (h : tree.Ordered) (hin : tree.InOrder)
    (num : Nat) : (visited num tree).Pairwise Follows := by
  induction tree with
  | nil => exact List.Pairwise.nil
  | node key height borders left right ihleft ihright =>
      obtain ⟨hborders, hleft, hright, holeft, horight⟩ := h
      obtain ⟨hown, hinLeft, hinRight⟩ := hin
      -- the ranges below or beyond the key are not over it
      have hother : ∀ (tree : NNPNumberRangeTree), (∀ range ∈ tree.ranges,
          range.contains key = false) → tree.Ordered → (visited num tree).Pairwise Follows →
          (borders.filter (·.contains num) ++ visited num tree).Pairwise Follows := by
        intro tree hnot hordered hvisited
        refine List.pairwise_append.mpr ⟨hown.filter _, hvisited, ?_⟩
        intro first hfirst second hsecond hfrom hto
        have hover := hborders first (List.mem_filter.mp hfirst).1
        have hmem := ((visited_perm hordered num).mem_iff.mp hsecond)
        have hout := hnot second (List.mem_filter.mp hmem).1
        rw [contains, ← hfrom, ← hto] at hout
        exact absurd hover (Bool.eq_false_iff.mp hout)
      rw [visited]
      split
      case isTrue => exact hown
      case isFalse =>
        split
        case isTrue =>
          refine hother left (fun range hmem => ?_) holeft (ihleft holeft hinLeft)
          have hends := hleft.of_mem hmem
          rw [Bool.eq_false_iff, Ne, contains_iff]
          omega
        case isFalse =>
          refine hother right (fun range hmem => ?_) horight (ihright horight hinRight)
          have hends := hright.of_mem hmem
          rw [Bool.eq_false_iff, Ne, contains_iff]
          omega

/-! ## The shortest range -/

/-- `result` is a shortest of the ranges, if there is one. -/
def IsShortest (found : List NNPNumberRangeItem) (result : Option NNPNumberRangeItem) : Prop :=
  match result with
  | none => found = []
  | some best => best ∈ found ∧ ∀ range ∈ found, best.getLength ≤ range.getLength

theorem isShortest_shorter {found : List NNPNumberRangeItem} {result : Option NNPNumberRangeItem}
    (h : IsShortest found result) (range : NNPNumberRangeItem) :
    IsShortest (found ++ [range]) (shorter result range) := by
  cases result with
  | none =>
      rw [show found = [] from h]
      exact ⟨List.mem_singleton_self range, fun other hmem => by rw [List.mem_singleton.mp hmem]⟩
  | some best =>
      obtain ⟨hmem, hleast⟩ := h
      rw [shorter]
      split
      case isTrue hge =>
        refine ⟨List.mem_append_right _ (List.mem_singleton_self range), fun other hother => ?_⟩
        rcases List.mem_append.mp hother with hold | hnew
        · exact hge.le.trans (hleast other hold)
        · rw [List.mem_singleton.mp hnew]
      case isFalse hge =>
        refine ⟨List.mem_append_left _ hmem, fun other hother => ?_⟩
        rcases List.mem_append.mp hother with hold | hnew
        · exact hleast other hold
        · rw [List.mem_singleton.mp hnew]
          exact (not_le.mp hge).le

theorem isShortest_foldl (found : List NNPNumberRangeItem) :
    IsShortest found (found.foldl shorter none) := by
  induction found using List.reverseRecOn with
  | nil => rfl
  | append_singleton found range ih =>
      rw [List.foldl_append]
      exact isShortest_shorter ih range

/-- The one returned is the last of the shortest. -/
theorem foldl_shorter_eq_some {found : List NNPNumberRangeItem} {best : NNPNumberRangeItem}
    (h : found.foldl shorter none = some best) :
    ∃ before after, found = before ++ best :: after ∧
      ∀ range ∈ after, best.getLength < range.getLength := by
  induction found using List.reverseRecOn with
  | nil => exact absurd h (by simp)
  | append_singleton found range ih =>
      rw [List.foldl_append] at h
      change shorter (found.foldl shorter none) range = some best at h
      cases hfound : found.foldl shorter none with
      | none =>
          rw [hfound] at h
          obtain rfl := Option.some.inj h
          exact ⟨found, [], rfl, by simp⟩
      | some earlier =>
          rw [hfound, shorter] at h
          split at h
          case isTrue =>
            obtain rfl := Option.some.inj h
            exact ⟨found, [], rfl, by simp⟩
          case isFalse hlonger =>
            obtain rfl := Option.some.inj h
            obtain ⟨before, after, hsplit, hafter⟩ := ih hfound
            refine ⟨before, after ++ [range], by rw [hsplit]; simp, fun other hmem => ?_⟩
            rcases List.mem_append.mp hmem with hmem | hmem
            · exact hafter other hmem
            · rw [List.mem_singleton.mp hmem]
              omega

end NNPNumberRangeTree

end VoipBill
