import VoipBill.NNP.RangeLookup

/-!
# The tree of ranges is an AVL tree

An insertion balances every node on the way back from the place of the new range.

* `Avl`: the stored heights are the depths, and no balance factor is beyond one;
* `joined_balance`: `balance` joins two such trees whose depths differ by two at most;
* `balance_of_avl`: such a tree is not changed by `balance`;
* `avl_insert`: a tree grows by one at most, so the differences stay that small;
* `places`: where a range is kept, with the keys above it.
-/

namespace VoipBill
namespace NNPNumberRangeTree

/-! ## Search order, heights and balance -/

/-- The keys of the nodes. -/
def keys : NNPNumberRangeTree → List Nat
  | nil => []
  | node key _ _ left right => left.keys ++ key :: right.keys

/-- Keys ascend strictly from left to right. -/
def IsSearchTree : NNPNumberRangeTree → Prop
  | nil => True
  | node key _ _ left right =>
      (∀ below ∈ left.keys, below < key) ∧ (∀ beyond ∈ right.keys, key < beyond) ∧
        left.IsSearchTree ∧ right.IsSearchTree

/-- The number of levels of a tree. -/
def depth : NNPNumberRangeTree → Nat
  | nil => 0
  | node _ _ _ left right => max left.depth right.depth + 1

/-- Every node stores its depth and has a balance factor from -1 to 1. -/
def Avl : NNPNumberRangeTree → Prop
  | nil => True
  | node key height borders left right =>
      height = (node key height borders left right).depth ∧
        -1 ≤ getBalanceFactor (node key height borders left right) ∧
        getBalanceFactor (node key height borders left right) ≤ 1 ∧ left.Avl ∧ right.Avl

theorem All.of_mem_keys {P : Nat → Prop} {tree : NNPNumberRangeTree} (h : tree.All P) {key : Nat}
    (hmem : key ∈ tree.keys) : P key := by
  induction tree with
  | nil => exact absurd hmem (by simp [keys])
  | node rootKey height borders left right ihleft ihright =>
      obtain ⟨hkey, -, hleft, hright⟩ := h
      simp only [keys, List.mem_append, List.mem_cons] at hmem
      rcases hmem with hmem | rfl | hmem
      · exact ihleft hleft hmem
      · exact hkey
      · exact ihright hright hmem

theorem isSearchTree_of_ordered {tree : NNPNumberRangeTree} (h : tree.Ordered) :
    tree.IsSearchTree := by
  induction tree with
  | nil => trivial
  | node key height borders left right ihleft ihright =>
      obtain ⟨-, hleft, hright, holeft, horight⟩ := h
      exact ⟨fun below hmem => hleft.of_mem_keys hmem, fun beyond hmem => hright.of_mem_keys hmem,
        ihleft holeft, ihright horight⟩

@[simp] theorem depth_fixHeight (tree : NNPNumberRangeTree) : tree.fixHeight.depth = tree.depth := by
  cases tree <;> rfl

theorem getHeight_eq {tree : NNPNumberRangeTree} (h : tree.Avl) : tree.getHeight = tree.depth := by
  cases tree with
  | nil => rfl
  | node key height borders left right => exact h.1

variable {key : Nat} {height : Int} {borders : List NNPNumberRangeItem}
  {left right : NNPNumberRangeTree}

theorem avl_node_iff : (node key height borders left right).Avl ↔
    left.Avl ∧ right.Avl ∧ height = (max left.depth right.depth + 1 : Nat) ∧
      left.depth ≤ right.depth + 1 ∧ right.depth ≤ left.depth + 1 := by
  constructor
  · rintro ⟨hheight, hlow, hhigh, hleft, hright⟩
    rw [getBalanceFactor, getHeight_eq hleft, getHeight_eq hright] at hlow hhigh
    refine ⟨hleft, hright, hheight, ?_, ?_⟩
    · omega
    · omega
  · rintro ⟨hleft, hright, hheight, hlow, hhigh⟩
    refine ⟨hheight, ?_, ?_, hleft, hright⟩
    · rw [getBalanceFactor, getHeight_eq hleft, getHeight_eq hright]
      omega
    · rw [getBalanceFactor, getHeight_eq hleft, getHeight_eq hright]
      omega

/-- A node with a fixed height is balanced when its children are and differ by one level at
most. -/
theorem avl_fixHeight_iff : (fixHeight (node key height borders left right)).Avl ↔
    left.Avl ∧ right.Avl ∧ left.depth ≤ right.depth + 1 ∧ right.depth ≤ left.depth + 1 := by
  rw [fixHeight, avl_node_iff]
  constructor
  · rintro ⟨hleft, hright, -, hdepths⟩
    exact ⟨hleft, hright, hdepths⟩
  · rintro ⟨hleft, hright, hdepths⟩
    refine ⟨hleft, hright, ?_, hdepths⟩
    rw [getHeight_eq hleft, getHeight_eq hright]
    omega

@[simp] theorem depth_mirror (tree : NNPNumberRangeTree) : tree.mirror.depth = tree.depth := by
  induction tree with
  | nil => rfl
  | node key height borders left right ihleft ihright =>
      simp only [mirror, depth, ihleft, ihright, max_comm]

theorem getBalanceFactor_mirror (tree : NNPNumberRangeTree) :
    getBalanceFactor tree.mirror = -getBalanceFactor tree := by
  cases tree with
  | nil => rfl
  | node key height borders left right =>
      simp only [mirror, getBalanceFactor, getHeight_mirror]
      omega

theorem Avl.mirror {tree : NNPNumberRangeTree} (h : tree.Avl) : tree.mirror.Avl := by
  induction tree with
  | nil => trivial
  | node key height borders left right ihleft ihright =>
      obtain ⟨hleft, hright, hheight, hlow, hhigh⟩ := avl_node_iff.mp h
      rw [NNPNumberRangeTree.mirror, avl_node_iff, depth_mirror, depth_mirror, max_comm]
      exact ⟨ihright hright, ihleft hleft, hheight, hhigh, hlow⟩

/-! ## Balancing -/

/-- What `balance` makes of a node with children of the depths `l` and `r`: a tree with a
level more than the deeper one, or as many if it had to rotate. -/
structure Joined (l r : Nat) (tree : NNPNumberRangeTree) : Prop where
  avl : tree.Avl
  le_depth : max l r ≤ tree.depth
  depth_le : tree.depth ≤ max l r + 1
  depth_eq : l ≤ r + 1 → r ≤ l + 1 → tree.depth = max l r + 1

theorem Joined.mirror {l r : Nat} {tree : NNPNumberRangeTree} (h : Joined l r tree) :
    Joined r l tree.mirror where
  avl := h.avl.mirror
  le_depth := by
    rw [depth_mirror, max_comm]
    exact h.le_depth
  depth_le := by
    rw [depth_mirror, max_comm]
    exact h.depth_le
  depth_eq hl hr := by
    rw [depth_mirror, max_comm]
    exact h.depth_eq hr hl

/-- Left rotation, of a right child that does not lean to the left. -/
theorem joined_rotateLeft (hleft : left.Avl) (hright : right.Avl)
    (hdeep : right.depth = left.depth + 2) (hlean : ¬ getBalanceFactor right < 0) :
    Joined left.depth right.depth (rotateLeft (node key height borders left right)) := by
  cases right with
  | nil => exact absurd hdeep (by simp [depth])
  | node rightKey rightHeight rightBorders middle outer =>
      obtain ⟨hmiddle, houter, -, hlow, hhigh⟩ := avl_node_iff.mp hright
      rw [getBalanceFactor, getHeight_eq hmiddle, getHeight_eq houter] at hlean
      simp only [depth] at hdeep
      refine ⟨?_, ?_, ?_, ?_⟩ <;>
        simp only [rotateLeft, avl_fixHeight_iff, depth_fixHeight, depth, hleft, hmiddle, houter,
          true_and]
      all_goals omega

/-- Right rotation, of a left child that does not lean to the right. -/
theorem joined_rotateRight (hleft : left.Avl) (hright : right.Avl)
    (hdeep : left.depth = right.depth + 2) (hlean : ¬ 0 < getBalanceFactor left) :
    Joined left.depth right.depth (rotateRight (node key height borders left right)) := by
  have hmirrored := (@joined_rotateLeft key height borders right.mirror left.mirror hright.mirror
    hleft.mirror (by simpa using hdeep) (by rw [getBalanceFactor_mirror]; omega)).mirror
  rwa [rotateLeft_eq, mirror_mirror, mirror, mirror_mirror, mirror_mirror, depth_mirror,
    depth_mirror] at hmirrored

/-- The height of the child that goes up is fixed by the rotation itself. -/
theorem rotateLeft_fixHeight : rotateLeft (node key height borders left right.fixHeight) =
    rotateLeft (node key height borders left right) := by
  cases right <;> rfl

/-- Double rotation: a right child that leans to the left is rotated to the right before. -/
theorem joined_rotateLeft_rotateRight (hleft : left.Avl) (hright : right.Avl)
    (hdeep : right.depth = left.depth + 2) (hlean : getBalanceFactor right < 0) :
    Joined left.depth right.depth
      (rotateLeft (node key height borders left (rotateRight right))) := by
  cases right with
  | nil => exact absurd hdeep (by simp [depth])
  | node rightKey rightHeight rightBorders middle outer =>
      obtain ⟨hmiddle, houter, -, hlow, hhigh⟩ := avl_node_iff.mp hright
      rw [getBalanceFactor, getHeight_eq hmiddle, getHeight_eq houter] at hlean
      cases middle with
      | nil =>
          simp only [depth] at hlean
          omega
      | node middleKey middleHeight middleBorders inner beyond =>
          obtain ⟨hinner, hbeyond, -, hlow', hhigh'⟩ := avl_node_iff.mp hmiddle
          simp only [depth] at hdeep hlean hlow hhigh
          rw [rotateRight, rotateLeft_fixHeight, rotateLeft]
          refine ⟨?_, ?_, ?_, ?_⟩ <;>
            simp only [avl_fixHeight_iff, depth_fixHeight, depth, hleft, hinner, hbeyond, houter,
              true_and]
          all_goals omega

/-- Double rotation: a left child that leans to the right is rotated to the left before. -/
theorem joined_rotateRight_rotateLeft (hleft : left.Avl) (hright : right.Avl)
    (hdeep : left.depth = right.depth + 2) (hlean : 0 < getBalanceFactor left) :
    Joined left.depth right.depth
      (rotateRight (node key height borders (rotateLeft left) right)) := by
  have hmirrored := (@joined_rotateLeft_rotateRight key height borders right.mirror left.mirror
    hright.mirror hleft.mirror (by simpa using hdeep)
    (by rw [getBalanceFactor_mirror]; omega)).mirror
  rwa [rotateLeft_eq, mirror_mirror, mirror, mirror_mirror, ← rotateLeft_eq, depth_mirror,
    depth_mirror] at hmirrored

/-- **Balancing** joins two AVL trees whose depths differ by two at most. -/
theorem joined_balance (hleft : left.Avl) (hright : right.Avl)
    (hl : left.depth ≤ right.depth + 2) (hr : right.depth ≤ left.depth + 2) :
    Joined left.depth right.depth (balance (node key height borders left right)) := by
  have hfactor : ∀ height, getBalanceFactor (node key height borders left right) =
      right.depth - left.depth := by
    intro height
    rw [getBalanceFactor, getHeight_eq hleft, getHeight_eq hright]
  simp only [balance, fixHeight, hfactor]
  split
  case isTrue htwo =>
    have hdeep : right.depth = left.depth + 2 := by omega
    split
    case isTrue hlean => exact joined_rotateLeft_rotateRight hleft hright hdeep hlean
    case isFalse hlean => exact joined_rotateLeft hleft hright hdeep hlean
  case isFalse htwo =>
    split
    case isTrue hminus =>
      have hdeep : left.depth = right.depth + 2 := by omega
      split
      case isTrue hlean => exact joined_rotateRight_rotateLeft hleft hright hdeep hlean
      case isFalse hlean => exact joined_rotateRight hleft hright hdeep hlean
    case isFalse hminus =>
      -- nothing to rotate: only the height is set
      have havl := (@avl_fixHeight_iff key height borders left right).mpr
        ⟨hleft, hright, by omega, by omega⟩
      refine ⟨havl, ?_, le_rfl, fun _ _ => rfl⟩
      · show max left.depth right.depth ≤ max left.depth right.depth + 1
        omega

/-- A balanced tree stays as it is. -/
theorem balance_of_avl {tree : NNPNumberRangeTree} (h : tree.Avl) : balance tree = tree := by
  cases tree with
  | nil => rfl
  | node key height borders left right =>
      obtain ⟨hleft, hright, hheight, -, -⟩ := avl_node_iff.mp h
      have hfixed : fixHeight (node key height borders left right) =
          node key height borders left right := by
        rw [fixHeight, getHeight_eq hleft, getHeight_eq hright, hheight]
        simp
      obtain ⟨-, hlow, hhigh, -, -⟩ := h
      have htwo : ¬ getBalanceFactor (node key height borders left right) = 2 := by omega
      have hminus : ¬ getBalanceFactor (node key height borders left right) = -2 := by omega
      rw [balance, hfixed]
      show (if _ then _ else if _ then _ else _) = _
      rw [if_neg htwo, if_neg hminus]

/-! ## Insertion -/

variable {range : NNPNumberRangeItem}

/-- **Insertion** keeps the tree balanced and adds one level at most. -/
theorem avl_insert {tree : NNPNumberRangeTree} (h : tree.Avl) :
    (insert range tree).Avl ∧ tree.depth ≤ (insert range tree).depth ∧
      (insert range tree).depth ≤ tree.depth + 1 := by
  induction tree with
  | nil => exact ⟨avl_node_iff.mpr ⟨trivial, trivial, rfl, by simp, by simp⟩, Nat.zero_le _, le_rfl⟩
  | node key height borders left right ihleft ihright =>
      obtain ⟨hleft, hright, -, hlow, hhigh⟩ := avl_node_iff.mp h
      rw [insert]
      split
      case isTrue =>
        obtain ⟨havl, -, -, hdepth⟩ := @joined_balance key height (borders ++ [range]) left right
          hleft hright (by omega) (by omega)
        have heq := hdepth hlow hhigh
        refine ⟨havl, ?_, ?_⟩ <;> simp only [depth] <;> omega
      case isFalse =>
        split
        case isTrue =>
          obtain ⟨hinserted, hgrown, hone⟩ := ihleft hleft
          obtain ⟨havl, hle, hge, hdepth⟩ := @joined_balance key height borders
            (insert range left) right hinserted hright (by omega) (by omega)
          refine ⟨havl, ?_, ?_⟩ <;> simp only [depth] <;> omega
        case isFalse =>
          obtain ⟨hinserted, hgrown, hone⟩ := ihright hright
          obtain ⟨havl, hle, hge, hdepth⟩ := @joined_balance key height borders left
            (insert range right) hleft hinserted (by omega) (by omega)
          refine ⟨havl, ?_, ?_⟩ <;> simp only [depth] <;> omega

/-! ## Where a range is kept -/

/-- An entry of the tree: a range, the key of its node and the keys of the nodes above. -/
structure Place where
  key : Nat
  above : List Nat
  range : NNPNumberRangeItem

/-- The entries of a tree below some keys. -/
def places (above : List Nat) : NNPNumberRangeTree → List Place
  | nil => []
  | node key _ borders left right =>
      borders.map (fun range => ⟨key, above, range⟩) ++
        (places (key :: above) left ++ places (key :: above) right)

theorem map_range_places (above : List Nat) (tree : NNPNumberRangeTree) :
    (tree.places above).map Place.range = tree.ranges := by
  induction tree generalizing above with
  | nil => rfl
  | node key height borders left right ihleft ihright =>
      rw [places, ranges, List.map_append, List.map_append, ihleft, ihright, List.map_map]
      congr 1
      exact List.map_id borders

theorem All.of_mem_places {P : Nat → Prop} {tree : NNPNumberRangeTree} (h : tree.All P)
    {above : List Nat} {place : Place} (hmem : place ∈ tree.places above) :
    P place.range.fullNumberFrom ∧ P place.range.fullNumberTo := by
  apply h.of_mem
  rw [← map_range_places above]
  exact List.mem_map_of_mem hmem

/-- In an ordered tree a range is at the first key on its way down that it is over. -/
theorem places_spec {tree : NNPNumberRangeTree} (h : tree.Ordered) {above : List Nat}
    {place : Place} (hmem : place ∈ tree.places above) :
    place.range.contains place.key = true ∧
      ∀ key ∈ place.above, key ∈ above ∨ place.range.contains key = false := by
  induction tree generalizing above with
  | nil => exact absurd hmem (by simp [places])
  | node key height borders left right ihleft ihright =>
      obtain ⟨hborders, hleft, hright, holeft, horight⟩ := h
      simp only [places, List.mem_append, List.mem_map] at hmem
      -- the key of the root is the last one above the children
      have hbelow : place.range.contains key = false →
          (∀ k ∈ place.above, k ∈ key :: above ∨ place.range.contains k = false) →
          ∀ k ∈ place.above, k ∈ above ∨ place.range.contains k = false := by
        intro hout hall k hk
        rcases hall k hk with hcons | hnot
        · rcases List.mem_cons.mp hcons with rfl | htail
          · exact Or.inr hout
          · exact Or.inl htail
        · exact Or.inr hnot
      rcases hmem with ⟨range, hrange, rfl⟩ | hmem | hmem
      · exact ⟨hborders range hrange, fun k hk => Or.inl hk⟩
      · obtain ⟨hover, hall⟩ := ihleft holeft hmem
        have hends := hleft.of_mem_places hmem
        refine ⟨hover, hbelow ?_ hall⟩
        rw [Bool.eq_false_iff, Ne, NNPNumberRangeItem.contains_iff]
        omega
      · obtain ⟨hover, hall⟩ := ihright horight hmem
        have hends := hright.of_mem_places hmem
        refine ⟨hover, hbelow ?_ hall⟩
        rw [Bool.eq_false_iff, Ne, NNPNumberRangeItem.contains_iff]
        omega

end NNPNumberRangeTree

end VoipBill
