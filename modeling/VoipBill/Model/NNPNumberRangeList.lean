import VoipBill.Model.PrefixTree
import VoipBill.Model.Repository

/-!
# Number ranges and their destinations

`NNPNumberRangeList` keeps the number ranges in a balanced tree.  A node has a key and
the ranges over it; a range that is over no key on its way down gets a node of its own.
The range of a number is the shortest one over it.  The nodes of the source live in a vector,
which moves when it grows: `insertNode` has a parameter for what is lost then.

Ranges are linked to prefixes and these, by addition or subtraction, to destinations.
`getNNPDestinationByNum` goes from a number to its destinations,
`getPrefixByNNPDestination` from a destination to the prefixes of its numbers.
-/

namespace VoipBill

open Lib.Digits Lib.Hoare

/-- A number range with its borders. -/
structure NNPNumberRangeItem extends NNPNumberRange where
  fullNumberFrom : Nat
  fullNumberTo : Nat
  le : fullNumberFrom ≤ fullNumberTo

namespace NNPNumberRangeItem

def getMidKey (range : NNPNumberRangeItem) : Nat :=
  (range.fullNumberTo + range.fullNumberFrom) / 2

def getLength (range : NNPNumberRangeItem) : Nat := range.fullNumberTo - range.fullNumberFrom

/-- The number lies between the borders. -/
def contains (range : NNPNumberRangeItem) (num : Nat) : Bool :=
  decide (range.fullNumberFrom ≤ num) && decide (num ≤ range.fullNumberTo)

end NNPNumberRangeItem

/-! ## The tree of ranges -/

inductive NNPNumberRangeTree where
  | nil
  | node (key : Nat) (height : Int) (borders : List NNPNumberRangeItem)
      (left right : NNPNumberRangeTree)

namespace NNPNumberRangeTree

def getHeight : NNPNumberRangeTree → Int
  | nil => 0
  | node _ height _ _ _ => height

def getBalanceFactor : NNPNumberRangeTree → Int
  | nil => 0
  | node _ _ _ left right => right.getHeight - left.getHeight

def fixHeight : NNPNumberRangeTree → NNPNumberRangeTree
  | nil => nil
  | node key _ borders left right =>
      node key (max left.getHeight right.getHeight + 1) borders left right

/-- Ranges of the lowered node that are over the key of the raised one go up with it. -/
def rotateRight : NNPNumberRangeTree → NNPNumberRangeTree
  | node key height borders (node leftKey leftHeight leftBorders left middle) right =>
      let upLift := borders.filter (·.contains leftKey)
      let stay := borders.filter (!·.contains leftKey)
      fixHeight (node leftKey leftHeight (leftBorders ++ upLift) left
        (fixHeight (node key height stay middle right)))
  | tree => tree

def rotateLeft : NNPNumberRangeTree → NNPNumberRangeTree
  | node key height borders left (node rightKey rightHeight rightBorders middle right) =>
      let upLift := borders.filter (·.contains rightKey)
      let stay := borders.filter (!·.contains rightKey)
      fixHeight (node rightKey rightHeight (rightBorders ++ upLift)
        (fixHeight (node key height stay left middle)) right)
  | tree => tree

def balance (tree : NNPNumberRangeTree) : NNPNumberRangeTree :=
  match tree.fixHeight with
  | nil => nil
  | node key height borders left right =>
      let factor := getBalanceFactor (node key height borders left right)
      if factor = 2 then
        rotateLeft (node key height borders left
          (if getBalanceFactor right < 0 then rotateRight right else right))
      else if factor = -2 then
        rotateRight (node key height borders
          (if 0 < getBalanceFactor left then rotateLeft left else left) right)
      else
        node key height borders left right

def getLeftNode : NNPNumberRangeTree → NNPNumberRangeTree
  | nil => nil
  | node _ _ _ left _ => left

def getRightNode : NNPNumberRangeTree → NNPNumberRangeTree
  | nil => nil
  | node _ _ _ _ right => right

/-- What a call of `insertNode` leaves in the vector of nodes. -/
structure Inserted where
  /-- The tree at the index that is returned. -/
  returned : NNPNumberRangeTree
  /-- The tree at the index of the call. -/
  inPlace : NNPNumberRangeTree
  /-- A node was pushed to the vector. -/
  pushed : Bool

/-- The child after `avlTree[p].setLeftNode(insertNode(avlTree[p].getLeftNode(), index))`.
If the push moves the vector and `avlTree[p]` is evaluated before, the index of the child
is not changed in the vector. -/
def Inserted.child (lost : Bool) (inserted : Inserted) : NNPNumberRangeTree :=
  if inserted.pushed && lost then inserted.inPlace else inserted.returned

/-- The return of `insertNode` at a node, by `balance`: a node that was rotated is at its
index still, but one level down. -/
def balanced (tree : NNPNumberRangeTree) (pushed : Bool) : Inserted where
  returned := balance tree
  inPlace :=
    if tree.getBalanceFactor = 2 then (balance tree).getLeftNode
    else if tree.getBalanceFactor = -2 then (balance tree).getRightNode
    else balance tree
  pushed := pushed

/-- `lost` says whether what is written through a reference from before a push is lost. -/
def insertNode (lost : Bool) (range : NNPNumberRangeItem) : NNPNumberRangeTree → Inserted
  | nil => { returned := node range.getMidKey 1 [range] nil nil, inPlace := nil, pushed := true }
  | node key height borders left right =>
      if range.contains key then
        balanced (node key height (borders ++ [range]) left right) false
      else if range.getMidKey < key then
        let inserted := insertNode lost range left
        balanced (node key height borders (inserted.child lost) right) inserted.pushed
      else
        let inserted := insertNode lost range right
        balanced (node key height borders left (inserted.child lost)) inserted.pushed

/-- The shorter of two ranges, the later one of equals. -/
def shorter (result : Option NNPNumberRangeItem) (range : NNPNumberRangeItem) :
    Option NNPNumberRangeItem :=
  match result with
  | none => some range
  | some best => if best.getLength ≥ range.getLength then some range else some best

def searchNumberRanges (num : Nat) :
    NNPNumberRangeTree → Option NNPNumberRangeItem → Option NNPNumberRangeItem
  | nil, result => result
  | node key _ borders left right, result =>
      if num = key then
        borders.foldl shorter result
      else
        let result := (borders.filter (·.contains num)).foldl shorter result
        if num ≤ key then searchNumberRanges num left result
        else searchNumberRanges num right result

end NNPNumberRangeTree

/-- The vector `avlTree`, by its size, and the tree at `avlRoot`. -/
structure NNPNumberRangeAvl where
  size : Nat := 0
  avlRoot : NNPNumberRangeTree := .nil

namespace NNPNumberRangeAvl

variable (build : Build)

def parseItemByIndex (avl : NNPNumberRangeAvl) (range : NNPNumberRangeItem) :
    NNPNumberRangeAvl :=
  let inserted := avl.avlRoot.insertNode (build.losesPush avl.size) range
  { size := if inserted.pushed then avl.size + 1 else avl.size
    avlRoot := inserted.returned }

def load (data : List NNPNumberRangeItem) : NNPNumberRangeAvl :=
  data.foldl (parseItemByIndex build) {}

end NNPNumberRangeAvl

/-- The ranges in the order of their ids; the query that loads them asks for borders of
one length. -/
structure NNPNumberRangeList where
  data : List NNPNumberRangeItem
  sorted : data.Pairwise fun left right => left.id < right.id
  sameLength : ∀ range ∈ data,
    (digits range.fullNumberFrom).length = (digits range.fullNumberTo).length

namespace NNPNumberRangeList

variable (list : NNPNumberRangeList) (build : Build)

/-- The tree after `load`. -/
def tree : NNPNumberRangeTree := (NNPNumberRangeAvl.load build list.data).avlRoot

def getNNPNumberRange (num : Nat) : Option NNPNumberRangeItem :=
  if 0 < num then
    ((list.tree build).searchNumberRanges num none).filter fun range => range.contains num
  else
    none

def getNNPNumberRangeById (id : Int) : Option NNPNumberRangeItem :=
  if id < 1 then none else list.data.find? fun range => range.id == id

end NNPNumberRangeList

/-! ## Links -/

/-- The tables that link numbers and destinations. -/
structure NNPTables where
  nnpNumberRange : NNPNumberRangeList
  /-- Prefix ids with the ids of their ranges. -/
  nnpNumberRangePrefix : List (Int × Int)
  /-- Prefix ids with their links to destinations. -/
  nnpPrefixDestination : List (Int × NNPPrefixDestination)

namespace NNPTables

variable (tables : NNPTables)

def getNNPPrefixsByNumberRange (nnpNumberRangeId : Int) : List Int :=
  if nnpNumberRangeId < 1 then []
  else (tables.nnpNumberRangePrefix.filter (·.2 == nnpNumberRangeId)).map (·.1)

def getNumberRangesByNNPPrefix (prefixId : Int) : List Int :=
  if prefixId < 1 then []
  else (tables.nnpNumberRangePrefix.filter (·.1 == prefixId)).map (·.2)

/-- The prefixes that are added to a destination, or taken out of it. -/
def getPrefixsByNNPDestination (destinationId : Int) (isAddition : Bool) : List Int :=
  (tables.nnpPrefixDestination.filter fun link =>
    link.2.nnpDestinationId == destinationId && link.2.isAddition == isAddition).map (·.1)

/-- The repository that looks ranges and destinations up in these tables. -/
def repository : Repository where
  data :=
    { nnpNumberRangePrefix := tables.getNNPPrefixsByNumberRange
      nnpPrefixDestination := fun prefixId =>
        (tables.nnpPrefixDestination.filter (·.1 == prefixId)).map (·.2) }
  currentTime := 0

def getNNPDestinationByNum (build : Build) (num : Nat) : List Int :=
  tables.repository.getNNPDestinationByNumberRange
    ((tables.nnpNumberRange.getNNPNumberRange build num).map (·.toNNPNumberRange))

/-- The ranges with these ids. -/
def rangesOf (ids : List Int) : List NNPNumberRangeItem :=
  ids.filterMap tables.nnpNumberRange.getNNPNumberRangeById

/-- The ranges that are added to a destination, or taken out of it. -/
def rangesByNNPDestination (destinationId : Int) (isAddition : Bool) : List NNPNumberRangeItem :=
  tables.rangesOf
    ((tables.getPrefixsByNNPDestination destinationId isAddition).flatMap
      tables.getNumberRangesByNNPPrefix)

/-- The nodes that a tree has room for at first. -/
def storageSize : Nat := 10000

/-- Add some ranges to a tree. -/
def addRanges (build : Build) (ranges : List NNPNumberRangeItem) (tree : PrefixChildren) :
    PrefixRun PrefixChildren :=
  ranges.foldlM (fun tree range =>
    PrefixBlock.addRange build (digits range.fullNumberTo) (digits range.fullNumberFrom) tree) tree

/-- What becomes of `minusTree`. -/
def minusTree (build : Build) (destinationId : Int) : PrefixRun PrefixChildren :=
  addRanges build (tables.rangesByNNPDestination destinationId false) PrefixTree.empty

/-- What becomes of `plusTree`, less another tree. -/
def plusTree (build : Build) (destinationId : Int) (minus : PrefixChildren) :
    PrefixRun PrefixChildren := do
  let plus ← addRanges build (tables.rangesByNNPDestination destinationId true) PrefixTree.empty
  PrefixBlock.subTree build plus minus

/-- An `out_of_range` leaves the function, whichever of the trees throws it. -/
def getPrefixByNNPDestination (build : Build) (destinationId : Int) :
    Except PrefixError (List Nat) := do
  let minus ← (exec (tables.minusTree build destinationId) (PrefixBlock.new storageSize)).1
  let plus ← (exec (tables.plusTree build destinationId minus) (PrefixBlock.new storageSize)).1
  return PrefixTree.print plus

end NNPTables
end VoipBill
