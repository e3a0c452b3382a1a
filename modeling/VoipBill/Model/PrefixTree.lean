import VoipBill.Lib.Digits
import VoipBill.Lib.Hoare

/-!
# Prefix trees

`PrefixTree` keeps a set of numbers by their digits.  A child of a node
is `NO`, `ALL` or a node; a node whose ten children are `ALL` becomes `ALL` itself.

The nodes of the source live in a vector and refer to each other by index; here a node
has its children.  The counter of a node is the number of its `ALL` children, which is
what `PrefixNode::set` keeps it at.

* `Build`: what the language leaves open where a call changes an element of a vector and its
  argument enlarges the vector;
* `PrefixTree`: the operations on trees, every new node linked to its parent;
* `PrefixBlock`: the same operations as a build runs them, with the vector of nodes, where a
  link can be lost.
-/

namespace VoipBill

open Lib.Digits Lib.Hoare

/-! ## Calls that enlarge a vector -/

/-- Which side of a call such as `block.at(i).set(num, alloc())` is evaluated first: the
language leaves it to the compiler. -/
inductive EvaluationOrder where
  | argumentFirst
  | objectFirst
deriving DecidableEq, Repr

/-- What the program gets from a compiler and its library. -/
structure Build where
  order : EvaluationOrder
  /-- `push_back` moves a vector of this many elements. -/
  pushMoves : Nat → Bool
  /-- `resize` moves the block of a prefix tree with this many nodes. -/
  resizeMoves : Nat → Bool

namespace Build

/-- An element that was looked up before a `push_back` moves its vector is changed in the
memory that the vector has left, so that the change is lost. -/
def losesPush (build : Build) (size : Nat) : Bool :=
  build.order == .objectFirst && build.pushMoves size

/-- The same for a `resize`. -/
def losesResize (build : Build) (size : Nat) : Bool :=
  build.order == .objectFirst && build.resizeMoves size

/-- The argument is evaluated first, so nothing is lost. -/
def inOrder : Build := ⟨.argumentFirst, fun _ => true, fun _ => true⟩

/-- The object is evaluated first, and a full vector moves to one of twice its size. -/
def doubling : Build where
  order := .objectFirst
  pushMoves size := size == 0 || 2 ^ size.log2 == size
  resizeMoves size := 10000 * 2 ^ (size / 10000).log2 == size

@[simp] theorem losesPush_argumentFirst {build : Build} (h : build.order = .argumentFirst)
    (size : Nat) : build.losesPush size = false := by
  rw [losesPush, h]
  rfl

@[simp] theorem losesResize_argumentFirst {build : Build} (h : build.order = .argumentFirst)
    (size : Nat) : build.losesResize size = false := by
  rw [losesResize, h]
  rfl

end Build

/-! ## Trees -/

/-- A child of a node. -/
inductive PrefixNode where
  | no
  | all
  | node (child : Fin 10 → PrefixNode)

/-- The ten children of a node. -/
abbrev PrefixChildren : Type := Fin 10 → PrefixNode

namespace PrefixNode

def isAll : PrefixNode → Bool
  | all => true
  | _ => false

end PrefixNode

namespace PrefixTree

/-- A node as the constructor leaves it. -/
def empty : PrefixChildren := fun _ => .no

/-- `setAll`. -/
def full : PrefixChildren := fun _ => .all

def getCount (child : PrefixChildren) : Nat :=
  ((List.finRange 10).filter fun i => (child i).isAll).length

def set (child : PrefixChildren) (i : Fin 10) (what : PrefixNode) : PrefixChildren :=
  Function.update child i what

/-- Set the children with this property to `ALL`. -/
def setAllIf (child : PrefixChildren) (p : Fin 10 → Bool) : PrefixChildren :=
  fun i => if p i then .all else child i

/-- A node, or `ALL` if all its children are. -/
def collapse (child : PrefixChildren) : PrefixNode :=
  if getCount child = 10 then .all else .node child

/-- Change the node below a child, which is allocated if there is none. -/
def below (f : PrefixChildren → PrefixChildren) : PrefixNode → PrefixNode
  | .all => .all
  | .no => collapse (f empty)
  | .node child => collapse (f child)

/-- The numbers from `high` (sic) on. -/
def rangeUp : List (Fin 10) → PrefixChildren → PrefixChildren
  | [], child => child
  | d :: ds, child =>
      let child := set child d (if ds = [] then .all else below (rangeUp ds) (child d))
      setAllIf child fun j => decide (d < j)

/-- The numbers up to `low` (sic). -/
def rangeDown : List (Fin 10) → PrefixChildren → PrefixChildren
  | [], child => child
  | d :: ds, child =>
      let child := set child d (if ds = [] then .all else below (rangeDown ds) (child d))
      setAllIf child fun j => decide (j < d)

/-- The numbers between two numbers of the same length. -/
def addRange : List (Fin 10) → List (Fin 10) → PrefixChildren → PrefixChildren
  | h :: hs, l :: ls, child =>
      if h = l then
        set child h (if hs = [] then .all else below (addRange hs ls) (child h))
      else
        let child := setAllIf child fun j => decide (l < j) && decide (j < h)
        if hs = [] then
          set (set child h .all) l .all
        else
          let child := set child h (below (rangeDown hs) (child h))
          set child l (below (rangeUp ls) (child l))
  | _, _, child => child

/-- `addRange` of a pair of numbers, which `sprintf` turns into digits. -/
def addRangePair (pair : Nat × Nat) (tree : PrefixChildren) : PrefixChildren :=
  addRange (digits pair.2) (digits pair.1) tree

/-- Add the child of one tree to that of another. -/
def addNode : PrefixNode → PrefixNode → PrefixNode
  | .no, output => output
  | .all, _ => .all
  | .node input, output =>
      match output with
      | .all => .all
      | .no => collapse fun i => addNode (input i) .no
      | .node output => collapse fun i => addNode (input i) (output i)

def addTree (output input : PrefixChildren) : PrefixChildren :=
  fun i => addNode (input i) (output i)

/-- Subtract the child of one tree from that of another.  A node without `ALL` children
is taken out of the tree. -/
def subNode : PrefixNode → PrefixNode → PrefixNode
  | .no, output => output
  | .all, _ => .no
  | .node input, output =>
      match output with
      | .no => .no
      | .all =>
          let result : PrefixChildren := fun i => subNode (input i) .all
          if getCount result = 0 then .no else .node result
      | .node output =>
          let result : PrefixChildren := fun i => subNode (input i) (output i)
          if getCount result = 0 then .no else .node result

def subTree (output input : PrefixChildren) : PrefixChildren :=
  fun i => subNode (input i) (output i)

/-- A digit string is held: it runs into an `ALL` before it ends. -/
def checkInclusion : List (Fin 10) → PrefixChildren → Bool
  | [], _ => false
  | d :: ds, child =>
      match child d with
      | .no => false
      | .all => true
      | .node child => checkInclusion ds child

/-- The digits of the prefixes of a subtree, in their order. -/
def printNode : PrefixNode → List (Fin 10) → List (List (Fin 10))
  | .no, _ => []
  | .all, array => [array]
  | .node child, array => (List.finRange 10).flatMap fun j => printNode (child j) (array ++ [j])

/-- The prefixes of a tree, as numbers. -/
def print (tree : PrefixChildren) : List Nat :=
  ((List.finRange 10).flatMap fun j => printNode (tree j) [j]).map value

example : print (addRange (digits 1250) (digits 1230) empty) = [123, 124, 1250] := by
  decide +kernel

end PrefixTree

/-! ## The block of nodes -/

/-- The vector of the nodes of a tree: `current` of its `size` elements are in use. -/
structure PrefixBlock where
  blockSize : Nat
  current : Nat
  size : Nat
deriving DecidableEq, Repr

/-- `block.at` throws for the index `NO`. -/
inductive PrefixError where
  | outOfRange
deriving DecidableEq, Repr

/-- A computation that allocates nodes. -/
abbrev PrefixRun (α : Type) : Type := Prog PrefixError PrefixBlock α

namespace PrefixBlock

open PrefixTree

def alloc (block : PrefixBlock) : PrefixBlock :=
  { block with
    current := block.current + 1
    size := if block.current = block.size then block.size + block.blockSize else block.size }

/-- The block of a new tree, with its root. -/
def new (storageSize : Nat) : PrefixBlock := alloc ⟨storageSize, 0, storageSize⟩

variable (build : Build)

/-- The link to the next node is lost: the block is full and moves. -/
def loses (block : PrefixBlock) : Bool :=
  decide (block.current = block.size) && build.losesResize block.size

/-- `block.at(i).set(num, alloc())`, and whether the child is the new node after it.  The
child was `NO` and otherwise still is. -/
def link : PrefixRun Bool := do
  let block ← get
  modify alloc
  return !block.loses build

/-- Change the node below a child, which is allocated if there is none.  `missing` is what
happens if the child is `NO` all the same. -/
def below (missing : PrefixRun PrefixNode) (f : PrefixChildren → PrefixRun PrefixChildren) :
    PrefixNode → PrefixRun PrefixNode
  | .all => pure .all
  | .no => do
      let linked ← link build
      if linked then return collapse (← f empty) else missing
  | .node child => return collapse (← f child)

def rangeUp : List (Fin 10) → PrefixChildren → PrefixRun PrefixChildren
  | [], child => pure child
  | d :: ds, child => do
      let what ← (if ds = [] then pure .all else below build (pure .no) (rangeUp ds) (child d))
      return setAllIf (set child d what) fun j => decide (d < j)

def rangeDown : List (Fin 10) → PrefixChildren → PrefixRun PrefixChildren
  | [], child => pure child
  | d :: ds, child => do
      let what ← (if ds = [] then pure .all else below build (pure .no) (rangeDown ds) (child d))
      return setAllIf (set child d what) fun j => decide (j < d)

/-- A common digit is followed without a look at the child, the two borders only if it is
a node. -/
def addRange : List (Fin 10) → List (Fin 10) → PrefixChildren → PrefixRun PrefixChildren
  | h :: hs, l :: ls, child =>
      if h = l then do
        let what ← (if hs = [] then pure .all
          else below build (throw .outOfRange) (addRange hs ls) (child h))
        return set child h what
      else do
        let child := setAllIf child fun j => decide (l < j) && decide (j < h)
        if hs = [] then
          return set (set child h .all) l .all
        else
          let what ← below build (pure .no) (rangeDown build hs) (child h)
          let child := set child h what
          let what ← below build (pure .no) (rangeUp build ls) (child l)
          return set child l what
  | _, _, child => pure child

/-- The children of a node in their order. -/
def eachChild (f : Fin 10 → PrefixNode → PrefixRun PrefixNode) (output : PrefixChildren) :
    PrefixRun PrefixChildren :=
  (List.finRange 10).foldlM (fun child i => return set child i (← f i (child i))) output

def subNode : PrefixNode → PrefixNode → PrefixRun PrefixNode
  | .no, output => pure output
  | .all, _ => pure .no
  | .node input, output =>
      match output with
      | .no => pure .no
      | .all => do
          let linked ← link build
          if linked then
            let result ← eachChild (fun i what => subNode (input i) what) full
            return if getCount result = 0 then .no else .node result
          else
            throw .outOfRange
      | .node output => do
          let result ← eachChild (fun i what => subNode (input i) what) output
          return if getCount result = 0 then .no else .node result

def subTree (output input : PrefixChildren) : PrefixRun PrefixChildren :=
  eachChild (fun i what => subNode build (input i) what) output

end PrefixBlock
end VoipBill
