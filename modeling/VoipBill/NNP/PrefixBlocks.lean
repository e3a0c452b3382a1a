import VoipBill.Model.PrefixTree

/-!
# Prefix trees in their block

A node that is linked to its parent while the block moves is lost.  Where no link is lost,
the operations on a block are those on trees, and all that they leave besides is a number of
nodes in use.

* `Allocates`: a run returns a value and allocates so many nodes, unless a link is lost;
* `allocates_rangeUp`, `allocates_addRange`, `allocates_subTree`: the operations;
* `Allocates.exec_eq`: builds agree where the links are kept, as they are while the nodes fit
  the block (`linksKept_of_le`).
-/

namespace VoipBill
namespace PrefixBlock

open Lib.Hoare PrefixTree

variable {α β : Type}

/-- In every build, the run returns `a` and allocates `n` nodes, if none of the links to
these is lost. -/
def Allocates (x : Build → PrefixRun α) (a : α) (n : Nat) : Prop :=
  ∀ (build : Build) (block : PrefixBlock), (∀ k < n, (alloc^[k] block).loses build = false) →
    exec (x build) block = (.ok a, alloc^[n] block)

/-! ## The block -/

@[simp] theorem current_iterate (block : PrefixBlock) (n : Nat) :
    (alloc^[n] block).current = block.current + n := by
  induction n with
  | zero => rfl
  | succ n ih =>
      rw [Function.iterate_succ_apply']
      show (alloc^[n] block).current + 1 = _
      omega

theorem size_iterate {block : PrefixBlock} {n : Nat} (h : block.current + n ≤ block.size) :
    (alloc^[n] block).size = block.size := by
  induction n with
  | zero => rfl
  | succ n ih =>
      have hsize := ih (by omega)
      have hnot : ¬ (alloc^[n] block).current = (alloc^[n] block).size := by
        rw [current_iterate, hsize]
        omega
      rw [Function.iterate_succ_apply']
      show (if _ then _ else _) = _
      rw [if_neg hnot, hsize]

/-- A block that is not full does not move. -/
theorem loses_iterate {block : PrefixBlock} {n : Nat} (h : block.current + n ≤ block.size)
    (build : Build) : ∀ k < n, (alloc^[k] block).loses build = false := by
  intro k hk
  have hnot : ¬ (alloc^[k] block).current = (alloc^[k] block).size := by
    rw [current_iterate, size_iterate (by omega)]
    omega
  rw [loses, decide_eq_false hnot, Bool.false_and]

theorem loses_argumentFirst {build : Build} (h : build.order = .argumentFirst)
    (block : PrefixBlock) : block.loses build = false := by
  rw [loses, Build.losesResize_argumentFirst h, Bool.and_false]

/-! ## Rules -/

theorem allocates_pure (a : α) : Allocates (fun _ => pure a) a 0 := fun _ _ _ => rfl

theorem allocates_link : Allocates link true 1 := by
  intro build block h
  have hkept := h 0 (by omega)
  show (Except.ok (!block.loses build), alloc block) = _
  rw [show block.loses build = false from hkept]
  rfl

/-- The nodes of two parts add up. -/
theorem Allocates.bind {x : Build → PrefixRun α} {f : Build → α → PrefixRun β} {a : α} {b : β}
    {n m : Nat} (hx : Allocates x a n) (hf : Allocates (fun build => f build a) b m) :
    Allocates (fun build => x build >>= f build) b (n + m) := by
  intro build block h
  rw [exec_bind_ok (hx build block fun k hk => h k (by omega))]
  rw [hf build _ ?_, Nat.add_comm, Function.iterate_add_apply]
  intro k hk
  rw [← Function.iterate_add_apply]
  exact h _ (by omega)

/-- What is done with the value of a run allocates nothing. -/
theorem Allocates.map {x : Build → PrefixRun α} {a : α} {n : Nat} (hx : Allocates x a n)
    (g : α → β) : Allocates (fun build => x build >>= fun value => pure (g value)) (g a) n :=
  @Allocates.bind _ _ x (fun _ value => pure (g value)) a (g a) n 0 hx (allocates_pure (g a))

/-- No link to a node that the run allocates is lost. -/
def LinksKept (build : Build) (x : Build → PrefixRun α) (block : PrefixBlock) : Prop :=
  ∀ k, block.current + k < (exec (x .inOrder) block).2.current →
    (alloc^[k] block).loses build = false

theorem linksKept_of_argumentFirst {build : Build} (h : build.order = .argumentFirst)
    (x : Build → PrefixRun α) (block : PrefixBlock) : LinksKept build x block :=
  fun _ _ => loses_argumentFirst h _

/-- The nodes fit the block. -/
theorem linksKept_of_le {x : Build → PrefixRun α} {block : PrefixBlock}
    (h : (exec (x .inOrder) block).2.current ≤ block.size) (build : Build) :
    LinksKept build x block := by
  intro k hk
  have hfits : block.current + (k + 1) ≤ block.size := by omega
  exact loses_iterate hfits build k (Nat.lt_succ_self k)

/-- **Builds agree** on a run that keeps its links. -/
theorem Allocates.exec_eq {x : Build → PrefixRun α} {a : α} {n : Nat} (h : Allocates x a n)
    {build : Build} {block : PrefixBlock} (hkept : LinksKept build x block) :
    (exec (x build) block).1 = .ok a := by
  have hinOrder := h .inOrder block fun k _ => loses_argumentFirst rfl _
  have hlinks : ∀ k < n, (alloc^[k] block).loses build = false := by
    intro k hk
    apply hkept
    rw [hinOrder, current_iterate]
    omega
  rw [h build block hlinks]

/-! ## Adding a range -/

section Children

variable {f : Build → PrefixChildren → PrefixRun PrefixChildren}
  {g : PrefixChildren → PrefixChildren} (missing : PrefixRun PrefixNode)

theorem allocates_below (hf : ∀ child, ∃ n, Allocates (fun build => f build child) (g child) n)
    (what : PrefixNode) :
    ∃ n, Allocates (fun build => below build missing (f build) what) (PrefixTree.below g what) n := by
  cases what with
  | all => exact ⟨0, allocates_pure _⟩
  | no =>
      obtain ⟨n, hn⟩ := hf empty
      exact ⟨1 + n, allocates_link.bind (hn.map collapse)⟩
  | node child =>
      obtain ⟨n, hn⟩ := hf child
      exact ⟨n, hn.map collapse⟩

/-- The last digit of a border, or those after it. -/
theorem allocates_border {ds : List (Fin 10)}
    (hf : ∀ child, ∃ n, Allocates (fun build => f build child) (g child) n) (what : PrefixNode) :
    ∃ n, Allocates
      (fun build => if ds = [] then pure .all else below build missing (f build) what)
      (if ds = [] then .all else PrefixTree.below g what) n := by
  by_cases hlast : ds = []
  · simp only [if_pos hlast]
    exact ⟨0, allocates_pure _⟩
  · simp only [if_neg hlast]
    exact allocates_below missing hf what

end Children

theorem allocates_rangeUp (ds : List (Fin 10)) (child : PrefixChildren) :
    ∃ n, Allocates (fun build => rangeUp build ds child) (PrefixTree.rangeUp ds child) n := by
  induction ds generalizing child with
  | nil => exact ⟨0, allocates_pure child⟩
  | cons d ds ih =>
      obtain ⟨n, hn⟩ := @allocates_border _ _ (pure .no) ds ih (child d)
      exact ⟨n, hn.map _⟩

theorem allocates_rangeDown (ds : List (Fin 10)) (child : PrefixChildren) :
    ∃ n, Allocates (fun build => rangeDown build ds child) (PrefixTree.rangeDown ds child) n := by
  induction ds generalizing child with
  | nil => exact ⟨0, allocates_pure child⟩
  | cons d ds ih =>
      obtain ⟨n, hn⟩ := @allocates_border _ _ (pure .no) ds ih (child d)
      exact ⟨n, hn.map _⟩

theorem allocates_addRange (hs ls : List (Fin 10)) (child : PrefixChildren) :
    ∃ n, Allocates (fun build => addRange build hs ls child) (PrefixTree.addRange hs ls child) n := by
  induction hs generalizing ls child with
  | nil => exact ⟨0, allocates_pure child⟩
  | cons h hs ih =>
      cases ls with
      | nil => exact ⟨0, allocates_pure child⟩
      | cons l ls =>
          simp only [addRange, PrefixTree.addRange]
          by_cases heq : h = l
          · simp only [if_pos heq]
            obtain ⟨n, hn⟩ := @allocates_border _ _ (throw .outOfRange) hs (ih ls) (child h)
            exact ⟨n, hn.map _⟩
          · simp only [if_neg heq]
            by_cases hlast : hs = []
            · simp only [if_pos hlast]
              exact ⟨0, allocates_pure _⟩
            · simp only [if_neg hlast]
              -- first the upper border is reached from below, then the lower one from above
              obtain ⟨n, hn⟩ := allocates_below (pure .no) (allocates_rangeDown hs)
                (setAllIf child (fun j => decide (l < j) && decide (j < h)) h)
              obtain ⟨m, hm⟩ := allocates_below (pure .no) (allocates_rangeUp ls)
                (set (setAllIf child fun j => decide (l < j) && decide (j < h)) h
                  (PrefixTree.below (PrefixTree.rangeDown hs)
                    (setAllIf child (fun j => decide (l < j) && decide (j < h)) h)) l)
              exact ⟨n + m, hn.bind (hm.map _)⟩

/-! ## Subtracting a tree -/

theorem allocates_eachChild {f : Build → Fin 10 → PrefixNode → PrefixRun PrefixNode}
    {g : Fin 10 → PrefixNode → PrefixNode}
    (hf : ∀ i what, ∃ n, Allocates (fun build => f build i what) (g i what) n)
    (output : PrefixChildren) :
    ∃ n, Allocates (fun build => eachChild (f build) output) (fun i => g i (output i)) n := by
  -- after some of the children, these are changed and the others are not
  have hfold : ∀ (is : List (Fin 10)), is.Nodup → ∀ child : PrefixChildren,
      ∃ n, Allocates (fun build => is.foldlM
          (fun child i => do return set child i (← f build i (child i))) child)
        (fun i => if i ∈ is then g i (child i) else child i) n := by
    intro is
    induction is with
    | nil => exact fun _ child => ⟨0, allocates_pure child⟩
    | cons i is ih =>
        intro hnodup child
        obtain ⟨hnotin, hrest⟩ := List.nodup_cons.mp hnodup
        obtain ⟨n, hn⟩ := hf i (child i)
        obtain ⟨m, hm⟩ := ih hrest (PrefixTree.set child i (g i (child i)))
        have hresult : (fun j => if j ∈ i :: is then g j (child j) else child j) =
            fun j => if j ∈ is then g j (PrefixTree.set child i (g i (child i)) j)
              else PrefixTree.set child i (g i (child i)) j := by
          funext j
          by_cases hj : j = i
          · subst hj
            rw [if_pos List.mem_cons_self, if_neg hnotin, PrefixTree.set, Function.update_self]
          · have hset : PrefixTree.set child i (g i (child i)) j = child j :=
              Function.update_of_ne hj _ _
            rw [hset]
            simp only [List.mem_cons, hj, false_or]
        rw [hresult]
        exact ⟨n + m, (hn.map fun what => PrefixTree.set child i what).bind hm⟩
  obtain ⟨n, hn⟩ := hfold (List.finRange 10) (List.nodup_finRange 10) output
  simp only [List.mem_finRange, if_true] at hn
  exact ⟨n, hn⟩

theorem allocates_subNode (input output : PrefixNode) :
    ∃ n, Allocates (fun build => subNode build input output) (PrefixTree.subNode input output) n := by
  induction input generalizing output with
  | no => exact ⟨0, allocates_pure output⟩
  | all => exact ⟨0, allocates_pure PrefixNode.no⟩
  | node input ih =>
      cases output with
      | no => exact ⟨0, allocates_pure PrefixNode.no⟩
      | all =>
          obtain ⟨n, hn⟩ := allocates_eachChild ih full
          exact ⟨1 + n, allocates_link.bind (hn.map fun result =>
            if getCount result = 0 then PrefixNode.no else PrefixNode.node result)⟩
      | node output =>
          obtain ⟨n, hn⟩ := allocates_eachChild ih output
          exact ⟨n, hn.map fun result =>
            if getCount result = 0 then PrefixNode.no else PrefixNode.node result⟩

theorem allocates_subTree (output input : PrefixChildren) :
    ∃ n, Allocates (fun build => subTree build output input) (PrefixTree.subTree output input) n :=
  allocates_eachChild (fun i what => allocates_subNode (input i) what) output

end PrefixBlock
end VoipBill
