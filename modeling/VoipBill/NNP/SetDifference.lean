import VoipBill.NNP.CanonicalCover

/-!
# Subtracting one prefix tree from another

`subNode` takes a node out of the tree when none of its children is `ALL` any more, also
if some of them are nodes that still hold strings.

* `checkInclusion_iff`: the search in a tree and the printed prefixes agree;
* `deepest`: how long a string has to be for a tree to decide it;
* `isDifference_iff`: `subTree` is the difference of sets exactly when no node is left with
  strings but without an `ALL` child.
-/

namespace VoipBill

open Lib.Digits

namespace PrefixNode

/-- The number of digits that lead to the deepest entry below a node. -/
def depth : PrefixNode → Nat
  | no => 0
  | all => 0
  | node child => (List.finRange 10).foldr (fun i deep => max (depth (child i)) deep) 0 + 1

theorem le_foldr_max {f : Fin 10 → Nat} {l : List (Fin 10)} {i : Fin 10} (h : i ∈ l) :
    f i ≤ l.foldr (fun i deep => max (f i) deep) 0 := by
  induction l with
  | nil => exact absurd h (by simp)
  | cons j l ih =>
      rw [List.foldr_cons]
      rcases List.mem_cons.mp h with rfl | hmem
      · exact le_max_left _ _
      · exact (ih hmem).trans (le_max_right _ _)

/-- A canonical tree is one over strings that reach its deepest entry. -/
theorem Canonical.of_depth {len m : Nat} {t : PrefixNode} (h : Canonical len t)
    (hm : t.depth ≤ m) : Canonical m t := by
  induction h generalizing m with
  | no len => exact .no m
  | all len => exact .all m
  | @node len child hchild hsome hnotall ih =>
      rw [depth] at hm
      obtain ⟨m, rfl⟩ := Nat.exists_eq_add_of_le' (show 1 ≤ m by omega)
      refine .node (fun i => ih i ?_) hsome hnotall
      have hi := le_foldr_max (f := fun i => (child i).depth) (List.mem_finRange i)
      omega

end PrefixNode

namespace PrefixTree

open PrefixNode

/-- The number of digits that lead to the deepest entry of a tree. -/
def deepest (tree : PrefixChildren) : Nat := (PrefixNode.node tree).depth

theorem depth_lt_deepest (tree : PrefixChildren) (i : Fin 10) : (tree i).depth < deepest tree := by
  rw [deepest, depth]
  exact Nat.lt_succ_of_le (le_foldr_max (f := fun i => (tree i).depth) (List.mem_finRange i))

/-- What follows the deepest entry makes no difference. -/
theorem checkInclusion_append {tree : PrefixChildren} {ds : List (Fin 10)}
    (h : deepest tree ≤ ds.length) (tail : List (Fin 10)) :
    checkInclusion (ds ++ tail) tree = checkInclusion ds tree := by
  induction ds generalizing tree with
  | nil => exact absurd h (by simp [deepest, depth])
  | cons d ds ih =>
      have hdepth := depth_lt_deepest tree d
      rw [List.cons_append, checkInclusion, checkInclusion]
      cases hchild : tree d with
      | no => rfl
      | all => rfl
      | node child =>
          rw [hchild] at hdepth
          rw [List.length_cons] at h
          exact ih (Nat.le_of_lt_succ (hdepth.trans_le h))

theorem checkInclusion_cons {tree : PrefixChildren} {d : Fin 10} {ds : List (Fin 10)} :
    checkInclusion (d :: ds) tree = true ↔ (tree d).Covers ds := by
  induction ds generalizing d tree with
  | nil =>
      rw [checkInclusion]
      cases tree d with
      | no => simp
      | all => simp
      | node child => exact iff_of_false Bool.false_ne_true id
  | cons e ds ih =>
      rw [checkInclusion]
      cases tree d with
      | no => simp
      | all => simp
      | node child => exact ih

/-- A string is found in a tree exactly when a printed prefix covers it. -/
theorem checkInclusion_iff {tree : PrefixChildren} {ds : List (Fin 10)} :
    checkInclusion ds tree = true ↔ Lib.PrefixCover.CoveredBy (printed tree) ds := by
  cases ds with
  | nil =>
      refine iff_of_false Bool.false_ne_true ?_
      rintro ⟨p, hp, hprefix⟩
      exact ne_nil_of_mem_printed hp (List.prefix_nil.mp hprefix)
  | cons d ds => rw [checkInclusion_cons, coveredBy_printed_cons]

/-- `subTree` takes the strings of the second tree out of the first, for strings that both
trees decide. -/
def IsDifference (first second : PrefixChildren) : Prop :=
  ∀ ds : List (Fin 10), deepest first ≤ ds.length → deepest second ≤ ds.length →
    (Lib.PrefixCover.CoveredBy ((print (subTree first second)).map digits) ds ↔
      Lib.PrefixCover.CoveredBy ((print first).map digits) ds ∧
        ¬ Lib.PrefixCover.CoveredBy ((print second).map digits) ds)

/-- If the second tree holds a string under a non-empty prefix, and a string under it is in
the first tree and not in the second, then this is so for all strings under one of its next
digits. -/
def LeavesWholeDigit (first second : PrefixChildren) : Prop :=
  ∀ (front : List (Fin 10)) (n : Nat), front ≠ [] →
    deepest first ≤ front.length + (n + 1) → deepest second ≤ front.length + (n + 1) →
    (∃ other : List (Fin 10), other.length = n + 1 ∧
      checkInclusion (front ++ other) second = true) →
    (∃ rest : List (Fin 10), rest.length = n + 1 ∧ checkInclusion (front ++ rest) first = true ∧
      checkInclusion (front ++ rest) second = false) →
    ∃ i, ∀ rest : List (Fin 10), rest.length = n →
      checkInclusion (front ++ i :: rest) first = true ∧
        checkInclusion (front ++ i :: rest) second = false

section Difference

variable {first second : PrefixChildren} {len : Nat}

theorem checkInclusion_subTree {d : Fin 10} {ds : List (Fin 10)}
    (hfirst : ∀ i, Canonical len (first i)) (hsecond : ∀ i, Canonical len (second i))
    (hdeepFirst : deepest first ≤ ds.length + 1) (hdeepSecond : deepest second ≤ ds.length + 1) :
    checkInclusion (d :: ds) (subTree first second) = true ↔
      checkInclusion (d :: ds) first = true ∧ checkInclusion (d :: ds) second = false ∧
        KeptBelow (first d).Covers (second d).Covers ds := by
  have hlong : ∀ tree : PrefixChildren, deepest tree ≤ ds.length + 1 →
      (∀ i, Canonical len (tree i)) → ∀ i, Canonical ds.length (tree i) := by
    intro tree hdeep hcanonical i
    have hdepth := depth_lt_deepest tree i
    exact (hcanonical i).of_depth (by omega)
  rw [checkInclusion_cons, covers_subTree (hlong second hdeepSecond hsecond)
    (hlong first hdeepFirst hfirst) rfl, checkInclusion_cons, Bool.eq_false_iff, Ne,
    checkInclusion_cons]

/-- The condition says that every string of the difference is kept. -/
theorem leavesWholeDigit_iff :
    LeavesWholeDigit first second ↔
      ∀ (d : Fin 10) (ds : List (Fin 10)), deepest first ≤ ds.length + 1 →
        deepest second ≤ ds.length + 1 → checkInclusion (d :: ds) first = true →
        checkInclusion (d :: ds) second = false →
        KeptBelow (first d).Covers (second d).Covers ds := by
  constructor
  · intro hleaves d ds hdeepFirst hdeepSecond hin hout front back heq hne hother
    obtain ⟨n, hn⟩ := Nat.exists_eq_succ_of_ne_zero (List.length_pos_iff.mpr hne).ne'
    have hlength : ds.length + 1 = (d :: front).length + (n + 1) := by
      rw [heq, List.length_append, hn, List.length_cons]
      omega
    obtain ⟨other, hotherLen, hotherCovers⟩ := hother
    obtain ⟨i, hi⟩ := hleaves (d :: front) n (by simp) (hlength ▸ hdeepFirst)
      (hlength ▸ hdeepSecond) ⟨other, hotherLen.trans hn, checkInclusion_cons.mpr hotherCovers⟩
      ⟨back, hn, by rwa [List.cons_append, ← heq], by rwa [List.cons_append, ← heq]⟩
    refine ⟨i, fun rest hrest => ?_⟩
    obtain ⟨hheld, hfree⟩ := hi rest (by omega)
    rw [List.cons_append] at hheld hfree
    exact ⟨checkInclusion_cons.mp hheld, fun hcovers =>
      Bool.false_ne_true (hfree.symm.trans (checkInclusion_cons.mpr hcovers))⟩
  · intro hkept front n hne hdeepFirst hdeepSecond hother hrest
    obtain ⟨d, front, rfl⟩ := List.exists_cons_of_ne_nil hne
    obtain ⟨other, hotherLen, hotherIn⟩ := hother
    obtain ⟨rest, hrestLen, hin, hout⟩ := hrest
    rw [List.length_cons] at hdeepFirst hdeepSecond
    have hlength : (front ++ rest).length = front.length + (n + 1) := by
      rw [List.length_append, hrestLen]
    obtain ⟨i, hi⟩ := hkept d (front ++ rest) (by omega) (by omega) hin hout front rest rfl
      (List.ne_nil_of_length_pos (by omega))
      ⟨other, hotherLen.trans hrestLen.symm, checkInclusion_cons.mp hotherIn⟩
    refine ⟨i, fun tail htail => ?_⟩
    obtain ⟨hheld, hfree⟩ := hi tail (by omega)
    exact ⟨checkInclusion_cons.mpr hheld, Bool.eq_false_iff.mpr fun hcovers =>
      hfree (checkInclusion_cons.mp hcovers)⟩

end Difference

/-- Subtracting a tree of ranges is the difference of sets exactly when no node is left with
strings but without a wholly held digit. -/
theorem isDifference_iff (pairs pairs' : List (Nat × Nat))
    (hvalid : ∀ pair ∈ pairs, ValidPair pair) (hvalid' : ∀ pair ∈ pairs', ValidPair pair) :
    (∀ ds : List (Fin 10), checkInclusion ds (subTree (build pairs) (build pairs')) = true ↔
      Lib.PrefixCover.CoveredBy ((print (subTree (build pairs) (build pairs'))).map digits) ds) ∧
    (IsDifference (build pairs) (build pairs') ↔
      LeavesWholeDigit (build pairs) (build pairs')) := by
  have hlen : ∀ pair ∈ pairs ++ pairs', (digits pair.1).length ≤ longest (pairs ++ pairs') + 1 :=
    fun pair h => (le_longest h).trans (Nat.le_succ _)
  obtain ⟨hfirst, -⟩ := build_spec hvalid fun pair h => hlen pair (List.mem_append_left _ h)
  obtain ⟨hsecond, -⟩ := build_spec hvalid' fun pair h => hlen pair (List.mem_append_right _ h)
  have hzero := build_zero hvalid
  have hzero' := build_zero hvalid'
  have hsub : (print (subTree (build pairs) (build pairs'))).map digits =
      printed (subTree (build pairs) (build pairs')) :=
    map_digits_print (subTree_zero hzero hzero')
  constructor
  · intro ds
    rw [checkInclusion_iff, hsub]
  · rw [leavesWholeDigit_iff]
    unfold IsDifference
    simp only [hsub, map_digits_print hzero, map_digits_print hzero', ← checkInclusion_iff,
      Bool.not_eq_true]
    constructor
    · intro hdifference d ds hdeepFirst hdeepSecond hin hout
      have hkept := (hdifference (d :: ds) hdeepFirst hdeepSecond).mpr ⟨hin, hout⟩
      exact ((checkInclusion_subTree hfirst hsecond hdeepFirst hdeepSecond).mp hkept).2.2
    · intro hkept ds hdeepFirst hdeepSecond
      cases ds with
      | nil => exact absurd hdeepFirst (by simp [deepest, depth])
      | cons d ds =>
          rw [checkInclusion_subTree hfirst hsecond hdeepFirst hdeepSecond]
          constructor
          · exact fun h => ⟨h.1, h.2.1⟩
          · exact fun h => ⟨h.1, h.2, hkept d ds hdeepFirst hdeepSecond h.1 h.2⟩

/-- The numbers 110 to 129 are left of 100 to 129. -/
theorem isDifference_129_109 :
    IsDifference (build [(100, 129)]) (build [(100, 109)]) ∧
      print (subTree (build [(100, 129)]) (build [(100, 109)])) = [11, 12] := by
  have hsecond : ∀ d e, checkInclusion [d, e] (build [(100, 109)]) = true → d = 1 ∧ e = 0 := by
    decide +kernel
  have htwo : ∀ (d e : Fin 10) (tail : List (Fin 10)),
      checkInclusion (d :: e :: tail) (build [(100, 129)]) =
          checkInclusion [d, e] (build [(100, 129)]) ∧
        checkInclusion (d :: e :: tail) (build [(100, 109)]) =
          checkInclusion [d, e] (build [(100, 109)]) := by
    have hdeep : deepest (build [(100, 129)]) ≤ 2 ∧ deepest (build [(100, 109)]) ≤ 2 := by
      decide +kernel
    exact fun d e tail => ⟨@checkInclusion_append _ [d, e] hdeep.1 tail,
      @checkInclusion_append _ [d, e] hdeep.2 tail⟩
  refine ⟨?_, by decide +kernel⟩
  refine (isDifference_iff [(100, 129)] [(100, 109)] (by decide +kernel) (by decide +kernel)).2.mpr
    ?_
  rintro front n hne - - ⟨other, hother, hheld⟩ ⟨rest, -, -, hout⟩
  match front with
  | [] => exact absurd rfl hne
  | [d] =>
      -- under the digit 1 the second tree holds the digit 0 only
      obtain ⟨e, es, rfl⟩ := List.exists_cons_of_length_eq_add_one hother
      rw [List.singleton_append, (htwo d e es).2] at hheld
      obtain ⟨rfl, -⟩ := hsecond d e hheld
      refine ⟨1, fun tail _ => ?_⟩
      rw [List.singleton_append, (htwo 1 1 tail).1, (htwo 1 1 tail).2]
      decide +kernel
  | d :: e :: front =>
      rw [List.cons_append, List.cons_append, (htwo d e _).2] at hheld hout
      rw [hheld] at hout
      cases hout

/-- Without the number 100, the nine numbers from 101 to 109 are gone too. -/
theorem not_isDifference_109_100 :
    print (subTree (build [(100, 109)]) (build [(100, 100)])) = [] ∧
      ¬ IsDifference (build [(100, 109)]) (build [(100, 100)]) := by
  have hnothing : print (subTree (build [(100, 109)]) (build [(100, 100)])) = [] := by
    decide +kernel
  constructor
  · exact hnothing
  · intro hdifference
    have hkept := (hdifference [1, 0, 5] (by decide +kernel) (by decide +kernel)).mpr
      (by decide +kernel)
    rw [hnothing] at hkept
    obtain ⟨p, hp, -⟩ := hkept
    exact absurd hp (by simp)

end PrefixTree
end VoipBill
