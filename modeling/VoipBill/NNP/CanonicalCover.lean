import VoipBill.Lib.PrefixCover
import VoipBill.NNP.PrefixSets

/-!
# The cover a prefix tree prints

A tree that is built from ranges is canonical, whatever the lengths of the ranges and
their order, and a canonical tree is determined by the strings it holds.

* `build_spec`: what a tree of ranges holds;
* `Canonical.ext`: canonical trees with the same strings are equal, so neither the order
  of the ranges nor merging with `addTree` matters;
* `ascends_printed`, `tight_printed`: the printed prefixes ascend, and none of them could
  be shorter;
* `printed_canonicalCover`: the printed list is the canonical cover of the ranges.
-/

namespace VoipBill

open Lib.Digits Lib.PrefixCover

namespace PrefixNode

/-! ## Canonical trees -/

/-- A canonical tree is determined by the strings it holds. -/
theorem Canonical.ext {len : Nat} {t t' : PrefixNode} (h : Canonical len t)
    (h' : Canonical len t')
    (hsame : ∀ ds : List (Fin 10), ds.length = len → (t.Covers ds ↔ t'.Covers ds)) : t = t' := by
  induction h generalizing t' with
  | no len =>
      refine ((h'.eq_no_iff).mpr fun ds hds => ?_).symm
      rw [← hsame ds hds]
      simp
  | all len =>
      refine ((h'.eq_all_iff).mpr fun ds hds => ?_).symm
      rw [← hsame ds hds]
      simp
  | @node len child hchild hsome hnotall ih =>
      have hnode := Canonical.node hchild hsome hnotall
      cases h' with
      | no =>
          refine (hnode.eq_no_iff).mpr fun ds hds => ?_
          rw [hsame ds hds]
          simp
      | all =>
          refine (hnode.eq_all_iff).mpr fun ds hds => ?_
          rw [hsame ds hds]
          simp
      | @node _ child' hchild' hsome' hnotall' =>
          refine congrArg PrefixNode.node (funext fun i => ih i (hchild' i) fun ds hds => ?_)
          exact hsame (i :: ds) (by rw [List.length_cons, hds])

end PrefixNode

namespace PrefixTree

open PrefixNode

/-! ## A tree of ranges -/

/-- The tree after adding ranges, one after the other. -/
def build (pairs : List (Nat × Nat)) : PrefixChildren :=
  pairs.foldl (fun tree pair => addRangePair pair tree) empty

/-- The ends of a range are in order and have the same number of digits. -/
def ValidPair (pair : Nat × Nat) : Prop :=
  pair.1 ≤ pair.2 ∧ (digits pair.1).length = (digits pair.2).length

instance (pair : Nat × Nat) : Decidable (ValidPair pair) :=
  inferInstanceAs (Decidable (_ ∧ _))

/-- The leading digits of a string, as many as the ends of a range have, form a number
within the range. -/
def InRange (pair : Nat × Nat) (ds : List (Fin 10)) : Prop :=
  pair.1 ≤ value (ds.take (digits pair.1).length) ∧
    value (ds.take (digits pair.1).length) ≤ pair.2

theorem covers_addRangePair {pair : Nat × Nat} (hvalid : ValidPair pair) (tree : PrefixChildren)
    {d : Fin 10} {ds : List (Fin 10)} (hlen : (digits pair.1).length ≤ ds.length + 1) :
    (addRangePair pair tree d).Covers ds ↔ (tree d).Covers ds ∨ InRange pair (d :: ds) := by
  obtain ⟨k, hk⟩ : ∃ k, (digits pair.1).length = k + 1 :=
    Nat.exists_eq_succ_of_ne_zero fun h => digits_ne_nil pair.1 (List.length_eq_zero_iff.mp h)
  have htake : (ds.take k).length = k := List.length_take_of_le (by omega)
  have hhigh : (digits pair.2).length = (ds.take k).length + 1 := by rw [htake, ← hk, hvalid.2]
  have hlow : (digits pair.1).length = (ds.take k).length + 1 := by rw [htake, hk]
  have hle : value (digits pair.1) ≤ value (digits pair.2) := by
    rw [value_digits, value_digits]
    exact hvalid.1
  have hadd := covers_addRange_append (d := d) (ds.drop k) tree hhigh hlow hle
  rw [List.take_append_drop, value_digits, value_digits] at hadd
  rw [addRangePair, hadd, InRange, hk, List.take_succ_cons]

/-- **A tree of ranges** is canonical and holds the strings that start within one of
them. -/
theorem build_spec {pairs : List (Nat × Nat)} {len : Nat}
    (hvalid : ∀ pair ∈ pairs, ValidPair pair)
    (hlen : ∀ pair ∈ pairs, (digits pair.1).length ≤ len + 1) :
    (∀ i, Canonical len (build pairs i)) ∧
      ∀ (d : Fin 10) (ds : List (Fin 10)), len ≤ ds.length →
        ((build pairs d).Covers ds ↔ ∃ pair ∈ pairs, InRange pair (d :: ds)) := by
  induction pairs using List.reverseRecOn with
  | nil =>
      refine ⟨fun i => .no len, fun d ds _ => ?_⟩
      simp [build, empty]
  | append_singleton pairs pair ih =>
      obtain ⟨hcanonical, hcovers⟩ := ih (fun p hp => hvalid p (List.mem_append_left _ hp))
        fun p hp => hlen p (List.mem_append_left _ hp)
      have hpair := hvalid pair (by simp)
      have hpairLen := hlen pair (by simp)
      have hbuild : build (pairs ++ [pair]) = addRangePair pair (build pairs) := by
        simp [build]
      rw [hbuild]
      refine ⟨fun i => ?_, fun d ds hds => ?_⟩
      · refine canonical_addRange (hpair.2 ▸ hpairLen) hpair.2 ?_ hcanonical i
        rw [value_digits, value_digits]
        exact hpair.1
      · rw [covers_addRangePair hpair _ (by omega), hcovers d ds hds]
        simp only [List.mem_append, List.mem_singleton, or_and_right, exists_or, exists_eq_left]

/-! ## Merging trees -/

theorem covers_addNode {len : Nat} {input output : PrefixNode} (hinput : Canonical len input)
    (houtput : Canonical len output) {ds : List (Fin 10)} (hlen : ds.length = len) :
    (addNode input output).Covers ds ↔ output.Covers ds ∨ input.Covers ds := by
  induction hinput generalizing output ds with
  | no len => simp [addNode]
  | all len => simp [addNode]
  | @node len input hchild _ _ ih =>
      obtain ⟨d, ds, rfl⟩ := List.exists_cons_of_length_eq_add_one hlen
      have hds : ds.length = len := by simpa using hlen
      cases houtput with
      | no =>
          rw [addNode, covers_collapse, ih d (.no len) hds]
          simp
      | all => simp [addNode]
      | node houtput _ _ => rw [addNode, covers_collapse, ih d (houtput d) hds]; rfl

theorem addNode_ne_no {len : Nat} {input : PrefixNode} (hinput : Canonical len input)
    (hne : input ≠ .no) {output : PrefixNode} (houtput : Canonical len output) :
    addNode input output ≠ .no := by
  obtain ⟨ds, hds, hcovers⟩ := hinput.exists_covers hne
  exact ne_no_of_covers ((covers_addNode hinput houtput hds).mpr (Or.inr hcovers))

theorem canonical_addNode {len : Nat} {input output : PrefixNode} (hinput : Canonical len input)
    (houtput : Canonical len output) : Canonical len (addNode input output) := by
  induction hinput generalizing output with
  | no len =>
      rw [addNode]
      exact houtput
  | all len => exact .all len
  | @node len input hchild hsome _ ih =>
      obtain ⟨i, hi⟩ := hsome
      cases houtput with
      | no =>
          exact canonical_collapse (fun i => ih i (.no len))
            ⟨i, addNode_ne_no (hchild i) hi (.no len)⟩
      | all => exact .all _
      | node houtput _ _ =>
          exact canonical_collapse (fun i => ih i (houtput i))
            ⟨i, addNode_ne_no (hchild i) hi (houtput i)⟩

/-- The number of digits of the longest ends. -/
def longest (pairs : List (Nat × Nat)) : Nat :=
  (pairs.map fun pair => (digits pair.1).length).foldr max 0

theorem le_longest {pairs : List (Nat × Nat)} {pair : Nat × Nat} (h : pair ∈ pairs) :
    (digits pair.1).length ≤ longest pairs := by
  induction pairs with
  | nil => exact absurd h (by simp)
  | cons first pairs ih =>
      rw [longest, List.map_cons, List.foldr_cons]
      rcases List.mem_cons.mp h with rfl | hrest
      · exact le_max_left _ _
      · exact (ih hrest).trans (le_max_right _ _)

/-- Trees with the same ranges, whatever their order, are equal. -/
theorem build_congr {pairs pairs' : List (Nat × Nat)} (hvalid : ∀ pair ∈ pairs, ValidPair pair)
    (hsame : ∀ pair, pair ∈ pairs' ↔ pair ∈ pairs) : build pairs' = build pairs := by
  have hlen : ∀ pair ∈ pairs, (digits pair.1).length ≤ longest pairs + 1 := fun pair h =>
    (le_longest h).trans (Nat.le_succ _)
  obtain ⟨hcanonical, hcovers⟩ := build_spec hvalid hlen
  obtain ⟨hcanonical', hcovers'⟩ := build_spec (fun pair h => hvalid pair ((hsame pair).mp h))
    fun pair h => hlen pair ((hsame pair).mp h)
  funext i
  refine (hcanonical' i).ext (hcanonical i) fun ds hds => ?_
  rw [hcovers' i ds hds.ge, hcovers i ds hds.ge]
  simp only [hsame]

/-- **Merging** the trees of two lists of ranges gives the tree of both lists. -/
theorem addTree_build {pairs pairs' : List (Nat × Nat)} (hvalid : ∀ pair ∈ pairs, ValidPair pair)
    (hvalid' : ∀ pair ∈ pairs', ValidPair pair) :
    addTree (build pairs) (build pairs') = build (pairs ++ pairs') := by
  have hlen : ∀ pair ∈ pairs ++ pairs', (digits pair.1).length ≤ longest (pairs ++ pairs') + 1 :=
    fun pair h => (le_longest h).trans (Nat.le_succ _)
  obtain ⟨hcanonical, hcovers⟩ := build_spec hvalid fun pair h =>
    hlen pair (List.mem_append_left _ h)
  obtain ⟨hcanonical', hcovers'⟩ := build_spec hvalid' fun pair h =>
    hlen pair (List.mem_append_right _ h)
  obtain ⟨hboth, hbothCovers⟩ := build_spec (fun pair h => by
    rcases List.mem_append.mp h with h | h
    · exact hvalid pair h
    · exact hvalid' pair h) hlen
  funext i
  refine (canonical_addNode (hcanonical' i) (hcanonical i)).ext (hboth i) fun ds hds => ?_
  rw [covers_addNode (hcanonical' i) (hcanonical i) hds, hcovers i ds hds.ge,
    hcovers' i ds hds.ge, hbothCovers i ds hds.ge]
  simp only [List.mem_append, or_and_right, exists_or]

/-! ## The printed prefixes -/

/-- The digits of the printed prefixes. -/
def printed (tree : PrefixChildren) : List (List (Fin 10)) :=
  (List.finRange 10).flatMap fun j => printNode (tree j) [j]

theorem mem_printed_iff {tree : PrefixChildren} {p : List (Fin 10)} :
    p ∈ printed tree ↔ ∃ j, p ∈ printNode (tree j) [j] := by
  simp [printed]

theorem ne_nil_of_mem_printed {tree : PrefixChildren} {p : List (Fin 10)}
    (h : p ∈ printed tree) : p ≠ [] := by
  obtain ⟨j, hj⟩ := mem_printed_iff.mp h
  rintro rfl
  have hprefix := prefix_of_mem_printNode hj
  simp at hprefix

/-- Prefixes below different children ascend with the digits of the children. -/
theorem ascends_of_children {array p q : List (Fin 10)} {j k : Fin 10} (hjk : j < k)
    {t t' : PrefixNode} (hp : p ∈ printNode t (array ++ [j]))
    (hq : q ∈ printNode t' (array ++ [k])) : Ascends p q := by
  obtain ⟨p', rfl⟩ := prefix_of_mem_printNode hp
  obtain ⟨q', rfl⟩ := prefix_of_mem_printNode hq
  exact ⟨array, j, k, p', q', by simp, by simp, hjk⟩

theorem ascends_flatMap {array : List (Fin 10)} {child : PrefixChildren}
    (h : ∀ j, (printNode (child j) (array ++ [j])).Pairwise Ascends) :
    ((List.finRange 10).flatMap fun j => printNode (child j) (array ++ [j])).Pairwise Ascends := by
  rw [List.pairwise_flatMap]
  refine ⟨fun j _ => h j, ?_⟩
  exact (List.pairwise_lt_finRange 10).imp fun hjk p hp q hq => ascends_of_children hjk hp hq

theorem ascends_printNode (t : PrefixNode) (array : List (Fin 10)) :
    (printNode t array).Pairwise Ascends := by
  induction t generalizing array with
  | no => exact List.Pairwise.nil
  | all => exact List.pairwise_singleton _ _
  | node child ih => exact ascends_flatMap fun j => ih j (array ++ [j])

theorem ascends_printed (tree : PrefixChildren) : (printed tree).Pairwise Ascends :=
  @ascends_flatMap [] tree fun j => ascends_printNode (tree j) [j]

theorem prefixFree_printed (tree : PrefixChildren) : PrefixFree (printed tree) :=
  (ascends_printed tree).imp Ascends.not_prefix

theorem coveredBy_printed_cons {tree : PrefixChildren} {d : Fin 10} {ds : List (Fin 10)} :
    CoveredBy (printed tree) (d :: ds) ↔ (tree d).Covers ds := by
  rw [← @exists_mem_printNode_iff (tree d) [d] ds]
  constructor
  · rintro ⟨p, hp, hprefix⟩
    obtain ⟨j, hj⟩ := mem_printed_iff.mp hp
    have hfirst := (prefix_of_mem_printNode hj).trans hprefix
    obtain rfl : j = d := by simpa using hfirst
    exact ⟨p, hj, hprefix⟩
  · rintro ⟨p, hp, hprefix⟩
    exact ⟨p, mem_printed_iff.mpr ⟨d, hp⟩, hprefix⟩

/-- Above a printed prefix the tree branches: some string is not held. -/
theorem exists_not_covers_above {len : Nat} {t : PrefixNode} (h : Canonical len t)
    {array p' q' : List (Fin 10)} (hp : array ++ p' ∈ printNode t array) (hq : q' <+: p')
    (hne : q' ≠ p') : ∃ rest : List (Fin 10), (q' ++ rest).length = len ∧
      ¬ t.Covers (q' ++ rest) := by
  induction h generalizing array p' q' with
  | no len => simp [printNode] at hp
  | all len =>
      have hp' : p' = [] := by simpa [printNode] using hp
      rw [hp', List.prefix_nil] at hq
      exact absurd (hq.trans hp'.symm) hne
  | @node len child hchild hsome hnotall ih =>
      cases q' with
      | nil => exact (Canonical.node hchild hsome hnotall).exists_not_covers (by simp)
      | cons d q' =>
          obtain ⟨p', rfl⟩ := hq
          simp only [printNode, List.mem_flatMap, List.mem_finRange, true_and] at hp
          obtain ⟨j, hj⟩ := hp
          have hstep : array ++ (d :: q' ++ p') = array ++ [d] ++ (q' ++ p') := by simp
          rw [hstep] at hj
          have hfirst := prefix_of_mem_printNode hj
          rw [List.append_assoc, List.prefix_append_right_inj] at hfirst
          obtain rfl : j = d := by simpa using hfirst
          obtain ⟨rest, hlen, hnot⟩ := ih j hj (List.prefix_append q' p')
            fun heq => hne (by rw [List.cons_append, ← heq])
          exact ⟨rest, by rw [List.cons_append, List.length_cons, hlen], hnot⟩

theorem tight_printed {tree : PrefixChildren} {len : Nat} (h : ∀ i, Canonical len (tree i)) :
    Tight (len + 1) (printed tree) := by
  intro p hp q hq hne hnil
  obtain ⟨j, hj⟩ := mem_printed_iff.mp hp
  obtain ⟨p', rfl⟩ := prefix_of_mem_printNode hj
  obtain ⟨d, q', rfl⟩ := List.exists_cons_of_ne_nil hnil
  rw [List.singleton_append, List.cons_prefix_cons] at hq
  obtain ⟨rfl, hq⟩ := hq
  obtain ⟨rest, hlen, hnot⟩ := exists_not_covers_above (h d) hj hq fun heq => hne (by rw [heq]; rfl)
  refine ⟨d :: (q' ++ rest), by rw [List.length_cons, hlen], ?_, ?_⟩
  · exact List.prefix_append (d :: q') rest
  · rw [coveredBy_printed_cons]
    exact hnot

/-! ## Printed numbers -/

/-- A range that holds a string with a leading zero starts at zero. -/
theorem inRange_zero_cons_iff {pair : Nat × Nat} {ds : List (Fin 10)} :
    InRange pair (0 :: ds) ↔ pair.1 = 0 := by
  obtain ⟨k, hk⟩ : ∃ k, (digits pair.1).length = k + 1 :=
    Nat.exists_eq_succ_of_ne_zero fun h => digits_ne_nil pair.1 (List.length_eq_zero_iff.mp h)
  have hvalue : value ((0 :: ds).take (k + 1)) = value (ds.take k) := by
    rw [List.take_succ_cons, value_cons, Fin.val_zero, Nat.zero_mul, Nat.zero_add]
  rw [InRange, hk, hvalue]
  constructor
  · rintro ⟨hfrom, -⟩
    have hlt : value (ds.take k) < 10 ^ k :=
      (value_lt _).trans_le (Nat.pow_le_pow_right (by norm_num) (List.length_take_le k ds))
    by_cases hpos : 0 < k
    · have hpow := pow_le_of_length hk hpos
      omega
    · obtain rfl : k = 0 := by omega
      simpa using hfrom
  · intro hzero
    rw [hzero, digits_of_lt (by norm_num)] at hk
    obtain rfl : k = 0 := by simpa using hk.symm
    rw [hzero, List.take_zero, value_nil]
    exact ⟨le_rfl, Nat.zero_le _⟩

/-- No number but zero starts with a zero: all or nothing is held below it. -/
theorem build_zero {pairs : List (Nat × Nat)} (hvalid : ∀ pair ∈ pairs, ValidPair pair) :
    build pairs 0 = .no ∨ build pairs 0 = .all := by
  obtain ⟨hcanonical, hcovers⟩ := build_spec hvalid fun pair h =>
    (le_longest h).trans (Nat.le_succ (longest pairs))
  by_cases hzero : ∃ pair ∈ pairs, pair.1 = 0
  · refine Or.inr ((hcanonical 0).eq_all_iff.mpr fun ds hds => ?_)
    obtain ⟨pair, hpair, heq⟩ := hzero
    exact (hcovers 0 ds hds.ge).mpr ⟨pair, hpair, inRange_zero_cons_iff.mpr heq⟩
  · refine Or.inl ((hcanonical 0).eq_no_iff.mpr fun ds hds => ?_)
    rw [hcovers 0 ds hds.ge]
    rintro ⟨pair, hpair, hin⟩
    exact hzero ⟨pair, hpair, inRange_zero_cons_iff.mp hin⟩

/-- What is held below a zero stays all or nothing when a tree is subtracted. -/
theorem subTree_zero {first second : PrefixChildren}
    (hfirst : first 0 = .no ∨ first 0 = .all)
    (hsecond : second 0 = .no ∨ second 0 = .all) :
    subTree first second 0 = .no ∨ subTree first second 0 = .all := by
  rw [subTree]
  rcases hsecond with h | h
  · rw [h, subNode]
    exact hfirst
  · rw [h, subNode]
    exact Or.inl rfl

theorem proper_of_mem_printed {tree : PrefixChildren} (h : tree 0 = .no ∨ tree 0 = .all)
    {p : List (Fin 10)} (hp : p ∈ printed tree) : Proper p := by
  obtain ⟨j, hj⟩ := mem_printed_iff.mp hp
  by_cases hzero : j = 0
  · subst hzero
    rcases h with h | h
    · rw [h, printNode] at hj
      exact absurd hj (by simp)
    · rw [h, printNode, List.mem_singleton] at hj
      rw [hj]
      exact Or.inl rfl
  · obtain ⟨rest, rfl⟩ := prefix_of_mem_printNode hj
    exact Or.inr ⟨by simpa using hzero, by simp⟩

/-- The printed numbers, digit by digit. -/
theorem map_digits_print {tree : PrefixChildren} (h : tree 0 = .no ∨ tree 0 = .all) :
    (print tree).map digits = printed tree := by
  change ((printed tree).map value).map digits = printed tree
  rw [List.map_map]
  exact (List.map_congr_left fun p hp => digits_value (proper_of_mem_printed h hp)).trans
    (List.map_id _)

/-! ## The canonical cover -/

/-- What the ranges hold, for strings that are long enough to be decided. -/
theorem coveredBy_printed_iff {pairs : List (Nat × Nat)} (hvalid : ∀ pair ∈ pairs, ValidPair pair)
    {ds : List (Fin 10)} (hlen : ∀ pair ∈ pairs, (digits pair.1).length ≤ ds.length) :
    CoveredBy (printed (build pairs)) ds ↔ ∃ pair ∈ pairs, InRange pair ds := by
  cases ds with
  | nil =>
      constructor
      · rintro ⟨p, hp, hprefix⟩
        exact absurd (List.prefix_nil.mp hprefix) (ne_nil_of_mem_printed hp)
      · rintro ⟨pair, hpair, -⟩
        have hzero := hlen pair hpair
        exact absurd (List.length_eq_zero_iff.mp (by simpa using hzero)) (digits_ne_nil pair.1)
  | cons d ds =>
      rw [coveredBy_printed_cons]
      exact (build_spec hvalid hlen).2 d ds le_rfl

/-- The printed list of a tree of ranges is prefix-free, ascending and the shortest list of
non-empty prefixes that covers the strings starting within a range; it does not depend on
the order of the ranges, and merging two trees gives the tree of the ranges of both. -/
theorem printed_canonicalCover (pairs : List (Nat × Nat))
    (hvalid : ∀ pair ∈ pairs, ValidPair pair) :
    let cover := (print (build pairs)).map digits
    let LongEnough := fun ds : List (Fin 10) => ∀ pair ∈ pairs, (digits pair.1).length ≤ ds.length
    PrefixFree cover ∧ cover.Pairwise (· < ·) ∧ (∀ p ∈ cover, p ≠ []) ∧
    (∀ ds, LongEnough ds → (CoveredBy cover ds ↔ ∃ pair ∈ pairs, InRange pair ds)) ∧
    (∀ other : List (List (Fin 10)), (∀ q ∈ other, q ≠ []) →
      (∀ ds, LongEnough ds → (CoveredBy other ds ↔ ∃ pair ∈ pairs, InRange pair ds)) →
      cover.length ≤ other.length) ∧
    (∀ pairs' : List (Nat × Nat), pairs'.Perm pairs → print (build pairs') = print (build pairs)) ∧
    ∀ pairs' : List (Nat × Nat), (∀ pair ∈ pairs', ValidPair pair) →
      addTree (build pairs) (build pairs') = build (pairs ++ pairs') := by
  intro cover LongEnough
  have hcover : cover = printed (build pairs) := map_digits_print (build_zero hvalid)
  rw [hcover]
  refine ⟨prefixFree_printed _, (ascends_printed _).imp Ascends.lt,
    fun p hp => ne_nil_of_mem_printed hp, fun ds hlen => coveredBy_printed_iff hvalid hlen, ?_, ?_,
    fun pairs' hvalid' => addTree_build hvalid hvalid'⟩
  · intro other hother hsame
    obtain ⟨hcanonical, -⟩ := build_spec hvalid fun pair h =>
      (le_longest h).trans (Nat.le_succ (longest pairs))
    refine length_le_of_tight (prefixFree_printed _) (tight_printed hcanonical) hother ?_
    intro word hword
    have hlong : LongEnough word := fun pair h => (le_longest h).trans (by omega)
    rw [hsame word hlong, coveredBy_printed_iff hvalid hlong]
  · intro pairs' hperm
    rw [build_congr hvalid fun pair => hperm.mem_iff]

/-- A range of two digits and one of three that overlap. -/
theorem printed_canonicalCover_two :
    PrefixFree ((print (build [(10, 19), (195, 204)])).map digits) :=
  (printed_canonicalCover [(10, 19), (195, 204)] (by decide +kernel)).1

end PrefixTree
end VoipBill
