import VoipBill.Model.PrefixTree

/-!
# What numbers a prefix tree holds

A tree holds digit strings of one length.  Trees that are built by adding ranges are
`Canonical`: a node holds some strings and not all of them.  On canonical trees the
operations are operations on sets of digit strings:

* `covers_addRange_append`: adding a range adds the strings whose leading digits are
  between its ends;
* `covers_subTree`: subtracting a tree takes its strings out, and more: a node that is
  left without an `ALL` child is dropped, so a string is `Kept` only if each of its
  prefixes that the other tree touches has a next digit that is all in the one tree
  and not in the other;
* `exists_mem_printNode_iff`: the prefixes that are printed are those of the strings held.
-/

namespace VoipBill

open Lib.Digits

namespace PrefixNode

/-- The subtree holds a digit string. -/
def Covers : PrefixNode → List (Fin 10) → Prop
  | no, _ => False
  | all, _ => True
  | node _, [] => False
  | node child, d :: ds => Covers (child d) ds

@[simp] theorem covers_no (ds : List (Fin 10)) : Covers no ds ↔ False := by
  cases ds <;> rfl

@[simp] theorem covers_all (ds : List (Fin 10)) : Covers all ds ↔ True := by
  cases ds <;> rfl

@[simp] theorem covers_node_cons (child : PrefixChildren) (d : Fin 10) (ds : List (Fin 10)) :
    Covers (node child) (d :: ds) ↔ Covers (child d) ds := Iff.rfl

/-- A subtree over strings of length `len` in which every node holds some strings, and
not all. -/
inductive Canonical : Nat → PrefixNode → Prop
  | no (len : Nat) : Canonical len no
  | all (len : Nat) : Canonical len all
  | node {len : Nat} {child : PrefixChildren} (hchild : ∀ i, Canonical len (child i))
      (hsome : ∃ i, child i ≠ .no) (hnotall : ∃ i, child i ≠ .all) :
      Canonical (len + 1) (node child)

/-- A canonical subtree that is not `NO` holds a string. -/
theorem Canonical.exists_covers {len : Nat} {t : PrefixNode} (h : Canonical len t)
    (hne : t ≠ .no) : ∃ ds : List (Fin 10), ds.length = len ∧ t.Covers ds := by
  induction h with
  | no len => exact absurd rfl hne
  | all len => exact ⟨List.replicate len 0, by simp⟩
  | node hchild hsome _ ih =>
      obtain ⟨i, hi⟩ := hsome
      obtain ⟨ds, hlen, hcovers⟩ := ih i hi
      exact ⟨i :: ds, by simp [hlen], hcovers⟩

/-- A canonical subtree that is not `ALL` misses one. -/
theorem Canonical.exists_not_covers {len : Nat} {t : PrefixNode} (h : Canonical len t)
    (hne : t ≠ .all) : ∃ ds : List (Fin 10), ds.length = len ∧ ¬ t.Covers ds := by
  induction h with
  | no len => exact ⟨List.replicate len 0, by simp⟩
  | all len => exact absurd rfl hne
  | node hchild _ hnotall ih =>
      obtain ⟨i, hi⟩ := hnotall
      obtain ⟨ds, hlen, hcovers⟩ := ih i hi
      exact ⟨i :: ds, by simp [hlen], hcovers⟩

theorem Canonical.eq_no_iff {len : Nat} {t : PrefixNode} (h : Canonical len t) :
    t = .no ↔ ∀ ds : List (Fin 10), ds.length = len → ¬ t.Covers ds := by
  constructor
  · rintro rfl ds -
    simp
  · intro hempty
    by_contra hne
    obtain ⟨ds, hlen, hcovers⟩ := h.exists_covers hne
    exact hempty ds hlen hcovers

theorem Canonical.eq_all_iff {len : Nat} {t : PrefixNode} (h : Canonical len t) :
    t = .all ↔ ∀ ds : List (Fin 10), ds.length = len → t.Covers ds := by
  constructor
  · rintro rfl ds -
    simp
  · intro hfull
    by_contra hne
    obtain ⟨ds, hlen, hcovers⟩ := h.exists_not_covers hne
    exact hcovers (hfull ds hlen)

@[simp] theorem isAll_eq_true {t : PrefixNode} : t.isAll = true ↔ t = all := by
  cases t <;> simp [isAll]

end PrefixNode

namespace PrefixTree

open PrefixNode

/-! ## Counting `ALL` children -/

theorem getCount_eq_zero_iff (child : PrefixChildren) :
    getCount child = 0 ↔ ∀ i, child i ≠ .all := by
  simp [getCount, List.filter_eq_nil_iff]

theorem getCount_eq_ten_iff (child : PrefixChildren) :
    getCount child = 10 ↔ ∀ i, child i = .all := by
  have hlength : (List.finRange 10).length = 10 := List.length_finRange
  unfold getCount
  constructor
  · intro h i
    have hall := List.length_filter_eq_length_iff.mp (h.trans hlength.symm)
    exact isAll_eq_true.mp (hall i (List.mem_finRange i))
  · intro h
    rw [List.filter_eq_self.mpr (fun i _ => isAll_eq_true.mpr (h i)), hlength]

/-! ## Adding a range -/

@[simp] theorem covers_collapse (child : PrefixChildren) (d : Fin 10) (ds : List (Fin 10)) :
    (collapse child).Covers (d :: ds) ↔ (child d).Covers ds := by
  unfold collapse
  split
  case isTrue hcount =>
    rw [(getCount_eq_ten_iff child).mp hcount d]
    simp
  case isFalse => simp

/-- A changed node holds what the change adds to the string below. -/
theorem covers_below {f : PrefixChildren → PrefixChildren} {t : PrefixNode} {d : Fin 10}
    {ds : List (Fin 10)} {p : Prop}
    (hf : ∀ child, (f child d).Covers ds ↔ (child d).Covers ds ∨ p) :
    (below f t).Covers (d :: ds) ↔ t.Covers (d :: ds) ∨ p := by
  cases t with
  | no =>
      rw [below, covers_collapse, hf empty]
      simp [empty]
  | all => simp [below]
  | node child => rw [below, covers_collapse, hf child, covers_node_cons]

@[simp] theorem set_same (child : PrefixChildren) (i : Fin 10) (t : PrefixNode) :
    set child i t i = t := by
  simp [set]

theorem set_other (child : PrefixChildren) {i j : Fin 10} (t : PrefixNode) (h : j ≠ i) :
    set child i t j = child j := by
  simp [set, h]

theorem covers_setAllIf (child : PrefixChildren) (p : Fin 10 → Bool) (d : Fin 10)
    (ds : List (Fin 10)) :
    (setAllIf child p d).Covers ds ↔ (child d).Covers ds ∨ p d = true := by
  rw [setAllIf]
  cases p d with
  | true => simp
  | false => simp

theorem covers_rangeUp_append {low ds : List (Fin 10)} {d : Fin 10} (back : List (Fin 10))
    (child : PrefixChildren) (h : low.length = ds.length + 1) :
    (rangeUp low child d).Covers (ds ++ back) ↔
      (child d).Covers (ds ++ back) ∨ value low ≤ value (d :: ds) := by
  induction low generalizing ds d child with
  | nil => simp at h
  | cons l ls ih =>
      have hlen : ls.length = ds.length := by simpa using h
      rw [value_cons_le_iff hlen]
      simp only [rangeUp, setAllIf]
      by_cases hlt : l < d
      · simp [hlt]
      · by_cases heq : l = d
        · subst heq
          simp only [hlt, decide_false, if_false, set_same, Bool.false_eq_true, true_and, false_or]
          cases ls with
          | nil =>
              have hnil : ds = [] := List.length_eq_zero_iff.mp hlen.symm
              simp [hnil]
          | cons l' ls =>
              obtain ⟨e, es, rfl⟩ := List.exists_cons_of_length_eq_add_one hlen.symm
              rw [if_neg (by simp)]
              exact covers_below fun child => ih child hlen
        · simp [hlt, heq, set_other _ _ (Ne.symm heq)]

theorem covers_rangeDown_append {high ds : List (Fin 10)} {d : Fin 10} (back : List (Fin 10))
    (child : PrefixChildren) (h : high.length = ds.length + 1) :
    (rangeDown high child d).Covers (ds ++ back) ↔
      (child d).Covers (ds ++ back) ∨ value (d :: ds) ≤ value high := by
  induction high generalizing ds d child with
  | nil => simp at h
  | cons u us ih =>
      have hlen : us.length = ds.length := by simpa using h
      rw [value_cons_le_iff hlen.symm]
      simp only [rangeDown, setAllIf]
      by_cases hlt : d < u
      · simp [hlt]
      · by_cases heq : d = u
        · subst heq
          simp only [hlt, decide_false, if_false, set_same, Bool.false_eq_true, true_and, false_or]
          cases us with
          | nil =>
              have hnil : ds = [] := List.length_eq_zero_iff.mp hlen.symm
              simp [hnil]
          | cons u' us =>
              obtain ⟨e, es, rfl⟩ := List.exists_cons_of_length_eq_add_one hlen.symm
              rw [if_neg (by simp)]
              exact covers_below fun child => ih child hlen
        · simp [hlt, heq, set_other _ _ heq]

/-- A range whose ends are single digits. -/
theorem covers_addRange_digit {h l : Fin 10} (hlt : l < h) (child : PrefixChildren) (d : Fin 10)
    (ds : List (Fin 10)) :
    (addRange [h] [l] child d).Covers ds ↔ (child d).Covers ds ∨ l ≤ d ∧ d ≤ h := by
  rw [addRange, if_neg hlt.ne', if_pos rfl]
  by_cases hdl : d = l
  · subst hdl
    simp [hlt.le]
  rw [set_other _ _ hdl]
  by_cases hdh : d = h
  · subst hdh
    simp [hlt.le]
  rw [set_other _ _ hdh, covers_setAllIf, Bool.and_eq_true, decide_eq_true_eq, decide_eq_true_eq,
    lt_iff_le_and_ne, lt_iff_le_and_ne, and_iff_left (Ne.symm hdl), and_iff_left hdh]

/-- A range whose ends begin with different digits: all that begins with a digit in between,
and the strings above the lower and below the upper end. -/
theorem covers_addRange_ends {h l d : Fin 10} {hs ls ds : List (Fin 10)} (hlt : l < h)
    (back : List (Fin 10)) (child : PrefixChildren) (hhs : hs.length = ds.length)
    (hls : ls.length = ds.length) (hne : ds ≠ []) :
    (addRange (h :: hs) (l :: ls) child d).Covers (ds ++ back) ↔
      (child d).Covers (ds ++ back) ∨
        value (l :: ls) ≤ value (d :: ds) ∧ value (d :: ds) ≤ value (h :: hs) := by
  obtain ⟨e, es, rfl⟩ := List.exists_cons_of_ne_nil hne
  have hnil : hs ≠ [] := List.ne_nil_of_length_eq_add_one hhs
  rw [value_cons_le_iff hls, value_cons_le_iff hhs.symm, addRange, if_neg hlt.ne', if_neg hnil]
  by_cases hdl : d = l
  · -- below the first digit of the lower end
    subst hdl
    rw [set_same, set_other _ _ hlt.ne, setAllIf, if_neg (by simp)]
    simp only [lt_irrefl, hlt, false_or, true_and, true_or, and_true]
    exact covers_below fun child => covers_rangeUp_append back child hls
  rw [set_other _ _ hdl]
  by_cases hdh : d = h
  · -- below the first digit of the upper end
    subst hdh
    rw [set_same, setAllIf, if_neg (by simp)]
    simp only [lt_irrefl, hlt, false_or, true_and, true_or]
    exact covers_below fun child => covers_rangeDown_append back child hhs
  have hne : ¬ l = d := fun heq => hdl heq.symm
  rw [set_other _ _ hdh, covers_setAllIf, Bool.and_eq_true, decide_eq_true_eq, decide_eq_true_eq]
  simp only [hdh, hne, false_and, or_false]

/-- **Adding a range** adds the strings whose leading digits are between its ends. -/
theorem covers_addRange_append {high low ds : List (Fin 10)} {d : Fin 10}
    (back : List (Fin 10)) (child : PrefixChildren)
    (hhigh : high.length = ds.length + 1) (hlow : low.length = ds.length + 1)
    (hle : value low ≤ value high) :
    (addRange high low child d).Covers (ds ++ back) ↔
      (child d).Covers (ds ++ back) ∨
        value low ≤ value (d :: ds) ∧ value (d :: ds) ≤ value high := by
  induction high generalizing low ds d child with
  | nil => simp at hhigh
  | cons h hs ih =>
      obtain ⟨l, ls, rfl⟩ := List.exists_cons_of_length_eq_add_one hlow
      have hhs : hs.length = ds.length := by simpa using hhigh
      have hls : ls.length = ds.length := by simpa using hlow
      rw [value_cons_le_iff (hls.trans hhs.symm)] at hle
      -- the ends of the range part at the first digit, or agree on it
      rcases hle with hlt | ⟨rfl, hrest⟩
      · cases ds with
        | nil =>
            obtain rfl := List.length_eq_zero_iff.mp hhs
            obtain rfl := List.length_eq_zero_iff.mp hls
            rw [covers_addRange_digit hlt, value_cons_le_iff rfl, value_cons_le_iff rfl]
            simp only [value_nil, le_refl, and_true, le_iff_lt_or_eq]
        | cons e es => exact covers_addRange_ends hlt back child hhs hls (by simp)
      · -- both ends start with the same digit
        rw [value_cons_le_iff hls, value_cons_le_iff hhs.symm, addRange, if_pos rfl]
        by_cases hd : d = l
        · subst hd
          simp only [set_same, lt_irrefl, false_or, true_and]
          cases hs with
          | nil =>
              have hnil : ds = [] := List.length_eq_zero_iff.mp hhs.symm
              have hnil' : ls = [] := List.length_eq_zero_iff.mp (by rw [hls, hnil]; rfl)
              simp [hnil, hnil']
          | cons h' hs =>
              obtain ⟨e, es, rfl⟩ := List.exists_cons_of_length_eq_add_one hhs.symm
              rw [if_neg (by simp)]
              exact covers_below fun child => ih child hhs hls hrest
        · rw [set_other _ _ hd]
          constructor
          · exact Or.inl
          · rintro (hcovers | ⟨hl | ⟨hl, -⟩, hh | ⟨hh, -⟩⟩)
            · exact hcovers
            · exact absurd hl (not_lt_of_gt hh)
            · exact absurd hh hd
            · exact absurd hl.symm hd
            · exact absurd hh hd

/-! ## Canonical trees -/

theorem canonical_collapse {len : Nat} {child : PrefixChildren}
    (hchild : ∀ i, Canonical len (child i)) (hsome : ∃ i, child i ≠ .no) :
    Canonical (len + 1) (collapse child) := by
  unfold collapse
  split
  case isTrue => exact Canonical.all _
  case isFalse hcount =>
    refine Canonical.node hchild hsome ?_
    by_contra hall
    simp only [not_exists, not_not] at hall
    exact hcount ((getCount_eq_ten_iff child).mpr hall)

theorem ne_no_of_covers {t : PrefixNode} {ds : List (Fin 10)} (h : t.Covers ds) : t ≠ .no := by
  rintro rfl
  simp at h

/-- A change below a child keeps a tree canonical if it adds something. -/
theorem canonical_below {len : Nat} {f : PrefixChildren → PrefixChildren} {t : PrefixNode}
    (hf : ∀ child, (∀ i, Canonical len (child i)) → ∀ i, Canonical len (f child i))
    (hsome : ∀ child, ∃ i, f child i ≠ .no) (ht : Canonical (len + 1) t) :
    Canonical (len + 1) (below f t) := by
  cases ht with
  | no => exact canonical_collapse (hf empty fun i => Canonical.no len) (hsome empty)
  | all => exact Canonical.all _
  | node hchild _ _ => exact canonical_collapse (hf _ hchild) (hsome _)

theorem canonical_set {len : Nat} {child : PrefixChildren} (hchild : ∀ i, Canonical len (child i))
    (j : Fin 10) {t : PrefixNode} (ht : Canonical len t) (i : Fin 10) :
    Canonical len (set child j t i) := by
  by_cases h : i = j
  · subst h
    rw [set_same]
    exact ht
  · rw [set_other _ _ h]
    exact hchild i

theorem canonical_setAllIf {len : Nat} {child : PrefixChildren}
    (hchild : ∀ i, Canonical len (child i)) (p : Fin 10 → Bool) (i : Fin 10) :
    Canonical len (setAllIf child p i) := by
  unfold setAllIf
  split
  · exact Canonical.all len
  · exact hchild i

theorem exists_rangeUp_ne_no {low : List (Fin 10)} (hne : low ≠ []) (child : PrefixChildren) :
    ∃ i, rangeUp low child i ≠ .no := by
  obtain ⟨l, ls, rfl⟩ := List.exists_cons_of_ne_nil hne
  exact ⟨l, ne_no_of_covers ((covers_rangeUp_append [] child rfl).mpr (Or.inr le_rfl))⟩

theorem exists_rangeDown_ne_no {high : List (Fin 10)} (hne : high ≠ []) (child : PrefixChildren) :
    ∃ i, rangeDown high child i ≠ .no := by
  obtain ⟨h, hs, rfl⟩ := List.exists_cons_of_ne_nil hne
  exact ⟨h, ne_no_of_covers ((covers_rangeDown_append [] child rfl).mpr (Or.inr le_rfl))⟩

theorem canonical_rangeUp {low : List (Fin 10)} {len : Nat} {child : PrefixChildren}
    (hlen : low.length ≤ len + 1) (hchild : ∀ i, Canonical len (child i)) (i : Fin 10) :
    Canonical len (rangeUp low child i) := by
  induction low generalizing len child i with
  | nil => exact hchild i
  | cons l ls ih =>
      simp only [rangeUp]
      refine canonical_setAllIf (canonical_set hchild l ?_) _ i
      split
      case isTrue => exact Canonical.all len
      case isFalse hls =>
        have hpos := List.length_pos_iff.mpr hls
        rw [List.length_cons] at hlen
        obtain ⟨len, rfl⟩ := Nat.exists_eq_succ_of_ne_zero (show len ≠ 0 by omega)
        exact canonical_below (fun child h i => ih (by omega) h i)
          (exists_rangeUp_ne_no hls) (hchild l)

theorem canonical_rangeDown {high : List (Fin 10)} {len : Nat} {child : PrefixChildren}
    (hlen : high.length ≤ len + 1) (hchild : ∀ i, Canonical len (child i)) (i : Fin 10) :
    Canonical len (rangeDown high child i) := by
  induction high generalizing len child i with
  | nil => exact hchild i
  | cons h hs ih =>
      simp only [rangeDown]
      refine canonical_setAllIf (canonical_set hchild h ?_) _ i
      split
      case isTrue => exact Canonical.all len
      case isFalse hhs =>
        have hpos := List.length_pos_iff.mpr hhs
        rw [List.length_cons] at hlen
        obtain ⟨len, rfl⟩ := Nat.exists_eq_succ_of_ne_zero (show len ≠ 0 by omega)
        exact canonical_below (fun child h i => ih (by omega) h i)
          (exists_rangeDown_ne_no hhs) (hchild h)

/-- **Adding a range keeps a tree canonical.** -/
theorem canonical_addRange {high low : List (Fin 10)} {len : Nat} {child : PrefixChildren}
    (hhigh : high.length ≤ len + 1) (hlow : low.length = high.length)
    (hle : value low ≤ value high) (hchild : ∀ i, Canonical len (child i)) (i : Fin 10) :
    Canonical len (addRange high low child i) := by
  induction high generalizing low len child i with
  | nil => exact hchild i
  | cons h hs ih =>
      obtain ⟨l, ls, rfl⟩ := List.exists_cons_of_length_eq_add_one hlow
      have hhs : hs.length ≤ len := by simpa using hhigh
      have hls : ls.length = hs.length := by simpa using hlow
      rw [value_cons_le_iff hls] at hle
      have hpos : hs ≠ [] → ∃ len', len = len' + 1 := fun hne =>
        Nat.exists_eq_succ_of_ne_zero (by have := List.length_pos_iff.mpr hne; omega)
      simp only [addRange]
      by_cases heq : h = l
      · subst heq
        have hrest : value ls ≤ value hs := by simpa using hle
        rw [if_pos rfl]
        refine canonical_set hchild h ?_ i
        split
        case isTrue => exact Canonical.all len
        case isFalse hne =>
          obtain ⟨len, rfl⟩ := hpos hne
          refine canonical_below (fun child hc i => ih hhs hls hrest hc i) (fun child => ?_)
            (hchild h)
          obtain ⟨h', hs', rfl⟩ := List.exists_cons_of_ne_nil hne
          have hlen : ls.length = hs'.length + 1 := hls
          exact ⟨h', ne_no_of_covers ((covers_addRange_append [] child rfl hlen hrest).mpr
            (Or.inr ⟨hrest, le_rfl⟩))⟩
      · rw [if_neg heq]
        -- the digits between the ends are full, the ends are partly filled
        have hmiddle := fun j => canonical_setAllIf hchild
          (fun j => decide (l < j) && decide (j < h)) j
        split
        case isTrue =>
          exact canonical_set (canonical_set hmiddle h (Canonical.all len)) l (Canonical.all len) i
        case isFalse hne =>
          obtain ⟨len, rfl⟩ := hpos hne
          have hlsne : ls ≠ [] :=
            List.ne_nil_of_length_pos (hls ▸ List.length_pos_iff.mpr hne)
          have hdown := fun j => canonical_set hmiddle h (canonical_below
            (fun child hc i => canonical_rangeDown hhs hc i) (exists_rangeDown_ne_no hne)
            (hmiddle h)) j
          exact canonical_set hdown l (canonical_below
            (fun child hc i => canonical_rangeUp (hls.trans_le hhs) hc i) (exists_rangeUp_ne_no hlsne)
            (hdown l)) i

/-! ## Subtracting a tree -/

/-- Each proper prefix of the string that is shared with a subtracted one has a next digit
that is all held and not subtracted at all. -/
def KeptBelow (held subtracted : List (Fin 10) → Prop) (ds : List (Fin 10)) : Prop :=
  ∀ front back, ds = front ++ back → back ≠ [] →
    (∃ other : List (Fin 10), other.length = back.length ∧ subtracted (front ++ other)) →
    ∃ i, ∀ rest : List (Fin 10), rest.length + 1 = back.length →
      held (front ++ i :: rest) ∧ ¬ subtracted (front ++ i :: rest)

/-- The same for the prefixes with at least one digit: nothing is dropped at the root. -/
def Kept (held subtracted : List (Fin 10) → Prop) : List (Fin 10) → Prop
  | [] => True
  | d :: ds => KeptBelow (fun rest => held (d :: rest)) (fun rest => subtracted (d :: rest)) ds

theorem keptBelow_cons {held subtracted : List (Fin 10) → Prop} {d : Fin 10}
    {ds : List (Fin 10)} :
    KeptBelow held subtracted (d :: ds) ↔
      ((∃ other : List (Fin 10), other.length = ds.length + 1 ∧ subtracted other) →
        ∃ i, ∀ rest : List (Fin 10), rest.length = ds.length →
          held (i :: rest) ∧ ¬ subtracted (i :: rest)) ∧
      KeptBelow (fun rest => held (d :: rest)) (fun rest => subtracted (d :: rest)) ds := by
  constructor
  · intro h
    constructor
    · intro hother
      obtain ⟨i, hi⟩ := h [] (d :: ds) rfl (by simp) hother
      exact ⟨i, fun rest hlen => hi rest (by simp [hlen])⟩
    · intro front back heq hne hother
      exact h (d :: front) back (by rw [heq]; rfl) hne hother
  · rintro ⟨hhere, hbelow⟩ front back heq hne hother
    cases front with
    | nil =>
        obtain rfl : d :: ds = back := heq
        obtain ⟨i, hi⟩ := hhere hother
        exact ⟨i, fun rest hlen => hi rest (by simpa using hlen)⟩
    | cons e front =>
        rw [List.cons_append, List.cons.injEq] at heq
        obtain ⟨rfl, hds⟩ := heq
        exact hbelow front back hds hne hother

/-- Only strings of the same length matter. -/
theorem keptBelow_congr {held held' subtracted subtracted' : List (Fin 10) → Prop}
    {ds : List (Fin 10)} (h : ∀ es : List (Fin 10), es.length = ds.length →
      (held es ↔ held' es) ∧ (subtracted es ↔ subtracted' es)) :
    KeptBelow held subtracted ds ↔ KeptBelow held' subtracted' ds := by
  unfold KeptBelow
  refine forall_congr' fun front => forall_congr' fun back => forall_congr' fun heq => ?_
  have hlen : ∀ other : List (Fin 10), other.length = back.length →
      (front ++ other).length = ds.length := by
    intro other hother
    rw [heq, List.length_append, List.length_append, hother]
  refine forall_congr' fun _ => imp_congr ?_ ?_
  · refine exists_congr fun other => and_congr_right fun hother => ?_
    exact (h _ (hlen other hother)).2
  · refine exists_congr fun i => forall_congr' fun rest => imp_congr_right fun hrest => ?_
    have hsame := h _ (hlen (i :: rest) (by rw [List.length_cons, hrest]))
    exact and_congr hsame.1 (not_congr hsame.2)

@[simp] theorem subNode_no (input : PrefixNode) : subNode input .no = .no := by
  cases input <;> rfl

theorem subNode_eq_all_iff (input output : PrefixNode) :
    subNode input output = .all ↔ input = .no ∧ output = .all := by
  cases input with
  | no => simp [subNode]
  | all => simp [subNode]
  | node input =>
      cases output with
      | no => simp [subNode]
      | all =>
          simp only [subNode]
          split <;> simp
      | node output =>
          simp only [subNode]
          split <;> simp

/-- The children of a subtree. -/
def childrenOf : PrefixNode → PrefixChildren
  | .no => empty
  | .all => full
  | .node child => child

theorem covers_cons (t : PrefixNode) (d : Fin 10) (ds : List (Fin 10)) :
    t.Covers (d :: ds) ↔ (childrenOf t d).Covers ds := by
  cases t with
  | no => simp [childrenOf, empty]
  | all => simp [childrenOf, full]
  | node child => rfl

theorem canonical_childrenOf {len : Nat} {t : PrefixNode} (h : Canonical (len + 1) t)
    (i : Fin 10) : Canonical len (childrenOf t i) := by
  cases h with
  | no => exact Canonical.no len
  | all => exact Canonical.all len
  | node hchild _ _ => exact hchild i

/-- A node below which is subtracted is dropped if no child of it stays `ALL`. -/
theorem covers_subNode_node (input : PrefixChildren) (output : PrefixNode) (d : Fin 10)
    (ds : List (Fin 10)) :
    (subNode (.node input) output).Covers (d :: ds) ↔
      (∃ i, input i = .no ∧ childrenOf output i = .all) ∧
        (subNode (input d) (childrenOf output d)).Covers ds := by
  have hcount : ∀ output : PrefixChildren,
      (if getCount (fun i => subNode (input i) (output i)) = 0 then PrefixNode.no
        else .node fun i => subNode (input i) (output i)).Covers (d :: ds) ↔
      (∃ i, input i = .no ∧ output i = .all) ∧ (subNode (input d) (output d)).Covers ds := by
    intro output
    have hzero := getCount_eq_zero_iff fun i => subNode (input i) (output i)
    simp only [ne_eq, subNode_eq_all_iff, ← not_exists] at hzero
    split
    case isTrue h => simp [hzero.mp h]
    case isFalse h => simp [not_not.mp (mt hzero.mpr h)]
  cases output with
  | no => simp [subNode, childrenOf, empty]
  | all => exact hcount full
  | node output => exact hcount output

theorem covers_subNode {len : Nat} {input output : PrefixNode} {ds : List (Fin 10)}
    (hinput : Canonical len input) (houtput : Canonical len output) (hlen : ds.length = len) :
    (subNode input output).Covers ds ↔
      output.Covers ds ∧ ¬ input.Covers ds ∧ KeptBelow output.Covers input.Covers ds := by
  induction hinput generalizing output ds with
  | no len =>
      have hkept : KeptBelow output.Covers PrefixNode.no.Covers ds := by
        rintro front back - - ⟨other, -, hcovers⟩
        simp at hcovers
      simp [subNode, hkept]
  | all len => simp [subNode]
  | @node len input hchild hsome hnotall ih =>
      obtain ⟨d, ds, rfl⟩ := List.exists_cons_of_length_eq_add_one hlen
      have hds : ds.length = len := by simpa using hlen
      by_cases hno : output = .no
      · subst hno
        simp [subNode]
      · -- the subtracted node holds something, so its prefix is shared
        have hshared : ∃ other : List (Fin 10), other.length = ds.length + 1 ∧
            (PrefixNode.node input).Covers other := by
          obtain ⟨other, hother, hcovers⟩ :=
            (Canonical.node hchild hsome hnotall).exists_covers (by simp)
          exact ⟨other, by rw [hother, hds], hcovers⟩
        have hfree : (∃ i, input i = .no ∧ childrenOf output i = .all) ↔
            ∃ i, ∀ rest : List (Fin 10), rest.length = ds.length →
              output.Covers (i :: rest) ∧ ¬ (PrefixNode.node input).Covers (i :: rest) := by
          refine exists_congr fun i => ?_
          rw [(hchild i).eq_no_iff, (canonical_childrenOf houtput i).eq_all_iff, hds]
          simp only [covers_cons, childrenOf]
          constructor
          · rintro ⟨hnone, hall⟩ rest hrest
            exact ⟨hall rest hrest, hnone rest hrest⟩
          · intro h
            exact ⟨fun rest hrest => (h rest hrest).2, fun rest hrest => (h rest hrest).1⟩
        rw [covers_subNode_node, keptBelow_cons, ih d (canonical_childrenOf houtput d) hds, hfree]
        simp only [hshared, forall_const, covers_cons output, covers_node_cons]
        tauto

/-- **Subtracting a tree** takes its strings out, and those that are not kept. -/
theorem covers_subTree {len : Nat} {output input : PrefixChildren} {d : Fin 10}
    {ds : List (Fin 10)} (hinput : ∀ i, Canonical len (input i))
    (houtput : ∀ i, Canonical len (output i)) (hlen : ds.length = len) :
    (subTree output input d).Covers ds ↔
      (output d).Covers ds ∧ ¬ (input d).Covers ds ∧
        KeptBelow (output d).Covers (input d).Covers ds :=
  covers_subNode (hinput d) (houtput d) hlen

/-! ## Printing -/

/-- What is printed below a node starts with the digits of the node. -/
theorem prefix_of_mem_printNode {t : PrefixNode} {array p : List (Fin 10)}
    (h : p ∈ printNode t array) : array <+: p := by
  induction t generalizing array with
  | no => simp [printNode] at h
  | all =>
      rw [printNode, List.mem_singleton] at h
      rw [h]
  | node child ih =>
      simp only [printNode, List.mem_flatMap] at h
      obtain ⟨j, -, hj⟩ := h
      exact (List.prefix_append array [j]).trans (ih j hj)

theorem exists_mem_printNode_iff {t : PrefixNode} {array ds : List (Fin 10)} :
    (∃ p ∈ printNode t array, p <+: array ++ ds) ↔ t.Covers ds := by
  induction t generalizing array ds with
  | no => simp [printNode]
  | all => simp [printNode]
  | node child ih =>
      simp only [printNode, List.mem_flatMap, List.mem_finRange, true_and]
      cases ds with
      | nil =>
          constructor
          · rintro ⟨p, ⟨j, hj⟩, hp⟩
            have hlen := ((prefix_of_mem_printNode hj).trans hp).length_le
            simp at hlen
          · exact False.elim
      | cons d ds =>
          have hstep : array ++ d :: ds = array ++ [d] ++ ds := by simp
          rw [covers_node_cons, ← @ih d (array ++ [d]) ds, hstep]
          constructor
          · rintro ⟨p, ⟨j, hj⟩, hp⟩
            have hprefix := (prefix_of_mem_printNode hj).trans hp
            rw [List.append_assoc, List.prefix_append_right_inj] at hprefix
            obtain rfl : j = d := by simpa using hprefix
            exact ⟨p, hj, hp⟩
          · rintro ⟨p, hp, hprefix⟩
            exact ⟨p, ⟨d, hp⟩, hprefix⟩

end PrefixTree
end VoipBill
