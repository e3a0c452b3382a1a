import Mathlib.Order.Lattice
import Mathlib.Order.RelClasses

/-!
# Sorting by a comparator

* `SortsBy`: what a sort by a strict weak order promises.  The order of elements that
  compare as equivalent stays open, as it is for `std::sort`;
* `isStrictWeakOrder_of_key`: comparing keys is a strict weak order;
* `pairwise_stableSort`: a stable sort keeps, among equivalent elements, any order that
  the list had before.
-/

namespace VoipBill
namespace Lib

variable {α : Type}

/-- `sort` returns the elements of its list, none of which compares less than an
earlier one. -/
structure SortsBy (less : α → α → Bool) (sort : List α → List α) : Prop where
  perm : ∀ l : List α, (sort l).Perm l
  ordered : ∀ l : List α, (sort l).Pairwise fun a b => less b a = false

/-- A comparator that compares keys of a linear order is a strict weak order. -/
theorem isStrictWeakOrder_of_key {κ : Type} [LinearOrder κ] {lt : α → α → Bool} (key : α → κ)
    (h : ∀ left right, lt left right = true ↔ key left < key right) :
    IsStrictWeakOrder α fun a b => lt a b = true := by
  have hpreimage : (fun a b => lt a b = true) = Order.Preimage key (· < ·) := by
    funext a b
    exact propext (h a b)
  have hlt : IsStrictWeakOrder κ (· < ·) := isStrictWeakOrder_of_isOrderConnected
  rw [hpreimage]
  infer_instance

section Comparator

variable {less : α → α → Bool} [IsStrictWeakOrder α fun a b => less a b = true]

theorem less_trans {a b c : α} (hab : less a b = true) (hbc : less b c = true) :
    less a c = true :=
  @IsTrans.trans α (fun a b => less a b = true) _ a b c hab hbc

theorem less_irrefl (a : α) : less a a = false :=
  Bool.eq_false_iff.mpr (@Std.Irrefl.irrefl α (fun a b => less a b = true) _ a)

theorem less_equiv_trans {a b c : α} (hab : less a b = false) (hba : less b a = false)
    (hbc : less b c = false) (hcb : less c b = false) : less c a = false := by
  have hequiv := @IsStrictWeakOrder.incomp_trans α (fun a b => less a b = true) _ a b c
    (by simp [hab, hba]) (by simp [hbc, hcb])
  exact Bool.eq_false_iff.mpr hequiv.2

theorem not_less_trans {a b c : α} (hba : less b a = false) (hcb : less c b = false) :
    less c a = false := by
  by_contra hca
  have hca : less c a = true := by simpa using hca
  -- neither `a < b` nor `b < c` is possible, so `a`, `b` and `c` are all equivalent
  have hab : less a b = false :=
    Bool.eq_false_iff.mpr fun hab => Bool.false_ne_true (hcb.symm.trans (less_trans hca hab))
  have hbc : less b c = false :=
    Bool.eq_false_iff.mpr fun hbc => Bool.false_ne_true (hba.symm.trans (less_trans hbc hca))
  exact Bool.false_ne_true ((less_equiv_trans hab hba hbc hcb).symm.trans hca)

theorem not_less_total (a b : α) : (!less b a || !less a b) = true := by
  cases hba : less b a with
  | false => rfl
  | true =>
      cases hab : less a b with
      | false => rfl
      | true => exact absurd (less_trans hab hba) (by simp [less_irrefl a])

theorem sortsBy_mergeSort :
    SortsBy less fun l => l.mergeSort fun a b => !less b a where
  perm l := List.mergeSort_perm l _
  ordered l := by
    have htrans : ∀ a b c : α, (!less b a) = true → (!less c b) = true →
        (!less c a) = true := by
      intro a b c hab hbc
      simp only [Bool.not_eq_true'] at hab hbc ⊢
      exact not_less_trans hab hbc
    have hpairwise := List.pairwise_mergeSort htrans not_less_total l
    exact hpairwise.imp fun h => by simpa using h

end Comparator

/-- In a stable sort by `le` two elements stand in the order of `le`, and those that are
equivalent stand as they stood before. -/
theorem pairwise_stableSort {le : α → α → Bool} {R : α → α → Prop}
    (trans : ∀ a b c, le a b → le b c → le a c) (total : ∀ a b, le a b || le b a)
    {l : List α} (hl : l.Pairwise R) :
    (l.mergeSort le).Pairwise fun a b => le a b = true ∧ (le b a = true → R a b) := by
  rw [← List.mergeSort_zipIdx, List.pairwise_map]
  have hordered := List.pairwise_mergeSort (List.zipIdxLE_trans trans)
    (List.zipIdxLE_total total) l.zipIdx
  have hperm := List.mergeSort_perm l.zipIdx (List.zipIdxLE le)
  have hplaces : (l.zipIdx.mergeSort (List.zipIdxLE le)).Pairwise fun x y => x.2 ≠ y.2 := by
    have hnodup : (l.zipIdx.map (·.2)).Nodup := by
      rw [List.zipIdx_map_snd]
      exact List.nodup_range'
    exact (hperm.pairwise_iff Ne.symm).mpr (List.pairwise_map.mp hnodup)
  have hmem : ∀ x ∈ l.zipIdx.mergeSort (List.zipIdxLE le), l[x.2]? = some x.1 := by
    intro x hx
    exact List.mem_zipIdx_iff_getElem?.mp (hperm.mem_iff.mp hx)
  refine (hordered.and hplaces).imp_of_mem ?_
  intro x y hx hy hxy
  obtain ⟨hle, hne⟩ := hxy
  unfold List.zipIdxLE at hle
  cases hxy : le x.1 y.1 with
  | false => simp [hxy] at hle
  | true =>
      constructor
      · rfl
      · intro hyx
        simp only [hxy, hyx, if_true, decide_eq_true_eq] at hle
        -- the places are different, so `x` stood before `y`
        obtain ⟨hx2, hxval⟩ := List.getElem?_eq_some_iff.mp (hmem x hx)
        obtain ⟨hy2, hyval⟩ := List.getElem?_eq_some_iff.mp (hmem y hy)
        rw [← hxval, ← hyval]
        exact List.pairwise_iff_getElem.mp hl x.2 y.2 hx2 hy2 (by omega)

end Lib
end VoipBill
