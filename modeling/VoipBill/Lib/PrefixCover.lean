import Mathlib.Tactic

/-!
# Covers by prefixes

A list of words covers the words that start with one of its elements.

* `Ascends`: two words differ first in a place where the first has the smaller letter.
  Words that ascend are in lexicographic order and neither is a prefix of the other;
* `length_le_of_tight`: a prefix-free cover none of whose elements could be replaced by a
  proper prefix of it is a shortest one.
-/

namespace VoipBill
namespace Lib
namespace PrefixCover

variable {α : Type}

/-- Some element of the cover is a prefix of the word. -/
def CoveredBy (cover : List (List α)) (word : List α) : Prop := ∃ p ∈ cover, p <+: word

instance [DecidableEq α] (cover : List (List α)) (word : List α) :
    Decidable (CoveredBy cover word) :=
  inferInstanceAs (Decidable (∃ p ∈ cover, p <+: word))

/-- No element is a prefix of another one. -/
def PrefixFree (cover : List (List α)) : Prop :=
  cover.Pairwise fun p q => ¬ p <+: q ∧ ¬ q <+: p

/-- Every proper, non-empty prefix of an element has a continuation of length `n` or more
that is not covered. -/
def Tight (n : Nat) (cover : List (List α)) : Prop :=
  ∀ p ∈ cover, ∀ q, q <+: p → q ≠ p → q ≠ [] →
    ∃ word, n ≤ word.length ∧ q <+: word ∧ ¬ CoveredBy cover word

/-! ## Ascending words -/

/-- The words differ, and at the first difference the first has the smaller letter. -/
def Ascends [LT α] (p q : List α) : Prop :=
  ∃ front d e p' q', p = front ++ d :: p' ∧ q = front ++ e :: q' ∧ d < e

theorem Ascends.lt [LT α] {p q : List α} (h : Ascends p q) : p < q := by
  obtain ⟨front, d, e, p', q', rfl, rfl, hlt⟩ := h
  induction front with
  | nil => exact List.Lex.rel hlt
  | cons c front ih => exact List.Lex.cons ih

theorem Ascends.not_prefix [Preorder α] {p q : List α} (h : Ascends p q) :
    ¬ p <+: q ∧ ¬ q <+: p := by
  obtain ⟨front, d, e, p', q', rfl, rfl, hlt⟩ := h
  constructor
  · intro hstart
    rw [List.prefix_append_right_inj, List.cons_prefix_cons] at hstart
    exact hlt.ne hstart.1
  · intro hstart
    rw [List.prefix_append_right_inj, List.cons_prefix_cons] at hstart
    exact hlt.ne' hstart.1

/-! ## Shortest covers -/

theorem PrefixFree.nodup {cover : List (List α)} (h : PrefixFree cover) : cover.Nodup :=
  List.Pairwise.imp (fun {p q} hpq heq => hpq.1 (by rw [heq])) h

/-- Two elements with a common continuation are equal. -/
theorem PrefixFree.eq_of_prefix {cover : List (List α)} (h : PrefixFree cover) {p q word : List α}
    (hp : p ∈ cover) (hq : q ∈ cover) (hpw : p <+: word) (hqw : q <+: word) : p = q := by
  by_contra hne
  have hsymm : Std.Symm fun p q : List α => ¬ p <+: q ∧ ¬ q <+: p := ⟨fun _ _ h => h.symm⟩
  have hapart := List.Pairwise.forall h hp hq hne
  rcases List.prefix_or_prefix_of_prefix hpw hqw with hpq | hqp
  · exact hapart.1 hpq
  · exact hapart.2 hqp

/-- In a cover of the same words every element of a tight cover is continued. -/
theorem Tight.exists_continued [Inhabited α] {n : Nat} {cover other : List (List α)}
    (htight : Tight n cover) (hother : ∀ q ∈ other, q ≠ [])
    (hsame : ∀ word : List α, n ≤ word.length → (CoveredBy other word ↔ CoveredBy cover word))
    {p : List α} (hp : p ∈ cover) : ∃ q ∈ other, p <+: q := by
  have hlong : n ≤ (p ++ List.replicate n default).length := by
    rw [List.length_append, List.length_replicate]
    omega
  obtain ⟨q, hq, hstart⟩ := (hsame _ hlong).mpr ⟨p, hp, List.prefix_append _ _⟩
  rcases List.prefix_or_prefix_of_prefix (List.prefix_append p _) hstart with hpq | hqp
  · exact ⟨q, hq, hpq⟩
  · by_cases heq : q = p
    · exact ⟨q, hq, heq ▸ List.prefix_rfl⟩
    · -- a shorter element would cover a word that is not covered
      obtain ⟨word, hword, hqword, hnot⟩ := htight p hp q hqp heq (hother q hq)
      exact absurd ((hsame word hword).mp ⟨q, hq, hqword⟩) hnot

/-- A tight, prefix-free cover is a shortest cover by non-empty words. -/
theorem length_le_of_tight [Inhabited α] {n : Nat} {cover other : List (List α)}
    (hfree : PrefixFree cover) (htight : Tight n cover) (hother : ∀ q ∈ other, q ≠ [])
    (hsame : ∀ word : List α, n ≤ word.length → (CoveredBy other word ↔ CoveredBy cover word)) :
    cover.length ≤ other.length := by
  classical
  have hcontinued : ∀ p, p ∈ cover → ∃ q ∈ other, p <+: q := fun p hp =>
    htight.exists_continued hother hsame hp
  choose! next hnext hstart using hcontinued
  have hnodup : (cover.map next).Nodup := by
    refine List.Nodup.map_on (fun p hp q hq heq => ?_) hfree.nodup
    exact hfree.eq_of_prefix hp hq (hstart p hp) (heq ▸ hstart q hq)
  have hsubset : cover.map next ⊆ other := by
    intro q hq
    obtain ⟨p, hp, rfl⟩ := List.mem_map.mp hq
    exact hnext p hp
  have hle := (List.subperm_of_subset hnodup hsubset).length_le
  rwa [List.length_map] at hle

end PrefixCover
end Lib
end VoipBill
