import Mathlib.Algebra.BigOperators.Group.List.Basic
import Mathlib.Order.Bounds.Basic

/-!
# The total of the latest bucket

Entries come in any order, each with a key and a value.  A `Bucket` keeps the greatest key so
far and the total of its values: a greater key begins anew, a smaller one is too late.

* `Latest`: the bucket of a list of entries, said without the order of the list;
* `Latest.add`: one more entry;
* `Latest.unique`, `Latest.perm`: the bucket depends on the entries only, not on their order.
-/

namespace VoipBill
namespace Lib
namespace LatestBucket

/-- A key with the total of its values. -/
structure Bucket (κ ν : Type) where
  key : κ
  total : ν

variable {κ ν : Type} [LinearOrder κ] [AddCommMonoid ν]

/-- An entry is added to the bucket of its key, replaces an older bucket, or is dropped. -/
def Bucket.add (bucket : Bucket κ ν) (key : κ) (value : ν) : Bucket κ ν :=
  if key = bucket.key then ⟨bucket.key, bucket.total + value⟩
  else if bucket.key < key then ⟨key, value⟩
  else bucket

theorem Bucket.add_of_eq {bucket : Bucket κ ν} {key : κ} (h : key = bucket.key) (value : ν) :
    bucket.add key value = ⟨bucket.key, bucket.total + value⟩ := if_pos h

theorem Bucket.add_of_lt {bucket : Bucket κ ν} {key : κ} (h : bucket.key < key) (value : ν) :
    bucket.add key value = ⟨key, value⟩ := by
  rw [Bucket.add, if_neg h.ne', if_pos h]

theorem Bucket.add_of_gt {bucket : Bucket κ ν} {key : κ} (h : key < bucket.key) (value : ν) :
    bucket.add key value = bucket := by
  rw [Bucket.add, if_neg h.ne, if_neg h.not_gt]

/-- The total of the values of a key. -/
def totalAt (entries : List (κ × ν)) (key : κ) : ν :=
  ((entries.filter fun entry => entry.1 = key).map Prod.snd).sum

/-- The bucket has the greatest key of the entries and the total of its values. -/
structure Latest (entries : List (κ × ν)) (bucket : Bucket κ ν) : Prop where
  greatest : IsGreatest {key | ∃ entry ∈ entries, entry.1 = key} bucket.key
  total : bucket.total = totalAt entries bucket.key

theorem totalAt_concat (entries : List (κ × ν)) (key other : κ) (value : ν) :
    totalAt (entries ++ [(other, value)]) key =
      totalAt entries key + if other = key then value else 0 := by
  unfold totalAt
  rw [List.filter_append, List.map_append, List.sum_append]
  congr 1
  by_cases h : other = key
  · simp [h]
  · simp [h]

/-- A key that no entry has is worth nothing. -/
theorem totalAt_eq_zero {entries : List (κ × ν)} {key : κ} (h : ∀ entry ∈ entries, entry.1 ≠ key) :
    totalAt entries key = 0 := by
  have hnone : entries.filter (fun entry => entry.1 = key) = [] :=
    List.filter_eq_nil_iff.mpr fun entry hmem => by simpa using h entry hmem
  rw [totalAt, hnone, List.map_nil, List.sum_nil]

namespace Latest

variable {entries entries' : List (κ × ν)} {bucket bucket' : Bucket κ ν}

/-- The first entry, added to an empty bucket of its own key. -/
theorem first (key : κ) (value : ν) :
    Latest [(key, value)] (Bucket.add ⟨key, 0⟩ key value) := by
  rw [Bucket.add_of_eq rfl, zero_add]
  constructor
  · simp [IsGreatest, upperBounds]
  · simp [totalAt]

/-- **One more entry.** -/
theorem add (h : Latest entries bucket) (key : κ) (value : ν) :
    Latest (entries ++ [(key, value)]) (bucket.add key value) := by
  obtain ⟨⟨entry, hmem, hentry⟩, hupper⟩ := h.greatest
  have hle : ∀ other ∈ entries, other.1 ≤ bucket.key := fun other hother =>
    hupper ⟨other, hother, rfl⟩
  have hin : ∃ other ∈ entries ++ [(key, value)], other.1 = bucket.key :=
    ⟨entry, List.mem_append_left _ hmem, hentry⟩
  rcases lt_trichotomy key bucket.key with hlt | heq | hgt
  · rw [Bucket.add_of_gt hlt]
    refine ⟨⟨hin, ?_⟩, ?_⟩
    · rintro other ⟨e, he, rfl⟩
      rcases List.mem_append.mp he with hold | hnew
      · exact hle e hold
      · rw [List.mem_singleton.mp hnew]
        exact hlt.le
    · rw [totalAt_concat, if_neg hlt.ne, add_zero, h.total]
  · rw [Bucket.add_of_eq heq]
    refine ⟨⟨hin, ?_⟩, ?_⟩
    · rintro other ⟨e, he, rfl⟩
      rcases List.mem_append.mp he with hold | hnew
      · exact hle e hold
      · rw [List.mem_singleton.mp hnew]
        exact heq.le
    · rw [totalAt_concat, if_pos heq, h.total]
  · rw [Bucket.add_of_lt hgt]
    refine ⟨⟨⟨(key, value), by simp, rfl⟩, ?_⟩, ?_⟩
    · rintro other ⟨e, he, rfl⟩
      rcases List.mem_append.mp he with hold | hnew
      · exact (hle e hold).trans hgt.le
      · rw [List.mem_singleton.mp hnew]
    · -- no entry before had the new key
      have hnone := totalAt_eq_zero fun e he => ((hle e he).trans_lt hgt).ne
      rw [totalAt_concat, if_pos rfl, hnone, zero_add]

/-- **The order of the entries does not matter.** -/
theorem perm (h : Latest entries bucket) (hperm : entries.Perm entries') :
    Latest entries' bucket := by
  refine ⟨?_, ?_⟩
  · have hkeys : {key | ∃ entry ∈ entries', entry.1 = key} =
        {key | ∃ entry ∈ entries, entry.1 = key} := by
      ext key
      exact exists_congr fun entry => and_congr_left' hperm.mem_iff.symm
    rw [hkeys]
    exact h.greatest
  · rw [h.total, totalAt, totalAt]
    exact ((hperm.filter _).map _).sum_eq

/-- Entries have one bucket. -/
theorem unique (h : Latest entries bucket) (h' : Latest entries bucket') : bucket = bucket' := by
  have hkey : bucket.key = bucket'.key := h.greatest.unique h'.greatest
  have htotal : bucket.total = bucket'.total := by rw [h.total, h'.total, hkey]
  cases bucket
  cases bucket'
  simp only at hkey htotal
  rw [hkey, htotal]

end Latest

end LatestBucket
end Lib
end VoipBill
