import VoipBill.Lib.WriteBehind

/-!
# Copying rows by their stamps

Rows of a write-behind table are stamped with the number of the entry that changed
them last; a row that no entry has changed has the stamp 0.  A copy of the table is
brought up to date by writing the rows with a stamp above the greatest copied one.

That no row is missed rests on the order of the stamps: the stored rows are stamped
up to some number, the rows of each queued partition above those of the partitions
before it (`Ascends`).  So a stored row that is newer than its copy is stamped above
every copied row, and `InStep` is kept by every operation.
-/

namespace VoipBill
namespace Lib
namespace StampedCopy

variable {ρ : Type} (stamp : ρ → Int)

/-- The greatest stamp of a table, 0 for an empty one. -/
def greatest (table : IntMap ρ) : Int :=
  ((table.toList.map fun entry => stamp entry.2).max?).getD 0

/-- Write the rows stamped above the greatest copied stamp. -/
def sync (stored copied : IntMap ρ) : IntMap ρ :=
  IntMap.upsert copied (stored.filter fun _ r => greatest stamp copied < stamp r)

/-- The stamps of a partition lie above `lo` and not above `hi`. -/
def StampedIn (lo hi : Int) (part : IntMap ρ) : Prop :=
  ∀ (k : Int) (r : ρ), part[k]? = some r → stamp r = 0 ∨ lo < stamp r ∧ stamp r ≤ hi

/-- The stamps of partitions ascend from `lo` to `hi`. -/
def Ascends : Int → List (IntMap ρ) → Int → Prop
  | lo, [], hi => lo ≤ hi
  | lo, part :: parts, hi =>
      ∃ mid, lo ≤ mid ∧ StampedIn stamp lo mid part ∧ Ascends mid parts hi

/-- The rows copied so far are those stored, up to the greatest copied stamp. -/
structure InStep (hi : Int) (stored copied : IntMap ρ) : Prop where
  nonneg : 0 ≤ hi
  storedLe : ∀ (k : Int) (r : ρ), stored[k]? = some r → 0 ≤ stamp r ∧ stamp r ≤ hi
  copiedLe : ∀ (k : Int) (r : ρ), copied[k]? = some r → stamp r ≤ hi
  same : ∀ (k : Int) (r : ρ), stored[k]? = some r → stamp r ≠ 0 →
    stamp r ≤ greatest stamp copied → copied[k]? = some r

variable {stamp}

/-! ### The queue -/

theorem StampedIn.mono {lo hi hi' : Int} {part : IntMap ρ} (h : StampedIn stamp lo hi part)
    (hle : hi ≤ hi') : StampedIn stamp lo hi' part := by
  intro k r hrow
  rcases h k r hrow with hzero | ⟨hlo, hhi⟩
  · exact Or.inl hzero
  · exact Or.inr ⟨hlo, hhi.trans hle⟩

theorem stampedIn_empty (lo hi : Int) : StampedIn stamp lo hi (∅ : IntMap ρ) := by
  intro k r hrow
  simp at hrow

theorem StampedIn.insert {lo hi : Int} {part : IntMap ρ} (h : StampedIn stamp lo hi part)
    (k : Int) {r : ρ} (hr : stamp r = 0 ∨ lo < stamp r ∧ stamp r ≤ hi) :
    StampedIn stamp lo hi (part.insert k r) := by
  intro k' r' hrow
  rw [IntMap.getElem?_insert] at hrow
  split at hrow
  · obtain rfl : r = r' := by simpa using hrow
    exact hr
  · exact h k' r' hrow

theorem Ascends.le {parts : List (IntMap ρ)} {lo hi : Int} (h : Ascends stamp lo parts hi) :
    lo ≤ hi := by
  induction parts generalizing lo with
  | nil => exact h
  | cons part parts ih =>
      obtain ⟨mid, hle, -, hrest⟩ := h
      exact hle.trans (ih hrest)

/-- A later number may bound the queue. -/
theorem Ascends.mono {parts : List (IntMap ρ)} {lo hi hi' : Int}
    (h : Ascends stamp lo parts hi) (hle : hi ≤ hi') : Ascends stamp lo parts hi' := by
  induction parts generalizing lo with
  | nil => exact le_trans h hle
  | cons part parts ih =>
      obtain ⟨mid, hmid, hpart, hrest⟩ := h
      exact ⟨mid, hmid, hpart, ih hrest⟩

theorem Ascends.openPart {parts : List (IntMap ρ)} {lo hi : Int}
    (h : Ascends stamp lo parts hi) : Ascends stamp lo (parts ++ [∅]) hi := by
  induction parts generalizing lo with
  | nil => exact ⟨lo, le_rfl, stampedIn_empty _ _, h⟩
  | cons part parts ih =>
      obtain ⟨mid, hmid, hpart, hrest⟩ := h
      exact ⟨mid, hmid, hpart, ih hrest⟩

/-- A row is queued in the last partition, new or with a number above all others. -/
theorem Ascends.modifyLast {parts : List (IntMap ρ)} {lo hi hi' : Int} {k : Int} {r : ρ}
    (h : Ascends stamp lo parts hi) (hle : hi ≤ hi')
    (hr : stamp r = 0 ∨ hi < stamp r ∧ stamp r ≤ hi') :
    Ascends stamp lo (modifyLast (fun part => part.insert k r) parts) hi' := by
  induction parts generalizing lo with
  | nil => exact le_trans h hle
  | cons part parts ih =>
      obtain ⟨mid, hmid, hpart, hrest⟩ := h
      cases parts with
      | nil =>
          have hmidhi : mid ≤ hi := hrest
          refine ⟨hi', by omega, ?_, le_rfl⟩
          refine (hpart.mono (hmidhi.trans hle)).insert k ?_
          rcases hr with hzero | ⟨hlo, hhi⟩
          · exact Or.inl hzero
          · exact Or.inr ⟨by omega, hhi⟩
      | cons next parts =>
          rw [modifyLast_cons_cons]
          exact ⟨mid, hmid, hpart, ih hrest⟩

/-! ### The stored table and its copy -/

theorem greatest_le {table : IntMap ρ} {hi : Int} (hhi : 0 ≤ hi)
    (h : ∀ (k : Int) (r : ρ), table[k]? = some r → stamp r ≤ hi) : greatest stamp table ≤ hi := by
  unfold greatest
  cases hmax : (table.toList.map fun entry => stamp entry.2).max? with
  | none => exact hhi
  | some m =>
      obtain ⟨hmem, -⟩ := List.max?_eq_some_iff.mp hmax
      obtain ⟨entry, hentry, rfl⟩ := List.mem_map.mp hmem
      exact h entry.1 entry.2 (Std.ExtTreeMap.mem_toList_iff_getElem?_eq_some.mp hentry)

/-- Empty tables are in step. -/
theorem inStep_empty {hi : Int} (hhi : 0 ≤ hi) : InStep stamp hi (∅ : IntMap ρ) ∅ where
  nonneg := hhi
  storedLe := by simp
  copiedLe := by simp
  same := by simp

/-- **A partition is written.**  Its stamps lie above every copied one. -/
theorem InStep.write {lo hi : Int} {stored copied part : IntMap ρ} {parts : List (IntMap ρ)}
    (h : InStep stamp lo stored copied) (hasc : Ascends stamp lo (part :: parts) hi) :
    ∃ mid, InStep stamp mid (IntMap.upsert stored part) copied ∧ Ascends stamp mid parts hi := by
  obtain ⟨mid, hle, hpart, hrest⟩ := hasc
  have hgreatest : greatest stamp copied ≤ lo := greatest_le h.nonneg h.copiedLe
  have hnonneg := h.nonneg
  refine ⟨mid, ⟨by omega, ?_, fun k r hrow => (h.copiedLe k r hrow).trans hle, ?_⟩, hrest⟩
  · intro k r hrow
    rw [IntMap.getElem?_upsert] at hrow
    cases hnew : part[k]? with
    | some r' =>
        obtain rfl : r' = r := by simpa [hnew] using hrow
        rcases hpart k r' hnew with hzero | ⟨hlo, hhi⟩
        · omega
        · omega
    | none =>
        have hold := h.storedLe k r (by simpa [hnew] using hrow)
        omega
  · intro k r hrow hstamp hbelow
    rw [IntMap.getElem?_upsert] at hrow
    cases hnew : part[k]? with
    | some r' =>
        obtain rfl : r' = r := by simpa [hnew] using hrow
        rcases hpart k r' hnew with hzero | ⟨hlo, -⟩
        · exact absurd hzero hstamp
        · omega
    | none => exact h.same k r (by simpa [hnew] using hrow) hstamp hbelow

/-- **The copy is brought up to date**: every stamped row is copied as it is stored. -/
theorem InStep.sync {hi : Int} {stored copied : IntMap ρ} (h : InStep stamp hi stored copied) :
    InStep stamp hi stored (sync stamp stored copied) ∧
      ∀ (k : Int) (r : ρ), stored[k]? = some r → stamp r ≠ 0 →
        (StampedCopy.sync stamp stored copied)[k]? = some r := by
  have hrow : ∀ k : Int, (StampedCopy.sync stamp stored copied)[k]? =
      (stored[k]?.filter fun r => greatest stamp copied < stamp r).or copied[k]? := by
    intro k
    rw [StampedCopy.sync, IntMap.getElem?_upsert, Std.ExtTreeMap.getElem?_filter']
  have hall : ∀ (k : Int) (r : ρ), stored[k]? = some r → stamp r ≠ 0 →
      (StampedCopy.sync stamp stored copied)[k]? = some r := by
    intro k r hstored hstamp
    rw [hrow, hstored]
    by_cases habove : greatest stamp copied < stamp r
    · simp [habove]
    · have hle : stamp r ≤ greatest stamp copied := by omega
      rw [Option.filter_some, if_neg (by simpa using hle), Option.none_or]
      exact h.same k r hstored hstamp hle
  refine ⟨⟨h.nonneg, h.storedLe, ?_, fun k r hstored hstamp _ => hall k r hstored hstamp⟩, hall⟩
  intro k r hsynced
  rw [hrow] at hsynced
  cases hfilter : stored[k]?.filter fun r => greatest stamp copied < stamp r with
  | some r' =>
      obtain rfl : r' = r := by simpa [hfilter] using hsynced
      exact (h.storedLe k r' (Option.filter_eq_some_iff.mp hfilter).1).2
  | none => exact h.copiedLe k r (by simpa [hfilter] using hsynced)

end StampedCopy
end Lib
end VoipBill
