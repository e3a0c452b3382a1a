import VoipBill.Model.DataBillingContainer

/-!
# Usage rows and the calls booked on them

A usage row counts the seconds of the calls that carry its id.  `Books` says
that it does, for the row types of all usage managers: `carries` gives the row a
call belongs to, and a row is seen through its id and its used seconds.

Looking up a counter and adding a call keep the books; adding one does so only
if the call that carries an id is booked on the row with this id.

`Indexed` says that the index of a manager lists exactly the rows of each key,
so that a lookup finds a current row whenever there is one.
-/

namespace VoipBill

open Lib

/-- A row as the books see it. -/
structure UsageView (ρ : Type) where
  id : ρ → Int
  used : ρ → Int

/-- The package seconds of the calls that carry an id. -/
def takenSeconds (carries : Call → Option Int) (id : Int) (added : List Call) : Int :=
  ((added.filter fun call => carries call == some id).map (·.packageTime)).sum

theorem takenSeconds_concat (carries : Call → Option Int) (id : Int) (added : List Call)
    (call : Call) :
    takenSeconds carries id (added ++ [call]) =
      takenSeconds carries id added + if carries call = some id then call.packageTime else 0 := by
  by_cases h : carries call = some id
  · simp [takenSeconds, h]
  · simp [takenSeconds, h]

theorem takenSeconds_eq_zero {carries : Call → Option Int} {id : Int} {added : List Call}
    (h : ∀ call ∈ added, carries call ≠ some id) : takenSeconds carries id added = 0 := by
  have hnone : (added.filter fun call => carries call == some id) = [] :=
    List.filter_eq_nil_iff.mpr fun call hcall => by simpa using h call hcall
  rw [takenSeconds, hnone]
  rfl

/-- Every row counts the added calls that carry its id, and the ids given out are
those up to the last one. -/
structure Books {ρ : Type} (view : UsageView ρ) (carries : Call → Option Int) (added : List Call)
    (m : UsageManager ρ) : Prop where
  ids : m.IdsBounded
  last : 0 ≤ m.lastStatId
  row : ∀ (id : Int) (stats : ρ), m.rows[id]? = some stats →
    0 < id ∧ view.id stats = id ∧ view.used stats = takenSeconds carries id added
  carried : ∀ call ∈ added, ∀ id, carries call = some id → id ≤ m.lastStatId

namespace Books

variable {ρ : Type} {view : UsageView ρ} {carries : Call → Option Int} {added : List Call}
  {m m' : UsageManager ρ}

theorem empty : Books view carries [] (UsageManager.empty : UsageManager ρ) where
  ids := fun id _ => by simp [UsageManager.empty]
  last := le_refl 0
  row := fun id stats h => absurd h (by simp [UsageManager.empty])
  carried := fun call h => absurd h (by simp)

/-- The books are about the rows and the last id only. -/
theorem congr (h : Books view carries added m) (hrows : m'.rows = m.rows)
    (hlast : m'.lastStatId = m.lastStatId) : Books view carries added m' where
  ids := by
    intro id hid
    rw [hrows]
    exact h.ids id (hlast ▸ hid)
  last := hlast ▸ h.last
  row := by
    rw [hrows]
    exact h.row
  carried := by
    rw [hlast]
    exact h.carried

/-- Nothing is taken from a row that does not exist yet. -/
theorem takenSeconds_next (h : Books view carries added m) :
    takenSeconds carries (m.lastStatId + 1) added = 0 := by
  refine takenSeconds_eq_zero fun call hcall hcarries => ?_
  have hle := h.carried call hcall _ hcarries
  omega

section GetCurrent

variable {key : Int} {isCurrent : ρ → Bool} {createStats : Int → ρ}

/-- A lookup keeps the books if a new row has its id and nothing used. -/
theorem getCurrent (h : Books view carries added m)
    (hcreate : ∀ id, view.id (createStats id) = id ∧ view.used (createStats id) = 0) :
    Books view carries added (m.getCurrent key isCurrent createStats).2 := by
  have hids := UsageManager.getCurrent_idsBounded h.ids key isCurrent createStats
  rcases m.getCurrent_cases key isCurrent createStats with ⟨_, _, _, _, heq⟩ | heq
  · rw [heq]
    exact h
  · rw [heq] at hids ⊢
    have hlast := h.last
    refine ⟨hids, ?_, ?_, ?_⟩
    · show 0 ≤ m.lastStatId + 1
      omega
    · intro id stats hrow
      rcases UsageManager.of_putRow hrow with ⟨rfl, rfl⟩ | hold
      · obtain ⟨hcid, hcused⟩ := hcreate (m.lastStatId + 1)
        exact ⟨by omega, hcid, hcused.trans h.takenSeconds_next.symm⟩
      · exact h.row id stats hold
    · intro call hcall id hcarries
      have hle := h.carried call hcall id hcarries
      show id ≤ m.lastStatId + 1
      omega

/-- The row a lookup returns is the one stored under its id. -/
theorem getCurrent_row (h : Books view carries added m)
    (hcreate : ∀ id, view.id (createStats id) = id) :
    (m.getCurrent key isCurrent createStats).2.rows[
      view.id (m.getCurrent key isCurrent createStats).1]? =
      some (m.getCurrent key isCurrent createStats).1 :=
  UsageManager.getCurrent_row (fun id stats hrow => (h.row id stats hrow).2.1) hcreate

end GetCurrent

section Add

variable {call : Call}

/-- A call that carries no id, or the id 0 that no row has, is booked nowhere. -/
theorem add_none (h : Books view carries added m)
    (hcall : carries call = none ∨ carries call = some 0) :
    Books view carries (added ++ [call]) m where
  ids := h.ids
  last := h.last
  row := by
    intro id stats hrow
    obtain ⟨hpos, hid, hused⟩ := h.row id stats hrow
    have hne : carries call ≠ some id := by
      rcases hcall with hnone | hzero
      · simp [hnone]
      · rw [hzero]
        intro heq
        have := Option.some.inj heq
        omega
    refine ⟨hpos, hid, ?_⟩
    rw [takenSeconds_concat, if_neg hne, Int.add_zero]
    exact hused
  carried := by
    intro call' hcall' id hid
    rcases List.mem_append.mp hcall' with hmem | hmem
    · exact h.carried call' hmem id hid
    · rw [List.mem_singleton.mp hmem] at hid
      have hlast := h.last
      rcases hcall with hnone | hzero
      · rw [hnone] at hid
        exact absurd hid (by simp)
      · rw [hzero] at hid
        have := Option.some.inj hid
        omega

/-- A call is booked on the row it carries the id of. -/
theorem add_row (h : Books view carries added m) {id : Int} {stats stats' : ρ}
    (hcall : carries call = some id) (hrow : m.rows[id]? = some stats)
    (hid : view.id stats' = view.id stats)
    (hused : view.used stats' = view.used stats + call.packageTime) :
    Books view carries (added ++ [call]) (m.putRow id stats') where
  ids := h.ids.putRow hrow stats'
  last := h.last
  row := by
    intro id' stats'' hrow'
    simp only [UsageManager.putRow, Ledger.put_rows, IntMap.getElem?_insert] at hrow'
    rw [takenSeconds_concat, hcall]
    split at hrow'
    case isTrue heq =>
      subst heq
      obtain ⟨hpos, hid₀, hused₀⟩ := h.row id stats hrow
      rw [← Option.some.inj hrow', if_pos rfl]
      exact ⟨hpos, hid.trans hid₀, by rw [hused, hused₀]⟩
    case isFalse hne =>
      rw [if_neg (by simpa using hne), Int.add_zero]
      exact h.row id' stats'' hrow'
  carried := by
    intro call' hcall' id' hid'
    rcases List.mem_append.mp hcall' with hmem | hmem
    · exact h.carried call' hmem id' hid'
    · rw [List.mem_singleton.mp hmem, hcall, Option.some.injEq] at hid'
      subst hid'
      by_contra hlt
      rw [h.ids id (not_le.mp hlt)] at hrow
      exact absurd hrow (by simp)

end Add

end Books

/-! ## The index -/

namespace UsageManager

variable {ρ : Type} {m : UsageManager ρ} {k : Int} {isCurrent : ρ → Bool} {createStats : Int → ρ}

/-- A row that is found is returned. -/
theorem getCurrent_of_some {stats : ρ} (h : m.findCurrent k isCurrent = some stats) :
    m.getCurrent k isCurrent createStats = (stats, m) := by
  rw [getCurrent, h]

/-- If none is found, a row is created under the next id. -/
theorem getCurrent_of_none (h : m.findCurrent k isCurrent = none) :
    m.getCurrent k isCurrent createStats =
      (createStats (m.lastStatId + 1),
        { m.putRow (m.lastStatId + 1) (createStats (m.lastStatId + 1)) with
          lastStatId := m.lastStatId + 1
          statsByKey := m.statsByKey.insert k
            ((m.lastStatId + 1) :: (m.statsByKey[k]?.getD [])) }) := by
  rw [getCurrent, h]

end UsageManager

/-- Rows are stored under their own id and listed under their own key, and the
index lists nothing else. -/
structure Indexed {ρ : Type} (id key : ρ → Int) (m : UsageManager ρ) : Prop where
  ids : m.IdsBounded
  row : ∀ (i : Int) (stats : ρ), m.rows[i]? = some stats →
    id stats = i ∧ i ∈ m.statsByKey[key stats]?.getD []
  listed : ∀ k, ∀ i ∈ m.statsByKey[k]?.getD [], ∃ stats, m.rows[i]? = some stats ∧ key stats = k

namespace Indexed

variable {ρ : Type} {id key : ρ → Int} {m m' : UsageManager ρ}

theorem empty : Indexed id key (UsageManager.empty : UsageManager ρ) where
  ids := fun i _ => by simp [UsageManager.empty]
  row := fun i stats h => absurd h (by simp [UsageManager.empty])
  listed := fun k i h => absurd h (by simp [UsageManager.empty])

theorem congr (h : Indexed id key m) (hrows : m'.rows = m.rows)
    (hlast : m'.lastStatId = m.lastStatId) (hindex : m'.statsByKey = m.statsByKey) :
    Indexed id key m' where
  ids := by
    intro i hi
    rw [hrows]
    exact h.ids i (hlast ▸ hi)
  row := by
    rw [hrows, hindex]
    exact h.row
  listed := by
    rw [hrows, hindex]
    exact h.listed

/-- A row that is found is stored under its id, has the key and is current. -/
theorem of_findCurrent {k : Int} {isCurrent : ρ → Bool} {stats : ρ} (h : Indexed id key m)
    (hfind : m.findCurrent k isCurrent = some stats) :
    m.rows[id stats]? = some stats ∧ key stats = k ∧ isCurrent stats = true := by
  obtain ⟨i, hi, hrow⟩ := List.exists_of_findSome?_eq_some hfind
  obtain ⟨hstored, hcurrent⟩ := Option.filter_eq_some_iff.mp hrow
  obtain ⟨stats', hstored', hkey⟩ := h.listed k i hi
  rw [hstored, Option.some.injEq] at hstored'
  subst hstored'
  rw [(h.row i stats hstored).1]
  exact ⟨hstored, hkey, hcurrent⟩

/-- If no row is found, no row of the key is current. -/
theorem of_findCurrent_eq_none {k i : Int} {isCurrent : ρ → Bool} {stats : ρ}
    (h : Indexed id key m) (hfind : m.findCurrent k isCurrent = none)
    (hrow : m.rows[i]? = some stats) (hkey : key stats = k) : isCurrent stats = false := by
  have hlisted := (h.row i stats hrow).2
  rw [hkey] at hlisted
  have hnone := List.findSome?_eq_none_iff.mp hfind i hlisted
  rw [hrow] at hnone
  simpa using hnone

section GetCurrent

variable {k : Int} {isCurrent : ρ → Bool} {createStats : Int → ρ}

/-- The row a lookup returns is stored under its id. -/
theorem getCurrent_row (h : Indexed id key m) (hcreate : ∀ i, id (createStats i) = i) :
    (m.getCurrent k isCurrent createStats).2.rows[
      id (m.getCurrent k isCurrent createStats).1]? =
      some (m.getCurrent k isCurrent createStats).1 :=
  UsageManager.getCurrent_row (fun i stats hrow => (h.row i stats hrow).1) hcreate

/-- A lookup keeps the index if a new row has its id and its key. -/
theorem getCurrent (h : Indexed id key m)
    (hcreate : ∀ i, id (createStats i) = i ∧ key (createStats i) = k) :
    Indexed id key (m.getCurrent k isCurrent createStats).2 := by
  have hids := UsageManager.getCurrent_idsBounded h.ids k isCurrent createStats
  rcases m.getCurrent_cases k isCurrent createStats with ⟨_, _, _, _, heq⟩ | heq
  · rw [heq]
    exact h
  rw [heq] at hids ⊢
  obtain ⟨hid, hkey⟩ := hcreate (m.lastStatId + 1)
  refine ⟨hids, ?_, ?_⟩
  · intro i stats hrow
    simp only [UsageManager.putRow, Ledger.put_rows, IntMap.getElem?_insert] at hrow ⊢
    by_cases hi : m.lastStatId + 1 = i
    · rw [if_pos hi, Option.some.injEq] at hrow
      subst hrow
      rw [hkey, if_pos rfl]
      exact ⟨hid.trans hi, by simp [hi]⟩
    · rw [if_neg hi] at hrow
      obtain ⟨hid', hlisted⟩ := h.row i stats hrow
      refine ⟨hid', ?_⟩
      split
      case isTrue hk => exact List.mem_cons_of_mem _ (hk ▸ hlisted)
      case isFalse => exact hlisted
  · intro k' i hi
    simp only [UsageManager.putRow, Ledger.put_rows, IntMap.getElem?_insert] at hi ⊢
    -- the new id is listed once, under the key it was looked up with
    have hold : i ∈ m.statsByKey[k']?.getD [] ∨ (k = k' ∧ i = m.lastStatId + 1) := by
      split at hi
      case isTrue hk =>
        rcases List.mem_cons.mp hi with rfl | hi
        · exact Or.inr ⟨hk, rfl⟩
        · exact Or.inl (hk ▸ hi)
      case isFalse => exact Or.inl hi
    rcases hold with hmem | ⟨rfl, rfl⟩
    · obtain ⟨stats, hrow, hstats⟩ := h.listed k' i hmem
      have hne : m.lastStatId + 1 ≠ i := by
        rintro rfl
        rw [h.ids.next] at hrow
        exact absurd hrow (by simp)
      rw [if_neg hne]
      exact ⟨stats, hrow, hstats⟩
    · rw [if_pos rfl]
      exact ⟨_, rfl, hkey⟩

end GetCurrent

/-- A changed row keeps its place. -/
theorem putRow (h : Indexed id key m) {i : Int} {stats stats' : ρ} (hrow : m.rows[i]? = some stats)
    (hid : id stats' = id stats) (hkey : key stats' = key stats) :
    Indexed id key (m.putRow i stats') where
  ids := h.ids.putRow hrow stats'
  row := by
    intro i' stats'' hrow'
    show id stats'' = i' ∧ i' ∈ m.statsByKey[key stats'']?.getD []
    rcases UsageManager.of_putRow hrow' with ⟨rfl, rfl⟩ | hold
    · rw [hid, hkey]
      exact h.row i' stats hrow
    · exact h.row i' stats'' hold
  listed := by
    intro k i' hi'
    obtain ⟨stats'', hrow', hkey'⟩ := h.listed k i' hi'
    obtain ⟨after, hafter, hsame⟩ := UsageManager.exists_putRow
      (R := fun old new => key new = key old) hrow (fun _ => rfl) hkey hrow'
    exact ⟨after, hafter, hsame.trans hkey'⟩

theorem addBooked (h : Indexed id key m) (booked : Option Int) {update : ρ → ρ}
    (hid : ∀ stats, id (update stats) = id stats) (hkey : ∀ stats, key (update stats) = key stats) :
    Indexed id key (m.addBooked booked update) := by
  rcases m.addBooked_cases booked update with ⟨-, heq⟩ | ⟨i, stats, -, hrow, heq⟩
  · rw [heq]
    exact h
  · rw [heq]
    exact h.putRow hrow (hid stats) (hkey stats)

end Indexed
end VoipBill
