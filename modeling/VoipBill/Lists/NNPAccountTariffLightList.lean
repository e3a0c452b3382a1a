import VoipBill.Model.LoadedLists

/-!
# Connected tariffs as they are loaded

`activate_from` and `deactivate_from` are read with `atoi`, which keeps 32 bits.  A date from
2038-01-19 on is read as an earlier one, most of them as a time before 1970.

* `atoi_le`: a date is never read as a later one;
* `findAllActiveByClientID_load`: the loaded list is searched row by row;
* `findsActive_iff`: for which rows the dates that were read decide as the dates in the table.
-/

namespace VoipBill

/-! ## Dates in 32 bits -/

theorem atoi_le {x : ℚ} (h : 0 ≤ x) : (atoi x : ℚ) ≤ x := by
  have hfloor : (0 : Int) ≤ ⌊x⌋ := Int.floor_nonneg.mpr h
  have hle : ⌊x⌋.bmod (2 ^ 32) ≤ ⌊x⌋ := by
    rw [Int.bmod]
    norm_num only
    split <;> omega
  rw [atoi, if_pos h]
  exact (Int.cast_le.mpr hle).trans (Int.floor_le x)

/-- Up to 2038 the whole seconds of a date are read as they are. -/
theorem atoi_of_lt {x : ℚ} (h : 0 ≤ x) (hlt : x < 2 ^ 31) : atoi x = ⌊x⌋ := by
  have hfloor : (0 : Int) ≤ ⌊x⌋ := Int.floor_nonneg.mpr h
  have hlt' : ⌊x⌋ < 2 ^ 31 := Int.floor_lt.mpr (by exact_mod_cast hlt)
  rw [atoi, if_pos h, Int.bmod]
  norm_num only at hlt' ⊢
  split <;> omega

namespace AccountTariffLightRow

/-- The row is valid at a time. -/
def ActiveAt (row : AccountTariffLightRow) (connectTime : Int) : Prop :=
  row.activateFrom ≤ connectTime ∧ (connectTime : ℚ) ≤ row.deactivateFrom

instance (row : AccountTariffLightRow) (connectTime : Int) : Decidable (row.ActiveAt connectTime) :=
  inferInstanceAs (Decidable (_ ∧ _))

/-- The time lies between the two dates as they are read. -/
def ReadActiveAt (row : AccountTariffLightRow) (connectTime : Int) : Prop :=
  atoi row.activateFrom ≤ connectTime ∧ connectTime ≤ atoi row.deactivateFrom

instance (row : AccountTariffLightRow) (connectTime : Int) :
    Decidable (row.ReadActiveAt connectTime) :=
  inferInstanceAs (Decidable (_ ∧ _))

/-- The dates lie between 1970 and 4000. -/
structure InRange (row : AccountTariffLightRow) : Prop where
  activateFrom : 0 ≤ row.activateFrom ∧ row.activateFrom ≤ maxTs
  deactivateFrom : 0 ≤ row.deactivateFrom ∧ row.deactivateFrom ≤ maxTs

/-- The row decides as it should about a service and a time: if it is valid then, the end
that is read is not before the time; if it begins later, or is of another service and asked
for without one, the time is not between the dates that are read. -/
structure Decides (row : AccountTariffLightRow) (serviceNumberId connectTime : Int) : Prop where
  active : row.accountTariffId = serviceNumberId → row.ActiveAt connectTime →
    connectTime ≤ atoi row.deactivateFrom
  early : row.accountTariffId = serviceNumberId → (connectTime : ℚ) < row.activateFrom →
    ¬ row.ReadActiveAt connectTime
  other : row.accountTariffId ≠ serviceNumberId → serviceNumberId = 0 →
    ¬ row.ReadActiveAt connectTime

/-- The loaded row is taken for a service and a time. -/
def Taken (row : AccountTariffLightRow) (serviceNumberId connectTime : Int) : Prop :=
  (row.accountTariffId = serviceNumberId ∨ serviceNumberId = 0) ∧ row.ReadActiveAt connectTime

theorem taken_iff {row : AccountTariffLightRow} (hrange : row.InRange)
    {serviceNumberId connectTime : Int} :
    (row.Taken serviceNumberId connectTime ↔
      row.accountTariffId = serviceNumberId ∧ row.ActiveAt connectTime) ↔
    row.Decides serviceNumberId connectTime := by
  have hfrom : (atoi row.activateFrom : ℚ) ≤ row.activateFrom := atoi_le hrange.activateFrom.1
  have hto : (atoi row.deactivateFrom : ℚ) ≤ row.deactivateFrom := atoi_le hrange.deactivateFrom.1
  constructor
  · intro htaken
    refine ⟨fun hof hactive => (htaken.mpr ⟨hof, hactive⟩).2.2, fun hof hearly hread => ?_,
      fun hother hzero hread => ?_⟩
    · have hactive := (htaken.mp ⟨Or.inl hof, hread⟩).2
      exact absurd hactive.1 (not_le_of_gt hearly)
    · exact hother (htaken.mp ⟨Or.inr hzero, hread⟩).1
  · intro hdecides
    constructor
    · rintro ⟨hof, hread⟩
      have hof' : row.accountTariffId = serviceNumberId := by
        by_contra hother
        exact hdecides.other hother (hof.resolve_left hother) hread
      refine ⟨hof', ?_, ?_⟩
      · by_contra hlate
        exact hdecides.early hof' (not_le.mp hlate) hread
      · exact (Int.cast_le.mpr hread.2).trans hto
    · rintro ⟨hof, hactive⟩
      have hbegun : (atoi row.activateFrom : ℚ) ≤ connectTime := hfrom.trans hactive.1
      exact ⟨Or.inl hof, Int.cast_le.mp hbegun, hdecides.active hof hactive⟩

/-- Rows with dates before 2038, in whole seconds, decide as they should. -/
theorem decides_of_lt {row : AccountTariffLightRow} (hrange : row.InRange)
    (hfrom : row.activateFrom < 2 ^ 31) (hto : row.deactivateFrom < 2 ^ 31)
    (hwhole : (⌊row.activateFrom⌋ : ℚ) = row.activateFrom) {serviceNumberId : Int}
    (hservice : serviceNumberId ≠ 0) (connectTime : Int) :
    row.Decides serviceNumberId connectTime where
  active _ hactive := by
    rw [atoi_of_lt hrange.deactivateFrom.1 hto]
    exact Int.le_floor.mpr hactive.2
  early _ hearly hread := by
    have hle : (⌊row.activateFrom⌋ : ℚ) ≤ connectTime := by
      rw [← atoi_of_lt hrange.activateFrom.1 hfrom]
      exact Int.cast_le.mpr hread.1
    rw [hwhole] at hle
    exact absurd hearly (not_lt_of_ge hle)
  other _ hzero := absurd hzero hservice

end AccountTariffLightRow

namespace NNPAccountTariffLightList

open AccountTariffLightRow

/-- A loaded row is active exactly if it is of the account and taken for the service. -/
theorem isActive_parseItem (row : AccountTariffLightRow)
    (clientId connectTime serviceNumberId : Int) :
    isActive clientId connectTime serviceNumberId (parseItem row) = true ↔
      row.accountClientId = clientId ∧ row.Taken serviceNumberId connectTime := by
  have hservice : (parseItem row).serviceNumberId = serviceNumberId ∨
      (parseItem row).serviceTrunkId = serviceNumberId ↔
        row.accountTariffId = serviceNumberId ∨ serviceNumberId = 0 := by
    simp only [parseItem]
    by_cases htype : row.serviceTypeId = accountTariffLightServiceTypeSimpleNumber
    · rw [if_pos htype, if_pos htype]
      exact or_congr_right eq_comm
    · rw [if_neg htype, if_neg htype]
      exact or_comm.trans (or_congr_right eq_comm)
  rw [isActive]
  simp only [Bool.and_eq_true, Bool.or_eq_true, beq_iff_eq, decide_eq_true_eq, hservice]
  exact ⟨fun h => ⟨h.1.1.1, h.1.1.2, h.1.2, h.2⟩, fun h => ⟨⟨⟨h.1, h.2.1⟩, h.2.2.1⟩, h.2.2.2⟩⟩

/-- The loaded list is searched row by row. -/
theorem findAllActiveByClientID_load (table : AccountTariffLightTable)
    (clientId connectTime serviceNumberId : Int) :
    (load table).findAllActiveByClientID clientId connectTime serviceNumberId =
      (table.rows.filter fun row =>
        isActive clientId connectTime serviceNumberId (parseItem row)).map parseItem := by
  show (table.rows.map parseItem).filter (isActive clientId connectTime serviceNumberId) = _
  rw [List.filter_map]
  rfl

/-- The rows of the table are told apart by their ids. -/
theorem eq_of_parseItem_eq (table : AccountTariffLightTable) {row other : AccountTariffLightRow}
    (hmem : row ∈ table.rows) (hother : other ∈ table.rows)
    (heq : parseItem row = parseItem other) : row = other := by
  have hnodup : (table.rows.map (·.id)).Nodup := List.pairwise_map.mpr (table.sorted.imp ne_of_lt)
  exact List.inj_on_of_nodup_map hnodup hmem hother (congrArg NNPAccountTariffLight.id heq)

/-- The search finds exactly the rows of the account and the service that are valid at the
connect time. -/
def FindsActive (table : AccountTariffLightTable) (clientId connectTime serviceNumberId : Int) :
    Prop :=
  (load table).findAllActiveByClientID clientId connectTime serviceNumberId =
    (table.rows.filter fun row => decide (row.accountClientId = clientId ∧
      row.accountTariffId = serviceNumberId ∧ row.ActiveAt connectTime)).map parseItem

/-- **The active tariffs are those valid at the call** exactly if every row of the account
decides as it should. -/
theorem findsActive_iff (table : AccountTariffLightTable) (hrange : ∀ row ∈ table.rows, row.InRange)
    (clientId connectTime serviceNumberId : Int) :
    FindsActive table clientId connectTime serviceNumberId ↔
      ∀ row ∈ table.rows, row.accountClientId = clientId →
        row.Decides serviceNumberId connectTime := by
  have hrow : ∀ row ∈ table.rows,
      ((isActive clientId connectTime serviceNumberId (parseItem row) =
        decide (row.accountClientId = clientId ∧ row.accountTariffId = serviceNumberId ∧
          row.ActiveAt connectTime)) ↔
      (row.accountClientId = clientId → row.Decides serviceNumberId connectTime)) := by
    intro row hmem
    rw [Bool.eq_iff_iff, isActive_parseItem, decide_eq_true_eq, ← taken_iff (hrange row hmem)]
    exact and_congr_right_iff
  rw [FindsActive, findAllActiveByClientID_load]
  constructor
  · intro hlists row hmem
    refine (hrow row hmem).mp (Bool.eq_iff_iff.mpr ⟨fun hread => ?_, fun hvalid => ?_⟩)
    · have hin : parseItem row ∈ (table.rows.filter fun row =>
          isActive clientId connectTime serviceNumberId (parseItem row)).map parseItem :=
        List.mem_map_of_mem (List.mem_filter.mpr ⟨hmem, hread⟩)
      rw [hlists] at hin
      obtain ⟨other, hother, heq⟩ := List.mem_map.mp hin
      obtain ⟨hotherMem, hvalid⟩ := List.mem_filter.mp hother
      rwa [eq_of_parseItem_eq table hotherMem hmem heq] at hvalid
    · have hin : parseItem row ∈ (table.rows.filter fun row =>
          decide (row.accountClientId = clientId ∧ row.accountTariffId = serviceNumberId ∧
            row.ActiveAt connectTime)).map parseItem :=
        List.mem_map_of_mem (List.mem_filter.mpr ⟨hmem, hvalid⟩)
      rw [← hlists] at hin
      obtain ⟨other, hother, heq⟩ := List.mem_map.mp hin
      obtain ⟨hotherMem, hread⟩ := List.mem_filter.mp hother
      rwa [eq_of_parseItem_eq table hotherMem hmem heq] at hread
  · intro hdecides
    rw [List.filter_congr fun row hmem => (hrow row hmem).mpr (hdecides row hmem)]

/-- A tariff of account 3 and number service 9 from 2017 to the far-future date. -/
def farFutureRow : AccountTariffLightRow where
  id := 1
  accountTariffId := 9
  accountClientId := 3
  activateFrom := 1483228800
  deactivateFrom := maxTs
  serviceTypeId := 3

/-- A tariff of the same number that ends in 2030. -/
def nearRow : AccountTariffLightRow where
  id := 2
  accountTariffId := 9
  accountClientId := 3
  activateFrom := 1483228800
  deactivateFrom := 1893456000
  serviceTypeId := 3

theorem findsActive_nearRow :
    FindsActive ⟨[nearRow], List.pairwise_singleton _ _⟩ 3 1500000000 9 := by
  have hrange : nearRow.InRange := by
    refine ⟨⟨?_, ?_⟩, ?_, ?_⟩ <;> norm_num [nearRow, maxTs]
  refine (findsActive_iff ⟨[nearRow], List.pairwise_singleton _ _⟩
    (fun row hmem => List.mem_singleton.mp hmem ▸ hrange) 3 1500000000 9).mpr ?_
  intro row hmem hclient
  rw [List.mem_singleton.mp hmem]
  exact ⟨by decide +kernel, by decide +kernel, by decide +kernel⟩

/-- The end in the year 4000 is read as a time before 1970, and the tariff is not found. -/
theorem not_findsActive_farFutureRow :
    farFutureRow.InRange ∧ farFutureRow.ActiveAt 1500000000 ∧
      ¬ FindsActive ⟨[farFutureRow], List.pairwise_singleton _ _⟩ 3 1500000000 9 := by
  refine ⟨⟨⟨?_, ?_⟩, ?_, ?_⟩, by decide +kernel, ?_⟩
  · norm_num [farFutureRow]
  · norm_num [farFutureRow, maxTs]
  · norm_num [farFutureRow, maxTs]
  · exact le_refl _
  · unfold FindsActive
    decide +kernel

end NNPAccountTariffLightList
end VoipBill
