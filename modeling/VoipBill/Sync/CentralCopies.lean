import VoipBill.Lib.BatchCopy
import VoipBill.Lib.Calendar

/-!
# Copying CDRs and calls to the central database

`ThreadSyncCdrs` and `ThreadSyncCalls`: the local tables are partitioned by month,
and a run brings only the months around the first row behind the greatest central
id up to date.  CDRs are copied for the month of that row and the next one, calls
also for the month before.

A row of the local table is its id and the time that its partition depends on; the
other columns are copied along.  The central tables are those of this server.

Both runs are instances of the copying by keys of `Lib.BatchCopy`: the rows that
every run misses are those outside of the windows of all leaders.
-/

namespace VoipBill

open Lib Lib.Calendar

/-- A row of `calls_cdr.cdr` with its `setup_time`, or of `calls_raw.calls_raw` with
its `connect_time`. -/
structure StoredRow where
  id : Int
  time : Int
deriving DecidableEq

/-- The month of a time, counted from the year 0. -/
def monthOf (t : Int) : Int :=
  12 * (civilOfDays (t / 86400)).year + ((civilOfDays (t / 86400)).month - 1)

/-- A local table: the ids grow from row to row. -/
structure LocalTable where
  rows : List StoredRow
  sorted : rows.Pairwise fun a b => a.id < b.id
  positive : ∀ row ∈ rows, 0 < row.id

namespace LocalTable

/-- The table with its monthly partitions. -/
def byMonth (table : LocalTable) : Source StoredRow Int where
  key := StoredRow.id
  part := fun row => monthOf row.time
  rows := table.rows
  sorted := table.sorted
  positive := table.positive

/-- `getCurrentMonths`: the months before, of and after the first row behind the
given id. -/
def getCurrentMonths (table : LocalTable) (id : Int) : Option (Int × Int × Int) :=
  (table.rows.find? fun row => id < row.id).map fun row =>
    (monthOf row.time - 1, monthOf row.time, monthOf row.time + 1)

end LocalTable

/-! ## The code -/

namespace ThreadSyncCdrs

section

variable (table : LocalTable)

/-- `copyCallsCdr`; `none` when it returns false. -/
def copyCallsCdr (month : Int) (limit : Nat) (central : List StoredRow) :
    Option (List StoredRow) :=
  table.byMonth.copyPart limit month central

def syncCallsCdr (lastSyncCentralCdrId : Int) (central : List StoredRow) :
    Option (List StoredRow) :=
  match table.getCurrentMonths lastSyncCentralCdrId with
  | none => none
  | some (_, localCurrSyncMonth, localNextSyncMonth) =>
      match copyCallsCdr table localCurrSyncMonth 100000 central with
      | some central => some central
      | none => copyCallsCdr table localNextSyncMonth 100000 central

/-- `while (syncCallsCdr())`. -/
def syncLoop (lastSyncCentralCdrId : Int) : Nat → List StoredRow → List StoredRow
  | 0, central => central
  | fuel + 1, central =>
      match syncCallsCdr table lastSyncCentralCdrId central with
      | none => central
      | some central => syncLoop lastSyncCentralCdrId fuel central

/-- The last id is loaded once, before the loop. -/
def run (central : List StoredRow) : List StoredRow :=
  syncLoop table (table.byMonth.progress central) (2 * table.rows.length + 1) central

/-- `run` a number of times. -/
def runs (central : List StoredRow) : Nat → List StoredRow
  | 0 => central
  | k + 1 => run table (runs central k)

end

/-- The months of one run. -/
def months (month : Int) : List Int := [month, month + 1]

end ThreadSyncCdrs

namespace ThreadSyncCalls

section

variable (table : LocalTable)

/-- `while (copyCallsPart(month, 100000)) { }`. -/
def copyCallsPart (month : Int) (central : List StoredRow) : List StoredRow :=
  table.byMonth.copyAll 100000 month (table.rows.length + 1) central

def run (central : List StoredRow) : List StoredRow :=
  match table.getCurrentMonths (table.byMonth.progress central) with
  | none => central
  | some (localPrevSyncMonth, localCurrSyncMonth, localNextSyncMonth) =>
      let central := copyCallsPart table localPrevSyncMonth central
      let central := copyCallsPart table localCurrSyncMonth central
      copyCallsPart table localNextSyncMonth central

/-- `run` a number of times. -/
def runs (central : List StoredRow) : Nat → List StoredRow
  | 0 => central
  | k + 1 => run table (runs central k)

end

/-- The months of one run. -/
def months (month : Int) : List Int := [month - 1, month, month + 1]

end ThreadSyncCalls

/-! ## The code copies by keys -/

namespace LocalTable

variable {table : LocalTable}

theorem length_missing_le (month : Int) (central : List StoredRow) :
    (table.byMonth.missing month central).length ≤ table.rows.length := by
  have hfilter : (table.byMonth.inPart month table.byMonth.rows).length ≤ table.rows.length :=
    List.length_filter_le _ _
  rw [Source.missing, List.length_drop]
  omega

end LocalTable

namespace ThreadSyncCdrs

variable {table : LocalTable}

/-- The loop brings the month and then the next one up to date. -/
theorem syncLoop_eq {lastId month : Int}
    (hmonth : table.getCurrentMonths lastId = some (month - 1, month, month + 1)) :
    ∀ (fuel : Nat) (central : List StoredRow), table.byMonth.InStep central →
      (table.byMonth.missing month central).length +
        (table.byMonth.missing (month + 1) central).length < fuel →
      syncLoop table lastId fuel central = table.byMonth.catchUp (months month) central
  | 0, central, _, hfuel => absurd hfuel (Nat.not_lt_zero _)
  | fuel + 1, central, hstep, hfuel => by
      have hne : month ≠ month + 1 := by omega
      simp only [syncLoop, syncCallsCdr, hmonth, copyCallsCdr,
        Source.copyPart_eq 100000 (hstep month), Source.copyPart_eq 100000 (hstep (month + 1))]
      by_cases hcurrent : table.byMonth.missing month central = []
      · by_cases hnext : table.byMonth.missing (month + 1) central = []
        · -- nothing is left in either month
          simp only [if_pos hcurrent, if_pos hnext]
          rw [months, Source.catchUp_cons, hcurrent, List.append_nil, Source.catchUp_cons, hnext,
            List.append_nil]
          rfl
        · simp only [if_pos hcurrent, if_neg hnext]
          -- the current month is complete: a part of the next one
          have hpos := List.length_pos_iff.mpr hnext
          have hpart : ∀ row ∈ (table.byMonth.missing (month + 1) central).take 100000,
              table.byMonth.part row = month + 1 := fun row hrow =>
            (Source.part_of_mem_missing (List.mem_of_mem_take hrow)).2
          have hfirst : table.byMonth.missing month
              (central ++ (table.byMonth.missing (month + 1) central).take 100000) = [] := by
            rw [Source.missing_append_of_ne hpart hne.symm, hcurrent]
          rw [syncLoop_eq hmonth fuel _ (Source.inStep_append hstep (List.take_prefix _ _)) (by
            rw [hfirst, Source.missing_append_take, List.length_drop, List.length_nil]
            omega)]
          rw [months, Source.catchUp_cons, hfirst, List.append_nil, Source.catchUp_append_take,
            Source.catchUp_cons month, hcurrent, List.append_nil]
      · simp only [if_neg hcurrent]
        -- a part of the current month comes first
        have hpos := List.length_pos_iff.mpr hcurrent
        have hpart : ∀ row ∈ (table.byMonth.missing month central).take 100000,
            table.byMonth.part row = month := fun row hrow =>
          (Source.part_of_mem_missing (List.mem_of_mem_take hrow)).2
        rw [syncLoop_eq hmonth fuel _ (Source.inStep_append hstep (List.take_prefix _ _)) (by
          rw [Source.missing_append_of_ne hpart hne, Source.missing_append_take, List.length_drop]
          omega)]
        exact Source.catchUp_append_take _ _ _ _

/-- A run copies by keys with the window of two months. -/
theorem run_eq {central : List StoredRow} (hstep : table.byMonth.InStep central) :
    run table central = table.byMonth.syncRun months central := by
  rw [run]
  cases hfind : table.rows.find? fun row => table.byMonth.progress central < row.id with
  | none =>
      have hnone : table.getCurrentMonths (table.byMonth.progress central) = none := by
        rw [LocalTable.getCurrentMonths, hfind, Option.map_none]
      rw [Source.syncRun_of_none hfind, syncLoop, syncCallsCdr, hnone]
  | some row =>
      have hmonth : table.getCurrentMonths (table.byMonth.progress central) =
          some (monthOf row.time - 1, monthOf row.time, monthOf row.time + 1) := by
        rw [LocalTable.getCurrentMonths, hfind, Option.map_some]
      have hcurrent : (table.byMonth.missing (monthOf row.time) central).length ≤ _ :=
        LocalTable.length_missing_le _ _
      have hnext : (table.byMonth.missing (monthOf row.time + 1) central).length ≤ _ :=
        LocalTable.length_missing_le _ _
      rw [Source.syncRun_of_some hfind]
      exact syncLoop_eq hmonth _ central hstep (by omega)

theorem runs_eq (n k : Nat) :
    runs table (table.rows.take n) k =
      table.byMonth.afterRuns months (table.rows.take n) k :=
  Source.eq_afterRuns (Source.inStep_take n) rfl (fun _ => rfl) (fun _ => run_eq) k

/-- **Which CDRs reach the central database.**  With the first `n` local CDRs in the
central database, repeated runs bring every local CDR there exactly once if and only if
the month of every other CDR is the month of a leader or the month after it. -/
theorem cdrs_complete_iff (table : LocalTable) (n : Nat) :
    (∃ k, ∀ row ∈ table.rows, (runs table (table.rows.take n) k).count row = 1) ↔
      ∀ row ∈ table.rows.drop n, ∃ leader, table.byMonth.Leader months n leader ∧
        (monthOf row.time = monthOf leader.time ∨
          monthOf row.time = monthOf leader.time + 1) := by
  have hself : ∀ month, month ∈ months month := fun _ => List.mem_cons_self
  have hwindow : (∀ row ∈ table.rows.drop n, ∃ leader, table.byMonth.Leader months n leader ∧
        (monthOf row.time = monthOf leader.time ∨
          monthOf row.time = monthOf leader.time + 1)) ↔
      ∀ row ∈ table.byMonth.rows.drop n, ∃ leader, table.byMonth.Leader months n leader ∧
        table.byMonth.part row ∈ months (table.byMonth.part leader) := by
    simp [months, LocalTable.byMonth]
  simp only [runs_eq]
  rw [hwindow]
  exact Source.complete_iff table.byMonth n hself

/-- Of four CDRs the first is in the central database.  The third one was set up in
January, as the first one, and finished after one that was set up in February. -/
def acrossMonths : LocalTable where
  rows := [⟨1, 1454284000⟩, ⟨2, 1454284810⟩, ⟨3, 1454284740⟩, ⟨4, 1454285000⟩]
  sorted := by decide
  positive := by decide

/-- The third CDR never reaches the central database. -/
theorem cdr_of_last_month_is_left_behind :
    ¬ ∃ k, ∀ row ∈ acrossMonths.rows,
      (runs acrossMonths (acrossMonths.rows.take 1) k).count row = 1 := by
  have hfirst : run acrossMonths (acrossMonths.rows.take 1) =
      [⟨1, 1454284000⟩, ⟨2, 1454284810⟩, ⟨4, 1454285000⟩] := by decide +kernel
  have hagain : run acrossMonths [⟨1, 1454284000⟩, ⟨2, 1454284810⟩, ⟨4, 1454285000⟩] =
      [⟨1, 1454284000⟩, ⟨2, 1454284810⟩, ⟨4, 1454285000⟩] := by decide +kernel
  have hruns : ∀ k, runs acrossMonths (acrossMonths.rows.take 1) (k + 1) =
      [⟨1, 1454284000⟩, ⟨2, 1454284810⟩, ⟨4, 1454285000⟩] := by
    intro k
    induction k with
    | zero => exact hfirst
    | succ k ih => rw [runs, ih, hagain]
  rintro ⟨k, hk⟩
  have hthird := hk ⟨3, 1454284740⟩ (by decide)
  cases k with
  | zero => exact absurd hthird (by decide)
  | succ k =>
      rw [hruns k] at hthird
      exact absurd hthird (by decide)

end ThreadSyncCdrs

namespace ThreadSyncCalls

variable {table : LocalTable}

theorem copyCallsPart_eq {month : Int} {central : List StoredRow}
    (hstep : table.byMonth.InStep central) :
    copyCallsPart table month central = central ++ table.byMonth.missing month central := by
  have hle : (table.byMonth.missing month central).length ≤ _ :=
    LocalTable.length_missing_le _ _
  exact Source.copyAll_eq (by norm_num) hstep (by omega)

/-- A run copies by keys with the window of three months. -/
theorem run_eq {central : List StoredRow} (hstep : table.byMonth.InStep central) :
    run table central = table.byMonth.syncRun months central := by
  rw [run, LocalTable.getCurrentMonths]
  cases hfind : table.rows.find? fun row => table.byMonth.progress central < row.id with
  | none => rw [Source.syncRun_of_none hfind, Option.map_none]
  | some row =>
      have hprev := Source.inStep_append hstep (m := monthOf row.time - 1) List.prefix_rfl
      have hcurr := Source.inStep_append hprev (m := monthOf row.time) List.prefix_rfl
      rw [Source.syncRun_of_some hfind, Option.map_some]
      dsimp only
      rw [copyCallsPart_eq hstep, copyCallsPart_eq hprev, copyCallsPart_eq hcurr]
      rfl

theorem runs_eq (n k : Nat) :
    runs table (table.rows.take n) k =
      table.byMonth.afterRuns months (table.rows.take n) k :=
  Source.eq_afterRuns (Source.inStep_take n) rfl (fun _ => rfl) (fun _ => run_eq) k

/-- **Which calls reach the central database.**  With the first `n` local calls in the
central database, repeated runs bring every local call there exactly once, for good, if
and only if the month of every other call is the month of a leader or the month before
or after it. -/
theorem calls_complete_iff (table : LocalTable) (n : Nat) :
    (∃ k, ∀ l, k ≤ l →
        ∀ row ∈ table.rows, (runs table (table.rows.take n) l).count row = 1) ↔
      ∀ row ∈ table.rows.drop n, ∃ leader, table.byMonth.Leader months n leader ∧
        (monthOf row.time = monthOf leader.time - 1 ∨ monthOf row.time = monthOf leader.time ∨
          monthOf row.time = monthOf leader.time + 1) := by
  have hself : ∀ month, month ∈ months month := fun _ =>
    List.mem_cons_of_mem _ List.mem_cons_self
  have hwindow : (∀ row ∈ table.rows.drop n, ∃ leader, table.byMonth.Leader months n leader ∧
        (monthOf row.time = monthOf leader.time - 1 ∨ monthOf row.time = monthOf leader.time ∨
          monthOf row.time = monthOf leader.time + 1)) ↔
      ∀ row ∈ table.byMonth.rows.drop n, ∃ leader, table.byMonth.Leader months n leader ∧
        table.byMonth.part row ∈ months (table.byMonth.part leader) := by
    simp [months, LocalTable.byMonth]
  simp only [runs_eq]
  rw [hwindow, ← Source.complete_iff table.byMonth n hself]
  constructor
  · rintro ⟨k, hk⟩
    exact ⟨k, hk k le_rfl⟩
  · rintro ⟨k, hk⟩
    exact ⟨k, fun l hl => Source.complete_afterRuns hl hk⟩

/-- Three calls, the second of them connected three months before the others. -/
def lateCall : LocalTable where
  rows := [⟨1, 1460000000⟩, ⟨2, 1452000000⟩, ⟨3, 1460000100⟩]
  sorted := by decide
  positive := by decide

/-- The second call never reaches the central database. -/
theorem late_call_is_left_behind :
    ¬ ∃ k, ∀ l, k ≤ l →
      ∀ row ∈ lateCall.rows, (runs lateCall (lateCall.rows.take 0) l).count row = 1 := by
  have hfirst : run lateCall (lateCall.rows.take 0) =
      [⟨1, 1460000000⟩, ⟨3, 1460000100⟩] := by decide +kernel
  have hagain : run lateCall [⟨1, 1460000000⟩, ⟨3, 1460000100⟩] =
      [⟨1, 1460000000⟩, ⟨3, 1460000100⟩] := by decide +kernel
  have hruns : ∀ k, runs lateCall (lateCall.rows.take 0) (k + 1) =
      [⟨1, 1460000000⟩, ⟨3, 1460000100⟩] := by
    intro k
    induction k with
    | zero => exact hfirst
    | succ k ih => rw [runs, ih, hagain]
  rintro ⟨k, hk⟩
  have hsecond := hk (k + 1) (Nat.le_succ k) ⟨2, 1452000000⟩ (by decide)
  rw [hruns k] at hsecond
  exact absurd hsecond (by decide)

end ThreadSyncCalls

end VoipBill
