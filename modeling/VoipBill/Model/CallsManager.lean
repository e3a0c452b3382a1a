import VoipBill.Lib.WriteBehind
import VoipBill.Model.Common
import VoipBill.Model.Records

/-!
# The queue of calls

`CallsManager` collects priced calls in partitions until they are saved.  A
save writes the calls of the first partition to one table per month:
`prepareSaveQueries` groups them, in the order of the partition inside each
month, and lists the months in the order they first occur.
-/

namespace VoipBill

open Lib

def callsPartitionSize : Nat := 50000

def callsMaxQueueSize : Nat := 1000000

structure CallsManager where
  realtimeCallsParts : List (List Call)
  realtimeLastId : Int
  storedLastId : Int
  realtimeLastTime : Int
  storedLastTime : Int
  realtimeCounter : Nat
  storedCounter : Nat
deriving DecidableEq

namespace CallsManager

def clear : CallsManager where
  realtimeCallsParts := [[]]
  realtimeLastId := -1
  storedLastId := -1
  realtimeLastTime := 0
  storedLastTime := 0
  realtimeCounter := 0
  storedCounter := 0

def add (m : CallsManager) (call : Call) : CallsManager :=
  { m with
    realtimeCallsParts := modifyLast (fun part => part ++ [call]) m.realtimeCallsParts
    realtimeLastId := call.id
    realtimeLastTime := call.connectTime
    realtimeCounter := m.realtimeCounter + 1 }

def getQueueSize (m : CallsManager) : Nat := (m.realtimeCallsParts.map List.length).sum

/-- The month a call is stored under: the first second of the month, UTC. -/
def callMonth (call : Call) : Int :=
  let ttt := gmtimeR call.connectTime
  let dtDay := call.connectTime - ttt.tmHour * 3600 - ttt.tmMin * 60 - ttt.tmSec
  dtDay - (ttt.tmMday - 1) * 86400

/-- Append one call to the query of its month. -/
def prepareCall (queries : IntMap (List Call) × List Int) (call : Call) :
    IntMap (List Call) × List Int :=
  let month := callMonth call
  match queries.1[month]? with
  | none => (queries.1.insert month [call], queries.2 ++ [month])
  | some calls => (queries.1.insert month (calls ++ [call]), queries.2)

/-- `queryPerMonth` and `querytime` for the calls of a partition. -/
def prepareCalls (calls : List Call) : IntMap (List Call) × List Int :=
  calls.foldl prepareCall (∅, [])

def prepareSaveQueries (m : CallsManager) : IntMap (List Call) × List Int :=
  prepareCalls (m.realtimeCallsParts.headD [])

def isNeedSave (m : CallsManager) : Bool :=
  decide (0 < (m.realtimeCallsParts.headD []).length) ||
    decide (1 < m.realtimeCallsParts.length)

def isNeedCreatePartitionBeforeSave (m : CallsManager) : Bool :=
  m.realtimeCallsParts.length == 1

def isNeedCreatePartitionAfterAdd (m : CallsManager) : Bool :=
  decide (callsPartitionSize ≤ (m.realtimeCallsParts.getLastD []).length)

def createNewPartition (m : CallsManager) : CallsManager :=
  { m with realtimeCallsParts := m.realtimeCallsParts ++ [[]] }

def removePartitionAfterSave (m : CallsManager) : CallsManager :=
  let realtimeCalls := m.realtimeCallsParts.headD []
  let m :=
    match realtimeCalls.getLast? with
    | none => m
    | some last =>
        { m with
          storedCounter := m.storedCounter + realtimeCalls.length
          storedLastId := last.id
          storedLastTime := last.connectTime }
  { m with realtimeCallsParts := m.realtimeCallsParts.tail }

@[simp] theorem add_parts (m : CallsManager) (call : Call) :
    (m.add call).realtimeCallsParts =
      modifyLast (fun part => part ++ [call]) m.realtimeCallsParts := rfl

@[simp] theorem createNewPartition_parts (m : CallsManager) :
    m.createNewPartition.realtimeCallsParts = m.realtimeCallsParts ++ [[]] := rfl

@[simp] theorem removePartitionAfterSave_parts (m : CallsManager) :
    m.removePartitionAfterSave.realtimeCallsParts = m.realtimeCallsParts.tail := by
  simp only [removePartitionAfterSave]
  split <;> rfl

/-! ## The queries of a partition -/

theorem prepareCall_of_none {queries : IntMap (List Call) × List Int} {call : Call}
    (h : queries.1[callMonth call]? = none) :
    prepareCall queries call =
      (queries.1.insert (callMonth call) [call], queries.2 ++ [callMonth call]) := by
  simp [prepareCall, h]

theorem prepareCall_of_some {queries : IntMap (List Call) × List Int} {call : Call}
    {calls : List Call} (h : queries.1[callMonth call]? = some calls) :
    prepareCall queries call =
      (queries.1.insert (callMonth call) (calls ++ [call]), queries.2) := by
  simp [prepareCall, h]

theorem prepareCalls_concat (calls : List Call) (call : Call) :
    prepareCalls (calls ++ [call]) = prepareCall (prepareCalls calls) call := by
  simp [prepareCalls]

/-- The calls of one month, in order. -/
def callsOfMonth (calls : List Call) (month : Int) : List Call :=
  calls.filter fun call => callMonth call = month

@[simp] theorem callsOfMonth_append (calls more : List Call) (month : Int) :
    callsOfMonth (calls ++ more) month = callsOfMonth calls month ++ callsOfMonth more month := by
  simp [callsOfMonth]

theorem callsOfMonth_singleton_self (call : Call) :
    callsOfMonth [call] (callMonth call) = [call] := by
  simp [callsOfMonth]

theorem callsOfMonth_singleton_of_ne {call : Call} {month : Int} (h : callMonth call ≠ month) :
    callsOfMonth [call] month = [] := by
  simp [callsOfMonth, h]

/-- The query of a month holds the calls of that month, in order. -/
theorem getElem?_prepareCalls (calls : List Call) (month : Int) :
    (prepareCalls calls).1[month]? =
      if callsOfMonth calls month = [] then none else some (callsOfMonth calls month) := by
  induction calls using List.reverseRecOn with
  | nil => simp [prepareCalls, callsOfMonth]
  | append_singleton calls call ih =>
      rw [prepareCalls_concat, callsOfMonth_append]
      by_cases hmonth : callMonth call = month
      · subst hmonth
        rw [callsOfMonth_singleton_self]
        split at ih
        case isTrue hempty =>
          rw [prepareCall_of_none ih, IntMap.getElem?_insert_self]
          simp [hempty]
        case isFalse =>
          rw [prepareCall_of_some ih, IntMap.getElem?_insert_self]
          simp
      · rw [callsOfMonth_singleton_of_ne hmonth, List.append_nil, ← ih]
        cases hquery : (prepareCalls calls).1[callMonth call]? with
        | none => rw [prepareCall_of_none hquery, IntMap.getElem?_insert_of_ne _ hmonth]
        | some rows => rw [prepareCall_of_some hquery, IntMap.getElem?_insert_of_ne _ hmonth]

theorem getD_prepareCalls (calls : List Call) (month : Int) :
    (prepareCalls calls).1[month]?.getD [] = callsOfMonth calls month := by
  rw [getElem?_prepareCalls]
  split
  case isTrue hempty => exact hempty.symm
  case isFalse => rfl

/-- Grouping by month neither loses nor repeats a call. -/
theorem perm_prepareCalls (calls : List Call) :
    (IntMap.allRows (prepareCalls calls).1).Perm calls := by
  rw [IntMap.allRows, List.perm_iff_count]
  intro call
  have hother : ∀ q ∈ (prepareCalls calls).1.toList, q.1 ≠ callMonth call → call ∉ q.2 := by
    intro q hq hne hmem
    have hrows := getD_prepareCalls calls q.1
    rw [Std.ExtTreeMap.mem_toList_iff_getElem?_eq_some.mp hq, Option.getD_some] at hrows
    rw [hrows, callsOfMonth, List.mem_filter] at hmem
    exact hne (of_decide_eq_true hmem.2).symm
  have hcount : ∀ qs : List (Int × List Call),
      (∀ q ∈ qs, q.1 ≠ callMonth call → call ∉ q.2) →
      (qs.map Prod.snd).flatten.count call =
        ((qs.filter fun q => q.1 = callMonth call).map Prod.snd).flatten.count call := by
    intro qs hqs
    induction qs with
    | nil => rfl
    | cons q qs ih =>
        have htail := ih fun q' hq' => hqs q' (List.mem_cons_of_mem q hq')
        by_cases hq : q.1 = callMonth call
        · simp [hq, htail]
        · have hzero : q.2.count call = 0 :=
            List.count_eq_zero.mpr (hqs q List.mem_cons_self hq)
          simp [hq, htail, hzero]
  rw [hcount _ hother, IntMap.flatten_filter_toList, getD_prepareCalls, callsOfMonth,
    List.count_filter (by simp)]

/-- The months listed for table creation are those that have a query. -/
theorem mem_prepareCalls_months (calls : List Call) (month : Int) :
    month ∈ (prepareCalls calls).2 ↔ callsOfMonth calls month ≠ [] := by
  induction calls using List.reverseRecOn with
  | nil => simp [prepareCalls, callsOfMonth]
  | append_singleton calls call ih =>
      have hquery := getElem?_prepareCalls calls (callMonth call)
      have hmem : month ∈ (prepareCalls (calls ++ [call])).2 ↔
          month ∈ (prepareCalls calls).2 ∨ month = callMonth call := by
        rw [prepareCalls_concat]
        split at hquery
        case isTrue => simp [prepareCall_of_none hquery]
        case isFalse hnonempty =>
          rw [prepareCall_of_some hquery]
          refine ⟨Or.inl, fun h => h.elim id ?_⟩
          rintro rfl
          exact ih.mpr hnonempty
      rw [hmem, ih, callsOfMonth_append]
      by_cases hmonth : callMonth call = month
      · subst hmonth
        simp [callsOfMonth_singleton_self]
      · simp [callsOfMonth_singleton_of_ne hmonth, Ne.symm hmonth]

end CallsManager
end VoipBill
