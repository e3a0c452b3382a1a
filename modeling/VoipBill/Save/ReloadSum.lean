import VoipBill.Lib.Run
import VoipBill.Save.CallQueue

/-!
# Reloading the balance of an account

`StatsAccountManager::reloadSum` asks the database for the cost of the stored
calls and, in a second step under the lock, overwrites the sums in memory.
Calls that are still queued when the query runs are not stored, and calls that
are added before the assignment are overwritten.

The costs of stored and queued calls together are conserved by every step of
the billing and the save thread (`totalCost_run`), so the reloaded sum is right
exactly when the calls it missed cost nothing.
-/

namespace VoipBill

open Lib

namespace StatsAccountManager

/-- A row of the reload query. -/
structure SumRow where
  accountId : Int
  sum : ℚ
  amountDate : Int

/-- `sPrevMonth`: 32 days before the first of the current month. -/
def prevMonth (now : Int) : Int := getTmonth now 0 - 32 * 86400

/-- Cost of the calls of an account since a date.  Calls without an account are
stored with an empty `account_id` and belong to nobody. -/
def totalCost (accountId since : Int) (calls : List Call) : ℚ :=
  ((calls.filter fun call =>
    call.accountId ≠ 0 ∧ call.accountId = accountId ∧ since ≤ call.connectTime).map Call.cost).sum

/-- The query of `reloadSum` at the time `now`; `clients` has the `amount_date`
of every client. -/
def reloadQuery (db : CallsDb) (clients : IntMap Int) (now : Int) (accountIds : List Int) :
    List SumRow :=
  (clients.toList.filter fun c => c.1 ∈ accountIds).map fun c =>
    { accountId := c.1
      sum := totalCost c.1 (max (prevMonth now) c.2) db.storedCalls
      amountDate := c.2 }

/-- One turn of the loop of `reloadSum` over its result. -/
def reloadRow (m : StatsAccountManager) (row : SumRow) : StatsAccountManager :=
  { m with
    rows := m.rows.insert row.accountId
      { m.rows[row.accountId]?.getD {} with
        accountId := row.accountId
        sum := row.sum
        amountDate := row.amountDate }
    forSync := m.forSync.insert row.accountId }

def reloadSum (m : StatsAccountManager) (res : List SumRow) : StatsAccountManager :=
  res.foldl reloadRow m

@[simp] theorem reloadSum_parts (m : StatsAccountManager) (res : List SumRow) :
    (m.reloadSum res).parts = m.parts := by
  induction res generalizing m with
  | nil => rfl
  | cons row res ih => exact ih (m.reloadRow row)

/-- The row of an account comes from the row of the result with its id. -/
theorem reloadSum_row {m : StatsAccountManager} {res : List SumRow} {row : SumRow}
    (hrow : row ∈ res) (hdistinct : res.Pairwise fun a b => a.accountId ≠ b.accountId) :
    ∃ stats, (m.reloadSum res).rows[row.accountId]? = some stats ∧
      stats.sum = row.sum ∧ stats.amountDate = row.amountDate := by
  have hother : ∀ (res : List SumRow) (m : StatsAccountManager) (id : Int),
      (∀ r ∈ res, r.accountId ≠ id) → (m.reloadSum res).rows[id]? = m.rows[id]? := by
    intro res
    induction res with
    | nil => intro m id _; rfl
    | cons r res ih =>
        intro m id hne
        have hrest := ih (m.reloadRow r) id fun r' h => hne r' (List.mem_cons_of_mem r h)
        refine hrest.trans ?_
        exact IntMap.getElem?_insert_of_ne _ (hne r List.mem_cons_self) _
  induction res generalizing m with
  | nil => exact absurd hrow (by simp)
  | cons r res ih =>
      rw [List.pairwise_cons] at hdistinct
      rcases List.mem_cons.mp hrow with rfl | hrow
      · refine ⟨_, (hother res (m.reloadRow row) row.accountId ?_).trans
          (IntMap.getElem?_insert_self _ _ _), rfl, rfl⟩
        exact fun r' h => (hdistinct.1 r' h).symm
      · exact ih hrow hdistinct.2

end StatsAccountManager

/-! ## The system with a reload thread -/

namespace ReloadSum

open StatsAccountManager

/-- The reload thread holds the result of its query until it gets the lock. -/
structure ReloadSys extends BillingSys where
  res : Option (List SumRow)

inductive Act where
  | addCall (callInfo : CallInfo)
  | lookup (l : Lookup)
  | save (a : SaveAct)
  | query (clients : IntMap Int) (now : Int) (accountIds : List Int)
  | assign

def step (s : ReloadSys) : Act → Option ReloadSys
  | .addCall callInfo => some { s with toBillingSys := s.toBillingSys.addCall callInfo }
  | .lookup l => some { s with data := s.data.lookup l }
  | .save a => (s.toBillingSys.saveStep a).map fun sys => { s with toBillingSys := sys }
  | .query clients now accountIds =>
      match s.res with
      | none => some { s with res := some (reloadQuery s.db clients now accountIds) }
      | some _ => none
  | .assign =>
      match s.res with
      | some res =>
          some { s with
            data := { s.data with statsAccount := s.data.statsAccount.reloadSum res }
            res := none }
      | none => none

def Act.isReload : Act → Bool
  | .query _ _ _ => true
  | .assign => true
  | _ => false

/-- Calls added by the actions of a run. -/
def addedCalls (as : List Act) : List Call :=
  as.filterMap fun
    | .addCall callInfo => some callInfo.call
    | _ => none

/-- Stored calls and queued calls. -/
def allCalls (s : BillingSys) : List Call := s.db.storedCalls ++ s.queuedCalls

/-! ## Conservation of cost -/

theorem totalCost_append (accountId since : Int) (calls more : List Call) :
    totalCost accountId since (calls ++ more) =
      totalCost accountId since calls + totalCost accountId since more := by
  simp [totalCost]

theorem totalCost_perm {calls calls' : List Call} (h : calls.Perm calls') (accountId since : Int) :
    totalCost accountId since calls = totalCost accountId since calls' :=
  ((h.filter _).map _).sum_eq

theorem saveInv_reloadSum {s : BillingSys} {n : Nat} (h : SaveInv s n) (res : List SumRow) :
    SaveInv
      { s with data := { s.data with statsAccount := s.data.statsAccount.reloadSum res } } n where
  aligned := { h.aligned with statsAccount := by simpa using h.aligned.statsAccount }
  written_lt := h.written_lt
  prepared := by
    intro done q hsaver
    obtain ⟨h2, hq⟩ := h.prepared done q hsaver
    refine ⟨h2, hq.congr ?_⟩
    simp [SaveQueries.ofContainer]

/-- A step keeps the invariant, and one that does not reload keeps every call. -/
theorem step_calls {s s' : ReloadSys} {a : Act} (h : ∃ n, SaveInv s.toBillingSys n)
    (hs : step s a = some s') :
    (∃ n, SaveInv s'.toBillingSys n) ∧
      (a.isReload = false →
        s'.res = s.res ∧
          (allCalls s'.toBillingSys).Perm (allCalls s.toBillingSys ++ addedCalls [a])) := by
  obtain ⟨n, h⟩ := h
  cases a with
  | addCall callInfo =>
      rw [step, Option.some.injEq] at hs
      subst hs
      obtain ⟨hinv, hqueued⟩ := h.addCall callInfo
      refine ⟨hinv, fun _ => ⟨rfl, ?_⟩⟩
      simp only [allCalls, hqueued, ← List.append_assoc]
      exact List.Perm.refl _
  | lookup l =>
      rw [step, Option.some.injEq] at hs
      subst hs
      refine ⟨⟨n, h.lookup l⟩, fun _ => ⟨rfl, ?_⟩⟩
      rw [allCalls, BillingSys.queuedCalls_lookup]
      simp [allCalls, addedCalls]
  | save a =>
      rw [step, Option.map_eq_some_iff] at hs
      obtain ⟨sys, hsys, rfl⟩ := hs
      -- a save moves calls from the queue to the database
      obtain ⟨n', part, hinv, hqueued, hextends⟩ := h.saveStep hsys
      refine ⟨⟨n', hinv⟩, fun _ => ⟨rfl, ?_⟩⟩
      simp only [allCalls, addedCalls, List.filterMap_cons, List.filterMap_nil, List.append_nil]
      rw [hqueued, ← List.append_assoc]
      exact hextends.storedCalls.append_right _
  | query clients now accountIds =>
      rw [step] at hs
      split at hs
      · rw [Option.some.injEq] at hs
        subst hs
        exact ⟨⟨n, h⟩, fun hreload => absurd hreload (by simp [Act.isReload])⟩
      · exact absurd hs (by simp)
  | assign =>
      rw [step] at hs
      split at hs
      · rw [Option.some.injEq] at hs
        subst hs
        exact ⟨⟨n, saveInv_reloadSum h _⟩, fun hreload => absurd hreload (by simp [Act.isReload])⟩
      · exact absurd hs (by simp)

theorem run_saveInv {s t : ReloadSys} {as : List Act} (hs : s.toBillingSys.Idle)
    (hrun : run step s as = some t) : ∃ n, SaveInv t.toBillingSys n :=
  run_invariant (fun _ _ _ h hstep => (step_calls h hstep).1) ⟨1, SaveInv.init hs⟩ hrun

/-- Without a reload, the calls of a run are those at its start and those added. -/
theorem run_calls {s t : ReloadSys} {as : List Act} (h : ∃ n, SaveInv s.toBillingSys n)
    (hreload : ∀ a ∈ as, a.isReload = false) (hrun : run step s as = some t) :
    t.res = s.res ∧ (allCalls t.toBillingSys).Perm (allCalls s.toBillingSys ++ addedCalls as) := by
  induction as generalizing s with
  | nil =>
      rw [run_nil, Option.some.injEq] at hrun
      subst hrun
      simp [addedCalls]
  | cons a as ih =>
      obtain ⟨s', hstep, hrest⟩ := run_cons_eq_some hrun
      obtain ⟨hinv, hcalls⟩ := step_calls h hstep
      obtain ⟨hres, hperm⟩ := hcalls (hreload a List.mem_cons_self)
      obtain ⟨hres', hperm'⟩ :=
        ih hinv (fun b hb => hreload b (List.mem_cons_of_mem a hb)) hrest
      refine ⟨hres'.trans hres, hperm'.trans ?_⟩
      have hadded : addedCalls (a :: as) = addedCalls [a] ++ addedCalls as := by
        simp only [addedCalls, ← List.filterMap_append, List.singleton_append]
      rw [hadded, ← List.append_assoc]
      exact hperm.append_right _

/-! ## When a reload is right -/

theorem reloadQuery_distinct (db : CallsDb) (clients : IntMap Int) (now : Int)
    (accountIds : List Int) :
    (reloadQuery db clients now accountIds).Pairwise fun a b => a.accountId ≠ b.accountId := by
  have hkeys : clients.toList.Pairwise fun a b => a.1 ≠ b.1 :=
    Std.ExtTreeMap.distinct_keys_toList.imp fun h heq => h (by simp [heq])
  exact List.pairwise_map.mpr (hkeys.filter _)

theorem mem_reloadQuery {clients : IntMap Int} {accountIds : List Int} {id amountDate : Int}
    (hid : id ∈ accountIds) (hclient : clients[id]? = some amountDate) (db : CallsDb) (now : Int) :
    ⟨id, totalCost id (max (prevMonth now) amountDate) db.storedCalls, amountDate⟩ ∈
      reloadQuery db clients now accountIds := by
  refine List.mem_map.mpr ⟨(id, amountDate), ?_, rfl⟩
  rw [List.mem_filter]
  exact ⟨Std.ExtTreeMap.mem_toList_iff_getElem?_eq_some.mpr hclient, by simpa using hid⟩

/-- What a reload leaves: every row of its result is assigned, and the calls are
those at the query and those added since. -/
theorem run_reload {t u : ReloadSys} {mid : List Act} (h : ∃ n, SaveInv t.toBillingSys n)
    {clients : IntMap Int} {now : Int} {accountIds : List Int}
    (hmid : ∀ a ∈ mid, a.isReload = false)
    (hreload : run step t (.query clients now accountIds :: mid ++ [.assign]) = some u) :
    (∀ row ∈ reloadQuery t.db clients now accountIds,
      ∃ stats, u.data.statsAccount.rows[row.accountId]? = some stats ∧
        stats.sum = row.sum ∧ stats.amountDate = row.amountDate) ∧
      (allCalls u.toBillingSys).Perm (allCalls t.toBillingSys ++ addedCalls mid) := by
  rw [List.cons_append] at hreload
  obtain ⟨t₁, hquery, hrest⟩ := run_cons_eq_some hreload
  rw [run_append, Option.bind_eq_some_iff] at hrest
  obtain ⟨t₂, hmidrun, hlast⟩ := hrest
  obtain ⟨t₃, hassign, hnil⟩ := run_cons_eq_some hlast
  rw [run_nil, Option.some.injEq] at hnil
  subst hnil
  rw [step] at hquery
  split at hquery
  case h_2 => exact absurd hquery (by simp)
  case h_1 =>
    rw [Option.some.injEq] at hquery
    subst hquery
    obtain ⟨hres, hcalls⟩ := run_calls (by exact h) hmid hmidrun
    rw [step, hres] at hassign
    simp only [Option.some.injEq] at hassign
    subst hassign
    refine ⟨fun row hrow => ?_, hcalls⟩
    exact reloadSum_row hrow (reloadQuery_distinct t.db clients now accountIds)

/-- **Balance reload.**  In every run, the sum of a reloaded account is the cost
of its stored and queued calls since the new `amount_date` exactly when the
calls that were queued at the query, or added between the query and the
assignment, cost nothing together. -/
theorem reloaded_sum_eq_iff {s t u : ReloadSys} {as mid : List Act} (hs : s.toBillingSys.Idle)
    (hrun : run step s as = some t) {clients : IntMap Int} {now : Int} {accountIds : List Int}
    (hmid : ∀ a ∈ mid, a.isReload = false)
    (hreload : run step t (.query clients now accountIds :: mid ++ [.assign]) = some u)
    {id amountDate : Int} (hid : id ∈ accountIds) (hclient : clients[id]? = some amountDate)
    (hrecent : prevMonth now ≤ amountDate) :
    ∃ stats, u.data.statsAccount.rows[id]? = some stats ∧ stats.amountDate = amountDate ∧
      (stats.sum = totalCost id amountDate (u.db.storedCalls ++ u.queuedCalls) ↔
        totalCost id amountDate (t.queuedCalls ++ addedCalls mid) = 0) := by
  obtain ⟨hrows, hcalls⟩ := run_reload (run_saveInv hs hrun) hmid hreload
  obtain ⟨stats, hstats, hsum, hdate⟩ := hrows _ (mem_reloadQuery hid hclient t.db now)
  refine ⟨stats, hstats, hdate, ?_⟩
  have hall : totalCost id amountDate (u.db.storedCalls ++ u.queuedCalls) =
      totalCost id amountDate t.db.storedCalls +
        totalCost id amountDate (t.queuedCalls ++ addedCalls mid) := by
    rw [allCalls, allCalls, List.append_assoc] at hcalls
    rw [totalCost_perm hcalls, totalCost_append]
  rw [hsum, max_eq_right hrecent, hall, eq_comm, add_eq_left]

/-- Nothing is loaded, stored or queued. -/
def start : ReloadSys := ⟨⟨DataBillingContainer.empty, ⟨∅, ∅, ∅, ∅, ∅, ∅⟩, .idle⟩, none⟩

theorem start_idle : start.toBillingSys.Idle := by
  constructor <;> rfl

/-- A call of account 7. -/
def addCall7 : Act :=
  .addCall { call := { id := 1, accountId := 7, cost := -2 }, account := some { id := 7 } }

/-- One execution of `save`. -/
def saveAll : List Act :=
  [.save .start, .save .prepare, .save .prepare, .save .prepare, .save .prepare, .save .prepare,
    .save .prepare, .save .commit, .save .remove]

/-- Account 7 is reloaded after its call is saved. -/
theorem reloaded_sum_eq_of_saved :
    ∃ u, run step start (addCall7 :: saveAll ++
        [.query (({} : IntMap Int).insert 7 0) 0 [7], .assign]) = some u ∧
      ∃ stats, u.data.statsAccount.rows[(7 : Int)]? = some stats ∧ stats.sum = -2 ∧
        stats.sum = totalCost 7 0 (u.db.storedCalls ++ u.queuedCalls) := by
  have hsum : (run step start (addCall7 :: saveAll ++
      [.query (({} : IntMap Int).insert 7 0) 0 [7], .assign])).bind
      (fun u => u.data.statsAccount.rows[(7 : Int)]?.map StatsAccount.sum) = some (-2) := by
    decide +kernel
  have hqueue : (run step start (addCall7 :: saveAll)).map
      (fun t => t.queuedCalls ++ addedCalls []) = some [] := by
    decide +kernel
  obtain ⟨u, hrun, hu⟩ := Option.bind_eq_some_iff.mp hsum
  obtain ⟨t, ht, hqueued⟩ := Option.map_eq_some_iff.mp hqueue
  rw [run_append, ht] at hrun
  have hreload : run step t
      (.query (({} : IntMap Int).insert 7 0) 0 [7] :: [] ++ [.assign]) = some u := hrun
  have hid : (7 : Int) ∈ [(7 : Int)] := by simp
  have hclient : (({} : IntMap Int).insert 7 0)[(7 : Int)]? = some 0 := by simp
  obtain ⟨stats, hstats, -, hiff⟩ :=
    reloaded_sum_eq_iff start_idle ht (by simp) hreload hid hclient (by decide)
  rw [hqueued] at hiff
  refine ⟨u, ?_, stats, hstats, ?_, hiff.mpr rfl⟩
  · rw [run_append, ht]
    exact hrun
  · simpa [hstats] using hu

/-- A call that is still queued is missing from the reloaded sum. -/
theorem reloaded_sum_misses_queued_call :
    prevMonth 0 ≤ 0 ∧
    ∃ u, run step start [addCall7, .query (({} : IntMap Int).insert 7 0) 0 [7], .assign] = some u ∧
      ∃ stats, u.data.statsAccount.rows[(7 : Int)]? = some stats ∧ stats.amountDate = 0 ∧
        stats.sum ≠ totalCost 7 0 (u.db.storedCalls ++ u.queuedCalls) := by
  have hsum : (run step start [addCall7, .query (({} : IntMap Int).insert 7 0) 0 [7],
      .assign]).bind (fun u => u.data.statsAccount.rows[(7 : Int)]?.map fun stats =>
        (stats.amountDate, stats.sum, totalCost 7 0 (u.db.storedCalls ++ u.queuedCalls))) =
      some (0, 0, -2) := by
    decide +kernel
  obtain ⟨u, hrun, hu⟩ := Option.bind_eq_some_iff.mp hsum
  obtain ⟨stats, hstats, heq⟩ := Option.map_eq_some_iff.mp hu
  simp only [Prod.mk.injEq] at heq
  obtain ⟨hdate, hzero, hcost⟩ := heq
  refine ⟨by decide, u, hrun, stats, hstats, hdate, ?_⟩
  rw [hzero, hcost]
  decide

end ReloadSum
end VoipBill
