import VoipBill.Lib.LatestBucket
import VoipBill.Model.BillingCall
import VoipBill.Model.StatsAccountManager

/-!
# Day and month counters of an account

A counter keeps the sums of one day and of one month.  Calls may come in any order: one of a
later day begins the sums anew, one of an earlier day is left out.

* `monthBucket`, `dayBucket`, `mnDayBucket`: the counters as buckets; `updateStats_eq_add`:
  days and months are at least a day apart, so a call is added to each as to a bucket;
* `Books`: the counters after some calls, `books_add`: after one more;
* `counters_of_calls`: the counters after any sequence of calls.
-/

namespace VoipBill

open Lib Lib.LatestBucket

/-- A call of an account with the day and the month that `make_dt` sets.  An account has an
id; 0 stands for none. -/
structure CallInfo.OfAccount (id : Int) (callInfo : CallInfo) : Prop where
  accountId : callInfo.call.accountId = id
  account : callInfo.account ≠ none
  day : callInfo.dtUtc.day = getTday callInfo.call.connectTime 0
  month : callInfo.dtUtc.month = getTmonth callInfo.call.connectTime 0

namespace StatsAccountManager

/-- The cost of an international call. -/
def mnCost (call : Call) : ℚ := if call.isInternational then call.cost else 0

def monthBucket (stats : StatsAccount) : Bucket Int ℚ := ⟨stats.amountMonth, stats.sumMonth⟩

def dayBucket (stats : StatsAccount) : Bucket Int ℚ := ⟨stats.amountDay, stats.sumDay⟩

def mnDayBucket (stats : StatsAccount) : Bucket Int ℚ := ⟨stats.amountDay, stats.sumMnDay⟩

/-! ## One call -/

/-- Starts of days and months are the same or a day apart. -/
theorem abs_sub_lt_iff_eq {a b : Int} (ha : a % 86400 = 0) (hb : b % 86400 = 0) :
    |a - b| < 43200 ↔ a = b := by
  constructor
  · intro h
    rw [abs_lt] at h
    omega
  · rintro rfl
    rw [sub_self, abs_zero]
    norm_num

theorem getTday_emod (t : Int) : getTday t 0 % 86400 = 0 := by
  rw [getTday_eq]
  omega

theorem getTmonth_emod (t : Int) : getTmonth t 0 % 86400 = 0 := by
  rw [getTmonth_eq]
  omega

section Update

variable {stats : StatsAccount} {callInfo : CallInfo} {account : Client}

theorem monthBucket_addMonth (h : callInfo.dtUtc.month % 86400 = 0)
    (hstats : stats.amountMonth % 86400 = 0) :
    monthBucket (addMonth stats callInfo) =
      (monthBucket stats).add callInfo.dtUtc.month callInfo.call.cost := by
  simp only [addMonth, abs_sub_lt_iff_eq h hstats]
  rcases lt_trichotomy callInfo.dtUtc.month stats.amountMonth with hlt | heq | hgt
  · rw [if_neg hlt.ne, if_neg hlt.not_gt, Bucket.add_of_gt hlt]
  · rw [if_pos heq, Bucket.add_of_eq heq]
    rfl
  · rw [if_neg hgt.ne', if_pos hgt, Bucket.add_of_lt hgt]
    rfl

theorem dayBucket_addDay (h : callInfo.dtUtc.day % 86400 = 0)
    (hstats : stats.amountDay % 86400 = 0) :
    dayBucket (addDay stats callInfo) =
      (dayBucket stats).add callInfo.dtUtc.day callInfo.call.cost := by
  simp only [addDay, abs_sub_lt_iff_eq h hstats]
  rcases lt_trichotomy callInfo.dtUtc.day stats.amountDay with hlt | heq | hgt
  · rw [if_neg hlt.ne, if_neg hlt.not_gt, Bucket.add_of_gt hlt]
  · rw [if_pos heq, Bucket.add_of_eq heq]
    rfl
  · rw [if_neg hgt.ne', if_pos hgt, Bucket.add_of_lt hgt]
    rfl

theorem mnDayBucket_addDay (h : callInfo.dtUtc.day % 86400 = 0)
    (hstats : stats.amountDay % 86400 = 0) :
    mnDayBucket (addDay stats callInfo) =
      (mnDayBucket stats).add callInfo.dtUtc.day (mnCost callInfo.call) := by
  simp only [addDay, abs_sub_lt_iff_eq h hstats]
  rcases lt_trichotomy callInfo.dtUtc.day stats.amountDay with hlt | heq | hgt
  · rw [if_neg hlt.ne, if_neg hlt.not_gt, Bucket.add_of_gt hlt]
  · rw [if_pos heq, Bucket.add_of_eq heq, mnCost]
    -- a call that is not international adds nothing
    split
    · rfl
    · rw [add_zero]
      rfl
  · rw [if_neg hgt.ne', if_pos hgt, Bucket.add_of_lt hgt]
    rfl

/-- The month is not touched by the day, nor the day by the month. -/
theorem monthBucket_addDay : monthBucket (addDay stats callInfo) = monthBucket stats := by
  unfold addDay
  split
  · rfl
  · split <;> rfl

theorem dayBucket_addMonth : dayBucket (addMonth stats callInfo) = dayBucket stats ∧
    mnDayBucket (addMonth stats callInfo) = mnDayBucket stats := by
  unfold addMonth
  split
  · exact ⟨rfl, rfl⟩
  · split <;> exact ⟨rfl, rfl⟩

theorem accountId_addMonth : (addMonth stats callInfo).accountId = stats.accountId := by
  unfold addMonth
  split
  · rfl
  · split <;> rfl

theorem accountId_addDay : (addDay stats callInfo).accountId = stats.accountId := by
  unfold addDay
  split
  · rfl
  · split <;> rfl

/-- **A call is added to every bucket**, after the first one has set the day and the month. -/
theorem updateStats_eq_add (hmonth : callInfo.dtUtc.month % 86400 = 0)
    (hday : callInfo.dtUtc.day % 86400 = 0)
    (hstatsMonth : (initStats stats callInfo account).amountMonth % 86400 = 0)
    (hstatsDay : (initStats stats callInfo account).amountDay % 86400 = 0) :
    let row := updateStats stats callInfo account
    let start := initStats stats callInfo account
    row.accountId = start.accountId ∧
      monthBucket row = (monthBucket start).add callInfo.dtUtc.month callInfo.call.cost ∧
      dayBucket row = (dayBucket start).add callInfo.dtUtc.day callInfo.call.cost ∧
      mnDayBucket row = (mnDayBucket start).add callInfo.dtUtc.day (mnCost callInfo.call) := by
  intro row start
  -- the balance has a counter of its own
  have hsum : ∀ stats : StatsAccount, (addSum stats callInfo account).accountId = stats.accountId ∧
      monthBucket (addSum stats callInfo account) = monthBucket stats ∧
      dayBucket (addSum stats callInfo account) = dayBucket stats ∧
      mnDayBucket (addSum stats callInfo account) = mnDayBucket stats := by
    intro stats
    unfold addSum
    split <;> exact ⟨rfl, rfl, rfl, rfl⟩
  obtain ⟨hid, hsumMonth, hsumDay, hsumMnDay⟩ := hsum (addDay (addMonth start callInfo) callInfo)
  obtain ⟨hmonthDay, hmonthMnDay⟩ := @dayBucket_addMonth start callInfo
  have hkept : (addMonth start callInfo).amountDay = start.amountDay :=
    congrArg Bucket.key hmonthDay
  have hkeptDay : (addMonth start callInfo).amountDay % 86400 = 0 := by
    rw [hkept]
    exact hstatsDay
  refine ⟨hid.trans ?_, ?_, ?_, ?_⟩
  · rw [accountId_addDay, accountId_addMonth]
  · exact hsumMonth.trans (monthBucket_addDay.trans (monthBucket_addMonth hmonth hstatsMonth))
  · rw [← hmonthDay]
    exact hsumDay.trans (dayBucket_addDay hday hkeptDay)
  · rw [← hmonthMnDay]
    exact hsumMnDay.trans (mnDayBucket_addDay hday hkeptDay)

end Update

/-! ## Any number of calls -/

/-- The calls that are booked: those whose cost is not negligible. -/
def counted (calls : List CallInfo) : List CallInfo :=
  calls.filter fun callInfo => 0.000001 ≤ |callInfo.call.cost|

/-- A row after some calls were booked on it. -/
structure Books (booked : List CallInfo) (stats : StatsAccount) : Prop where
  accountId : stats.accountId ≠ 0
  month : Latest (booked.map fun callInfo => (callInfo.dtUtc.month, callInfo.call.cost))
    (monthBucket stats)
  day : Latest (booked.map fun callInfo => (callInfo.dtUtc.day, callInfo.call.cost))
    (dayBucket stats)
  mnDay : Latest (booked.map fun callInfo => (callInfo.dtUtc.day, mnCost callInfo.call))
    (mnDayBucket stats)

section Run

variable {id : Int} {callInfo : CallInfo}

theorem books_first (hid : id ≠ 0) (h : callInfo.OfAccount id) (account : Client) :
    Books [callInfo] (updateStats {} callInfo account) := by
  have hmonth : callInfo.dtUtc.month % 86400 = 0 := by
    rw [h.month]
    exact getTmonth_emod _
  have hday : callInfo.dtUtc.day % 86400 = 0 := by
    rw [h.day]
    exact getTday_emod _
  obtain ⟨haccount, hmonthBucket, hdayBucket, hmnDayBucket⟩ :=
    @updateStats_eq_add {} callInfo account hmonth hday hmonth hday
  refine ⟨?_, ?_, ?_, ?_⟩
  · rw [haccount]
    show callInfo.call.accountId ≠ 0
    rw [h.accountId]
    exact hid
  · rw [hmonthBucket]
    exact Latest.first callInfo.dtUtc.month callInfo.call.cost
  · rw [hdayBucket]
    exact Latest.first callInfo.dtUtc.day callInfo.call.cost
  · rw [hmnDayBucket]
    exact Latest.first callInfo.dtUtc.day (mnCost callInfo.call)

/-- **One more call.** -/
theorem books_add {booked : List CallInfo} {stats : StatsAccount} (hbooks : Books booked stats)
    (hbooked : ∀ other ∈ booked, CallInfo.OfAccount id other) (h : callInfo.OfAccount id)
    (account : Client) : Books (booked ++ [callInfo]) (updateStats stats callInfo account) := by
  have hmonth : callInfo.dtUtc.month % 86400 = 0 := by
    rw [h.month]
    exact getTmonth_emod _
  have hday : callInfo.dtUtc.day % 86400 = 0 := by
    rw [h.day]
    exact getTday_emod _
  -- the day and the month of the row are those of a call booked before
  have hstatsMonth : stats.amountMonth % 86400 = 0 := by
    obtain ⟨entry, hmem, hkey⟩ := hbooks.month.greatest.1
    obtain ⟨other, hother, rfl⟩ := List.mem_map.mp hmem
    have heq : other.dtUtc.month = stats.amountMonth := hkey
    rw [← heq, (hbooked other hother).month]
    exact getTmonth_emod _
  have hstatsDay : stats.amountDay % 86400 = 0 := by
    obtain ⟨entry, hmem, hkey⟩ := hbooks.day.greatest.1
    obtain ⟨other, hother, rfl⟩ := List.mem_map.mp hmem
    have heq : other.dtUtc.day = stats.amountDay := hkey
    rw [← heq, (hbooked other hother).day]
    exact getTday_emod _
  have hinit : initStats stats callInfo account = stats := if_neg hbooks.accountId
  obtain ⟨haccount, hmonthBucket, hdayBucket, hmnDayBucket⟩ :=
    @updateStats_eq_add stats callInfo account hmonth hday (by rw [hinit]; exact hstatsMonth)
      (by rw [hinit]; exact hstatsDay)
  rw [hinit] at haccount hmonthBucket hdayBucket hmnDayBucket
  refine ⟨?_, ?_, ?_, ?_⟩
  · rw [haccount]
    exact hbooks.accountId
  · rw [hmonthBucket, List.map_append]
    exact hbooks.month.add _ _
  · rw [hdayBucket, List.map_append]
    exact hbooks.day.add _ _
  · rw [hmnDayBucket, List.map_append]
    exact hbooks.mnDay.add _ _

/-- A fresh counter after any sequence of calls: no row before the first call that counts,
then the row of those that do. -/
theorem books_run (hid : id ≠ 0) {m : StatsAccountManager} (hfresh : m.rows[id]? = none)
    {calls : List CallInfo} (hcalls : ∀ callInfo ∈ calls, CallInfo.OfAccount id callInfo) :
    ((calls.foldl add m).rows[id]? = none ∧ counted calls = []) ∨
      ∃ stats, (calls.foldl add m).rows[id]? = some stats ∧ Books (counted calls) stats := by
  induction calls using List.reverseRecOn with
  | nil => exact Or.inl ⟨hfresh, rfl⟩
  | append_singleton calls callInfo ih =>
      have h := hcalls callInfo (by simp)
      have hbefore : ∀ other ∈ calls, CallInfo.OfAccount id other := fun other hmem =>
        hcalls other (List.mem_append_left _ hmem)
      have hcounted : ∀ other ∈ counted calls, CallInfo.OfAccount id other := fun other hmem =>
        hbefore other (List.mem_of_mem_filter hmem)
      have hsplit : counted (calls ++ [callInfo]) = counted calls ++ counted [callInfo] :=
        List.filter_append ..
      rw [List.foldl_append, hsplit]
      show ((add (calls.foldl add m) callInfo).rows[id]? = none ∧ _) ∨
        ∃ stats, (add (calls.foldl add m) callInfo).rows[id]? = some stats ∧ _
      rcases add_cases (calls.foldl add m) callInfo with ⟨hnone, heq⟩ | ⟨account, -, hsome, heq⟩
      · -- the cost is negligible
        have hskip : counted [callInfo] = [] := by
          unfold bookedRow at hnone
          have hcost : |callInfo.call.cost| < 0.000001 := by
            by_contra hcost
            rw [if_neg (not_or.mpr ⟨h.account, hcost⟩)] at hnone
            exact Option.some_ne_none _ hnone
          exact List.filter_eq_nil_iff.mpr fun other hmem => by
            rw [List.mem_singleton.mp hmem]
            simpa using hcost
        rw [heq, hskip, List.append_nil]
        exact ih hbefore
      · -- the call is booked on the row of its account
        have hcount : counted [callInfo] = [callInfo] := by
          unfold bookedRow at hsome
          have hcost : ¬ |callInfo.call.cost| < 0.000001 := by
            intro hcost
            rw [if_pos (Or.inr hcost)] at hsome
            exact absurd hsome (by simp)
          exact List.filter_eq_self.mpr fun other hmem => by
            rw [List.mem_singleton.mp hmem]
            simpa using hcost
        have hrow : (add (calls.foldl add m) callInfo).rows[id]? =
            some (updateStats ((calls.foldl add m).rows[id]?.getD {}) callInfo account) := by
          have hrows := congrArg Ledger.rows heq
          rw [hrows, Ledger.put_rows, h.accountId, Std.ExtTreeMap.getElem?_insert_self]
        rw [hcount]
        refine Or.inr ⟨_, hrow, ?_⟩
        rcases ih hbefore with ⟨hnone, hempty⟩ | ⟨stats, hstats, hbooks⟩
        · rw [hnone, hempty]
          exact books_first hid h account
        · rw [hstats]
          exact books_add hbooks hcounted h account

/-- The totals of calls in a bucket of a key, as sums over the calls. -/
theorem totalAt_map (key : CallInfo → Int) (value : CallInfo → ℚ) (booked : List CallInfo)
    (k : Int) : totalAt (booked.map fun callInfo => (key callInfo, value callInfo)) k =
      ((booked.filter fun callInfo => key callInfo = k).map value).sum := by
  rw [totalAt, List.filter_map, List.map_map]
  rfl

theorem sum_mnCost (booked : List CallInfo) :
    (booked.map fun callInfo => mnCost callInfo.call).sum =
      ((booked.filter fun callInfo => callInfo.call.isInternational).map
        fun callInfo => callInfo.call.cost).sum := by
  induction booked with
  | nil => rfl
  | cons callInfo booked ih =>
      rw [List.map_cons, List.sum_cons, ih, mnCost, List.filter_cons]
      split
      · rw [List.map_cons, List.sum_cons]
      · rw [zero_add]

/-- The day and month counters of a row. -/
def counters (stats : StatsAccount) : Int × Int × ℚ × ℚ × ℚ :=
  (stats.amountDay, stats.amountMonth, stats.sumDay, stats.sumMonth, stats.sumMnDay)

theorem Books.counters_eq {booked booked' : List CallInfo} {stats stats' : StatsAccount}
    (h : Books booked stats) (h' : Books booked' stats') (hperm : booked.Perm booked') :
    counters stats = counters stats' := by
  have hmonth := (h.month.perm (hperm.map _)).unique h'.month
  have hday := (h.day.perm (hperm.map _)).unique h'.day
  have hmnDay := (h.mnDay.perm (hperm.map _)).unique h'.mnDay
  simp only [monthBucket, dayBucket, mnDayBucket, Bucket.mk.injEq] at hmonth hday hmnDay
  simp only [counters, hmonth, hday, hmnDay]

/-- **Arrival order.**  On a fresh counter any sequence of calls of an account leaves the
latest day and month among the calls with a cost that counts, and the totals of that day, of
its international calls and of that month; another order of the calls leaves the same. -/
theorem counters_of_calls (hid : id ≠ 0) (m : StatsAccountManager) (hfresh : m.rows[id]? = none)
    (calls : List CallInfo) (hcalls : ∀ callInfo ∈ calls, CallInfo.OfAccount id callInfo) :
    ((calls.foldl add m).rows[id]? = none ↔ counted calls = []) ∧
    (∀ stats, (calls.foldl add m).rows[id]? = some stats →
      IsGreatest {day | ∃ callInfo ∈ counted calls, callInfo.dtUtc.day = day} stats.amountDay ∧
      IsGreatest {month | ∃ callInfo ∈ counted calls, callInfo.dtUtc.month = month}
        stats.amountMonth ∧
      stats.sumDay = (((counted calls).filter fun callInfo =>
        callInfo.dtUtc.day = stats.amountDay).map fun callInfo => callInfo.call.cost).sum ∧
      stats.sumMonth = (((counted calls).filter fun callInfo =>
        callInfo.dtUtc.month = stats.amountMonth).map fun callInfo => callInfo.call.cost).sum ∧
      stats.sumMnDay = ((((counted calls).filter fun callInfo =>
        callInfo.dtUtc.day = stats.amountDay).filter fun callInfo =>
          callInfo.call.isInternational).map fun callInfo => callInfo.call.cost).sum) ∧
    ∀ calls' : List CallInfo, calls'.Perm calls →
      ((calls'.foldl add m).rows[id]?).map counters =
        ((calls.foldl add m).rows[id]?).map counters := by
  have hrun := books_run hid hfresh hcalls
  refine ⟨?_, fun stats hstats => ?_, fun calls' hperm => ?_⟩
  · -- a row exists exactly if a call was counted
    rcases hrun with ⟨hnone, hempty⟩ | ⟨stats, hstats, hbooks⟩
    · exact iff_of_true hnone hempty
    · refine iff_of_false (by simp [hstats]) fun hempty => ?_
      obtain ⟨entry, hmem, -⟩ := hbooks.day.greatest.1
      simp [hempty] at hmem
  · rcases hrun with ⟨hnone, -⟩ | ⟨stats', hstats', hbooks⟩
    · rw [hnone] at hstats
      exact absurd hstats (by simp)
    · obtain rfl : stats' = stats := Option.some.inj (hstats'.symm.trans hstats)
      -- the greatest day and month of the booked entries are those of the calls
      have hkeys : ∀ (key : CallInfo → Int) (value : CallInfo → ℚ),
          {k | ∃ entry ∈ (counted calls).map fun callInfo => (key callInfo, value callInfo),
            entry.1 = k} = {k | ∃ callInfo ∈ counted calls, key callInfo = k} := by
        intro key value
        ext k
        constructor
        · rintro ⟨entry, hmem, rfl⟩
          obtain ⟨callInfo, hin, rfl⟩ := List.mem_map.mp hmem
          exact ⟨callInfo, hin, rfl⟩
        · rintro ⟨callInfo, hin, rfl⟩
          exact ⟨_, List.mem_map_of_mem hin, rfl⟩
      refine ⟨?_, ?_, ?_, ?_, ?_⟩
      · rw [← hkeys _ fun callInfo => callInfo.call.cost]
        exact hbooks.day.greatest
      · rw [← hkeys _ fun callInfo => callInfo.call.cost]
        exact hbooks.month.greatest
      · exact hbooks.day.total.trans (totalAt_map _ _ _ _)
      · exact hbooks.month.total.trans (totalAt_map _ _ _ _)
      · rw [← sum_mnCost]
        exact hbooks.mnDay.total.trans (totalAt_map _ _ _ _)
  · -- books of permuted calls agree
    have hrun' := books_run hid hfresh fun callInfo hmem => hcalls callInfo (hperm.subset hmem)
    have hcounted : (counted calls').Perm (counted calls) := hperm.filter _
    rcases hrun with ⟨hnone, hempty⟩ | ⟨stats, hstats, hbooks⟩
    · rcases hrun' with ⟨hnone', -⟩ | ⟨stats', -, hbooks'⟩
      · rw [hnone, hnone']
      · rw [hempty] at hcounted
        obtain ⟨entry, hmem, -⟩ := hbooks'.day.greatest.1
        simp [List.perm_nil.mp hcounted] at hmem
    · rcases hrun' with ⟨-, hempty'⟩ | ⟨stats', hstats', hbooks'⟩
      · rw [hempty'] at hcounted
        obtain ⟨entry, hmem, -⟩ := hbooks.day.greatest.1
        simp [List.nil_perm.mp hcounted] at hmem
      · rw [hstats, hstats', Option.map_some, Option.map_some, hbooks'.counters_eq hbooks hcounted]

end Run

/-- A call of account 5. -/
def callOfFive (connectTime : Int) (cost : ℚ) (destinationId : Int) : CallInfo :=
  BillingCall.makeDt connectTime { id := 5 }
    { call := { accountId := 5, connectTime := connectTime, cost := cost,
                destinationId := destinationId }
      account := some { id := 5 } }

/-- A call of the second day, a late one of the first, and an international one. -/
def lateCalls : List CallInfo :=
  [callOfFive 90000 3 1, callOfFive 80000 5 1, callOfFive 95000 2 2]

theorem counters_of_lateCalls :
    counted lateCalls ≠ [] ∧
      ((lateCalls.reverse.foldl add empty).rows[(5 : Int)]?).map counters =
        ((lateCalls.foldl add empty).rows[(5 : Int)]?).map counters := by
  have hcalls : ∀ callInfo ∈ lateCalls, CallInfo.OfAccount 5 callInfo := by
    have hcall : ∀ connectTime cost destinationId,
        CallInfo.OfAccount 5 (callOfFive connectTime cost destinationId) := fun _ _ _ =>
      ⟨rfl, Option.some_ne_none _, rfl, rfl⟩
    simp [lateCalls, hcall]
  have hfresh : empty.rows[(5 : Int)]? = none := by simp [empty]
  have hspec := counters_of_calls (by decide) empty hfresh lateCalls hcalls
  refine ⟨?_, hspec.2.2 lateCalls.reverse (List.reverse_perm _)⟩
  simp [counted, lateCalls, callOfFive, BillingCall.makeDt]
  norm_num

end StatsAccountManager
end VoipBill
