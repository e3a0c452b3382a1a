import VoipBill.Billing.UsageStore

/-!
# Which counter a lookup returns

A lookup walks over the rows of a key and takes the first whose window contains
the time of the call.

* The rows of all package minutes of a connected tariff stand under one key, so
  a lookup for one package minute may return the row of another.
* After a restart the rows are those that the query of `load` selected, in the
  order of its answer.  `UsageKind.Survives` says which row is found again.
-/

namespace VoipBill

open Lib

/-! ## Lookup after a change of the row that was found -/

namespace UsageManager

variable {ρ : Type} {m : UsageManager ρ} {k : Int} {isCurrent : ρ → Bool}

/-- The row that is found stays the one that is found when it is changed. -/
theorem findCurrent_putRow {i : Int} {stats stats' : ρ} (hrow : m.rows[i]? = some stats)
    (hfind : m.findCurrent k isCurrent = some stats)
    (hid : ∀ i', m.rows[i']? = some stats → i' = i) (hcurrent : isCurrent stats' = true) :
    (m.putRow i stats').findCurrent k isCurrent = some stats' := by
  obtain ⟨front, a, back, hlist, ha, hfront⟩ := List.findSome?_eq_some_iff.mp hfind
  obtain ⟨hstored, hstats⟩ := Option.filter_eq_some_iff.mp ha
  have hai : a = i := hid a hstored
  subst hai
  refine List.findSome?_eq_some_iff.mpr ⟨front, a, back, hlist, ?_, ?_⟩
  · simp [putRow, Option.filter, hcurrent]
  · intro i' hi'
    have hne : a ≠ i' := by
      rintro rfl
      have hnone := hfront a hi'
      rw [ha] at hnone
      exact absurd hnone (by simp)
    simp only [putRow, Ledger.put_rows, IntMap.getElem?_insert_of_ne _ hne]
    exact hfront i' hi'

/-- After a lookup the row it returned is the one that is found. -/
theorem findCurrent_getCurrent {createStats : Int → ρ}
    (hcurrent : ∀ i, isCurrent (createStats i) = true) :
    (m.getCurrent k isCurrent createStats).2.findCurrent k isCurrent =
      some (m.getCurrent k isCurrent createStats).1 := by
  cases hfind : m.findCurrent k isCurrent with
  | some stats =>
      rw [getCurrent_of_some hfind]
      exact hfind
  | none =>
      rw [getCurrent_of_none hfind]
      simp [findCurrent, putRow, Option.filter, hcurrent]

end UsageManager

/-! ## Package minutes of one connected tariff -/

namespace StatsNNPPackageMinuteManager

theorem isCurrent_createStats {light : NNPAccountTariffLight} {t : Int}
    (hfrom : light.activateFrom ≤ t) (hto : t ≤ light.deactivateFrom) (x : NNPPackageMinute)
    (i : Int) : isCurrent t (createStatsNNPPackageMinute x light i) = true := by
  have hbefore : ¬light.activateFrom > t := by omega
  have hafter : ¬light.deactivateFrom < t := by omega
  simp [isCurrent, createStatsNNPPackageMinute, hbefore, hafter]

/-- The used seconds before a lookup are those of the row it returns. -/
theorem getUsedSeconds_eq (m : StatsNNPPackageMinuteManager) (light : NNPAccountTariffLight)
    (x : NNPPackageMinute) (yId t : Int) :
    getUsedSeconds m light.id yId t = (getCurrent m t x light).1.usedSeconds := by
  cases hfind : m.findCurrent light.id (isCurrent t) with
  | some stats => rw [getUsedSeconds, hfind, getCurrent, UsageManager.getCurrent_of_some hfind]
  | none =>
      rw [getUsedSeconds, hfind, getCurrent, UsageManager.getCurrent_of_none hfind]
      rfl

/-- A call charged to the row that is found is booked on it, and it stays the row
that is found. -/
theorem findCurrent_add {m : StatsNNPPackageMinuteManager} {stats : StatsNNPPackageMinute}
    {k t : Int} {callInfo : CallInfo} (hindex : Indexed kind.id kind.key m)
    (hfound : m.findCurrent k (isCurrent t) = some stats) (hpos : 0 < stats.id)
    (hcharged : callInfo.call.statsNnpPackageMinuteId = stats.id) :
    (add m callInfo).findCurrent k (isCurrent t) =
      some (updateStatsNNPPackageMinute callInfo.call stats) := by
  obtain ⟨hrow, -, hcurrent⟩ := hindex.of_findCurrent hfound
  have hstored : m.rows[stats.id]? = some stats := hrow
  have hbooked : bookedRow callInfo = some stats.id := by
    rw [bookedRow, hcharged, if_neg (by omega)]
  have hadd : add m callInfo =
      m.putRow stats.id (updateStatsNNPPackageMinute callInfo.call stats) := by
    rw [add, hbooked, UsageManager.addBooked, UsageManager.book, hstored]
  rw [hadd]
  refine UsageManager.findCurrent_putRow hstored hfound ?_ hcurrent
  intro i' hi'
  exact (hindex.row i' stats hi').1.symm

section Independence

variable {s : UsageSys StatsNNPPackageMinute} {light : NNPAccountTariffLight}
  {x y : NNPPackageMinute} {t : Int} {callInfo : CallInfo}

/-- **Independence of package minutes.**  Charging a call to the counter of `x`
leaves what is used of `y`, and lookups for `y` before and after it return a row of
`y`, exactly if the call takes nothing and the counter of the connected tariff was
made for `y`. -/
theorem independent_iff {as : List (UsageAct StatsNNPPackageMinute Query)}
    (hrun : run (UsageSys.step kind) UsageSys.init as = some s) (hxy : x.id ≠ y.id)
    (hfrom : light.activateFrom ≤ t) (hto : t ≤ light.deactivateFrom)
    (hcharged : callInfo.call.statsNnpPackageMinuteId = (getCurrent s.manager t x light).1.id) :
    (getUsedSeconds (add (getCurrent s.manager t x light).2 callInfo) light.id y.id t =
        getUsedSeconds s.manager light.id y.id t ∧
      (getCurrent (add (getCurrent s.manager t x light).2 callInfo) t y light).1.nnpPackageMinuteId =
        y.id ∧
      (getCurrent s.manager t y light).1.nnpPackageMinuteId = y.id) ↔
    callInfo.call.packageTime = 0 ∧
      ∃ stats, s.manager.findCurrent light.id (isCurrent t) = some stats ∧
        stats.nnpPackageMinuteId = y.id := by
  have hlookup := (UsageSys.Consistent.run hrun).lookup (⟨t, x, light⟩ : Query)
  have hreturned : (getCurrent s.manager t x light).2.findCurrent light.id (isCurrent t) =
      some (getCurrent s.manager t x light).1 :=
    UsageManager.findCurrent_getCurrent fun i => isCurrent_createStats hfrom hto x i
  have hpos : 0 < (getCurrent s.manager t x light).1.id :=
    (hlookup.row_bounds (hlookup.index.of_findCurrent hreturned).1).1
  have hindex : Indexed kind.id kind.key (getCurrent s.manager t x light).2 := hlookup.index
  have hfound := findCurrent_add hindex hreturned hpos hcharged
  have hused : getUsedSeconds (add (getCurrent s.manager t x light).2 callInfo) light.id y.id t =
      getUsedSeconds s.manager light.id y.id t + callInfo.call.packageTime := by
    rw [getUsedSeconds_eq s.manager light x, getUsedSeconds, hfound]
    rfl
  have hrow : (getCurrent (add (getCurrent s.manager t x light).2 callInfo) t y light).1 =
      updateStatsNNPPackageMinute callInfo.call (getCurrent s.manager t x light).1 := by
    exact congrArg Prod.fst (UsageManager.getCurrent_of_some hfound)
  -- the row that was looked up is of `y` only if it was there before
  have hminute : (getCurrent s.manager t x light).1.nnpPackageMinuteId = y.id ↔
      ∃ stats, s.manager.findCurrent light.id (isCurrent t) = some stats ∧
        stats.nnpPackageMinuteId = y.id := by
    cases hfind : s.manager.findCurrent light.id (isCurrent t) with
    | some stats =>
        rw [getCurrent, UsageManager.getCurrent_of_some hfind]
        simp
    | none =>
        rw [getCurrent, UsageManager.getCurrent_of_none hfind]
        simp [createStatsNNPPackageMinute, hxy]
  rw [hused, hrow]
  constructor
  · rintro ⟨hsame, hafter, -⟩
    exact ⟨by omega, hminute.mp hafter⟩
  · rintro ⟨hnone, stats, hfind, hstats⟩
    refine ⟨by omega, hminute.mpr ⟨stats, hfind, hstats⟩, ?_⟩
    rw [getCurrent, UsageManager.getCurrent_of_some hfind]
    exact hstats

/-- A tariff with two package minutes, valid for a day. -/
def dayLight : NNPAccountTariffLight := { id := 1, activateFrom := 0, deactivateFrom := 86400 }

/-- A call that took seconds from the first counter. -/
def chargedCall (seconds : Int) : CallInfo :=
  { call := { id := 1, statsNnpPackageMinuteId := 1, packageTime := seconds } }

/-- A call without seconds, after the counter was made for the second package
minute. -/
theorem independent_of_secondCounter :
    ∃ s : UsageSys StatsNNPPackageMinute,
      run (UsageSys.step kind) UsageSys.init [.lookup ⟨10, { id := 2 }, dayLight⟩] = some s ∧
      getUsedSeconds (add (getCurrent s.manager 10 { id := 1 } dayLight).2 (chargedCall 0)) 1 2 10 =
        getUsedSeconds s.manager 1 2 10 ∧
      (getCurrent (add (getCurrent s.manager 10 { id := 1 } dayLight).2 (chargedCall 0)) 10
        { id := 2 } dayLight).1.nnpPackageMinuteId = 2 ∧
      (getCurrent s.manager 10 { id := 2 } dayLight).1.nnpPackageMinuteId = 2 := by
  obtain ⟨s, hs⟩ : ∃ s, run (UsageSys.step kind) UsageSys.init
      [.lookup ⟨10, { id := 2 }, dayLight⟩] = some s := ⟨_, rfl⟩
  have hfind : s.manager.findCurrent dayLight.id (isCurrent 10) =
      some { id := 1, nnpAccountTariffLightId := 1, nnpPackageMinuteId := 2,
             deactivateFrom := 86400 } := by
    rw [← Option.some.inj hs]
    decide +kernel
  have hcharged : (chargedCall 0).call.statsNnpPackageMinuteId =
      (getCurrent s.manager 10 { id := 1 } dayLight).1.id := by
    rw [getCurrent, UsageManager.getCurrent_of_some hfind]
    rfl
  have hindependent := (@independent_iff s dayLight { id := 1 } { id := 2 } 10 (chargedCall 0) _ hs
    (by decide) (by decide) (by decide) hcharged).mpr ⟨rfl, _, hfind, rfl⟩
  exact ⟨s, hs, hindependent⟩

/-- Sixty seconds charged to the first package minute count as used of the second,
and the second has no counter of its own. -/
theorem not_independent_of_emptyManager :
    run (UsageSys.step kind) UsageSys.init [] = some UsageSys.init ∧
      (chargedCall 60).call.statsNnpPackageMinuteId =
        (getCurrent UsageManager.empty 10 { id := 1 } dayLight).1.id ∧
      getUsedSeconds (add (getCurrent UsageManager.empty 10 { id := 1 } dayLight).2
        (chargedCall 60)) 1 2 10 ≠ getUsedSeconds UsageManager.empty 1 2 10 ∧
      (getCurrent (add (getCurrent UsageManager.empty 10 { id := 1 } dayLight).2
        (chargedCall 60)) 10 { id := 2 } dayLight).1.nnpPackageMinuteId ≠ 2 := by
  refine ⟨rfl, ?_⟩
  decide +kernel

end Independence

end StatsNNPPackageMinuteManager

/-! ## Restart -/

namespace UsageKind

variable {ρ : Type} {kind : UsageKind ρ} {table : IntMap ρ} {lastSaveCallTime : Int}
  {q : kind.Query} {stats : ρ}

/-- The stored row is selected by `load`, its stored window contains the time of
the lookup, and every other row that could be found instead stands before it in the
answer. -/
def Survives (kind : UsageKind ρ) (table : IntMap ρ) (lastSaveCallTime : Int) (q : kind.Query)
    (stats : ρ) : Prop :=
  ∃ row, table[kind.id stats]? = some row ∧ kind.loads lastSaveCallTime row = true ∧
    kind.isCurrent q row = true ∧
    ∀ (i : Int) (other : ρ), table[i]? = some other → i ≠ kind.id stats →
      kind.key other = kind.key stats → kind.loads lastSaveCallTime other = true →
      kind.isCurrent q other = true → toLex (kind.loadOrder other) < toLex (kind.loadOrder row)

/-- There is an answer in any order that refines the one of the query. -/
theorem exists_answer (kind : UsageKind ρ) (table : IntMap ρ) (lastSaveCallTime : Int) {β : Type}
    [LinearOrder β] {f : ρ → β}
    (hf : ∀ a b, f a ≤ f b → toLex (kind.loadOrder a) ≤ toLex (kind.loadOrder b)) :
    ∃ res, kind.Answers table lastSaveCallTime res ∧ res.Pairwise fun a b => f a ≤ f b := by
  let rows := (table.toList.map Prod.snd).filter (kind.loads lastSaveCallTime)
  let le : ρ → ρ → Bool := fun a b => decide (f a ≤ f b)
  have htrans : ∀ a b c, le a b = true → le b c = true → le a c = true := by
    intro a b c hab hbc
    exact decide_eq_true ((of_decide_eq_true hab).trans (of_decide_eq_true hbc))
  have htotal : ∀ a b, (le a b || le b a) = true := by
    intro a b
    simp only [le, Bool.or_eq_true, decide_eq_true_eq]
    exact le_total (f a) (f b)
  have hsorted : (rows.mergeSort le).Pairwise fun a b => f a ≤ f b :=
    (List.pairwise_mergeSort htrans htotal rows).imp fun h => of_decide_eq_true h
  exact ⟨_, ⟨List.mergeSort_perm rows le, hsorted.imp fun h => hf _ _ h⟩, hsorted⟩

/-- The order of the query, with the row of one id last among equal ones. -/
def loadOrderLast (kind : UsageKind ρ) (i : Int) (row : ρ) : Lex (Lex (Int × Int) × Nat) :=
  toLex (toLex (kind.loadOrder row), if kind.id row = i then 1 else 0)

theorem le_of_loadOrderLast_le (kind : UsageKind ρ) {i : Int} {a b : ρ}
    (h : kind.loadOrderLast i a ≤ kind.loadOrderLast i b) :
    toLex (kind.loadOrder a) ≤ toLex (kind.loadOrder b) := by
  rcases Prod.Lex.le_iff.mp h with hlt | ⟨heq, -⟩
  · exact le_of_lt hlt
  · exact le_of_eq heq

/-- The row that comes last among equals is before another one only if it is less. -/
theorem lt_of_loadOrderLast_le (kind : UsageKind ρ) {i : Int} {a b : ρ} (ha : kind.id a = i)
    (hb : kind.id b ≠ i) (h : kind.loadOrderLast i a ≤ kind.loadOrderLast i b) :
    toLex (kind.loadOrder a) < toLex (kind.loadOrder b) := by
  rcases Prod.Lex.le_iff.mp h with hlt | ⟨-, hflag⟩
  · exact hlt
  · simp [loadOrderLast, ha, hb] at hflag

/-- The row that is found last in an answer stands behind every other row that
could be found. -/
theorem pairwise_of_find? {β : Type} [Preorder β] {f : ρ → β} {res : List ρ} {p : ρ → Bool}
    {row other : ρ} (hsorted : res.Pairwise fun a b => f a ≤ f b)
    (hfind : res.reverse.find? p = some row) (hother : other ∈ res) (hp : p other = true)
    (hne : other ≠ row) : f other ≤ f row := by
  obtain ⟨-, front, back, hlist, hfront⟩ := List.find?_eq_some_iff_append.mp hfind
  have hmem : other ∈ front ++ row :: back := hlist ▸ List.mem_reverse.mpr hother
  have hback : other ∈ back := by
    rcases List.mem_append.mp hmem with h | h
    · have hfalse := hfront other h
      rw [hp] at hfalse
      exact absurd hfalse (by simp)
    · exact (List.mem_cons.mp h).resolve_left hne
  have hres : (res.reverse).Pairwise fun a b => f b ≤ f a := List.pairwise_reverse.mpr hsorted
  rw [hlist] at hres
  exact (List.pairwise_cons.mp (List.pairwise_append.mp hres).2.1).1 other hback

/-- **Restart.**  The row of an id is found again, whatever answer the database
gives, exactly if it survives. -/
theorem findCurrent_load_iff {lastStatId : Int} {row : ρ} (hkeyed : kind.Keyed lastStatId table)
    (hrow : table[kind.id stats]? = some row) (hkey : kind.key row = kind.key stats)
    (hquery : kind.key stats = kind.queryKey q) :
    (∀ res, kind.Answers table lastSaveCallTime res →
      (kind.load table res).findCurrent (kind.queryKey q) (kind.isCurrent q) = some row) ↔
    kind.Survives table lastSaveCallTime q stats := by
  have hrowId : kind.id row = kind.id stats := (hkeyed _ row hrow).1
  have hfound : ∀ res, kind.Answers table lastSaveCallTime res →
      (kind.load table res).findCurrent (kind.queryKey q) (kind.isCurrent q) =
        res.reverse.find? fun r => decide (kind.key r = kind.queryKey q) && kind.isCurrent q r :=
    fun res h => kind.load_findCurrent table (h.nodup hkeyed) _ _
  constructor
  · intro h
    obtain ⟨res, hres, -⟩ := kind.exists_answer table lastSaveCallTime fun _ _ h => h
    have hfind := (hfound res hres).symm.trans (h res hres)
    have hmem : row ∈ res := List.mem_reverse.mp (List.mem_of_find?_eq_some hfind)
    have hp := List.find?_some hfind
    simp only [Bool.and_eq_true, decide_eq_true_eq] at hp
    refine ⟨row, hrow, ((hres.mem_iff row).mp hmem).2, hp.2, ?_⟩
    intro i other hother hne hokey hloads hcurrent
    -- an answer in which the other row comes last among rows of the same order
    obtain ⟨res, hres, hsorted⟩ := kind.exists_answer table lastSaveCallTime
      fun _ _ h => kind.le_of_loadOrderLast_le (i := i) h
    have hotherId : kind.id other = i := (hkeyed i other hother).1
    have hle := pairwise_of_find? hsorted ((hfound res hres).symm.trans (h res hres))
      ((hres.mem_iff other).mpr ⟨⟨i, hother⟩, hloads⟩) (by simp [hokey, hquery, hcurrent])
      (by rintro rfl; exact hne (hotherId.symm.trans hrowId))
    exact kind.lt_of_loadOrderLast_le hotherId (hrowId ▸ hne.symm) hle
  · rintro ⟨row', hrow', hloads, hcurrent, hothers⟩ res hres
    rw [hrow, Option.some.injEq] at hrow'
    subst hrow'
    rw [hfound res hres]
    have hmem : row ∈ res := (hres.mem_iff row).mpr ⟨⟨_, hrow⟩, hloads⟩
    have hp : (decide (kind.key row = kind.queryKey q) && kind.isCurrent q row) = true := by
      simp [hkey, hquery, hcurrent]
    cases hfind : res.reverse.find? fun r =>
        decide (kind.key r = kind.queryKey q) && kind.isCurrent q r with
    | none =>
        exact absurd hp (by simpa using List.find?_eq_none.mp hfind row (List.mem_reverse.mpr hmem))
    | some first =>
        by_contra hne
        rw [Option.some.injEq] at hne
        obtain ⟨⟨i, hi⟩, hfirst⟩ := (hres.mem_iff first).mp
          (List.mem_reverse.mp (List.mem_of_find?_eq_some hfind))
        have hpfirst := List.find?_some hfind
        simp only [Bool.and_eq_true, decide_eq_true_eq] at hpfirst
        have hi' : i ≠ kind.id stats := by
          rintro rfl
          rw [hrow, Option.some.injEq] at hi
          exact hne hi.symm
        have hlt := hothers i first hi hi' (hpfirst.1.trans hquery.symm) hfirst hpfirst.2
        have hle := pairwise_of_find? hres.2 hfind hmem hp (Ne.symm hne)
        exact absurd hle (not_le.mpr hlt)

/-- A row that was current before a restart is the one that a lookup returns after
it, with the same used seconds, exactly if it survives. -/
theorem getCurrent_load_iff {s : UsageSys ρ} (hs : s.Consistent kind)
    (hsaved : ∀ part ∈ s.manager.parts, part = ∅)
    (hcurrent : s.manager.findCurrent (kind.queryKey q) (kind.isCurrent q) = some stats) :
    (∀ res, kind.Answers s.table lastSaveCallTime res →
      kind.id (kind.getCurrent (kind.load s.table res) q).1 = kind.id stats ∧
        (kind.totals (kind.getCurrent (kind.load s.table res) q).1).usedSeconds =
          (kind.totals stats).usedSeconds) ↔
    kind.Survives s.table lastSaveCallTime q stats := by
  obtain ⟨hstats, hquery, -⟩ := hs.index.of_findCurrent hcurrent
  obtain ⟨row, hrow, hstored⟩ := hs.covered _ _ hstats
  have hkeyed : kind.Keyed s.manager.lastStatId s.table := hs.keyed.stored
  rw [s.allSaved_eq_table hsaved] at hrow
  have hkey : kind.key row = kind.key stats := by
    rcases hstored with rfl | rfl
    · rfl
    · exact kind.key_stored stats
  have hused : (kind.totals row).usedSeconds = (kind.totals stats).usedSeconds := by
    rcases hstored with rfl | rfl
    · rfl
    · rw [kind.totals_stored, UsageTotals.stored_usedSeconds]
  rw [← findCurrent_load_iff hkeyed hrow hkey hquery]
  refine forall_congr' fun res => imp_congr_right fun hres => ⟨?_, ?_⟩
  · rintro ⟨hid, -⟩
    cases hfind : (kind.load s.table res).findCurrent (kind.queryKey q) (kind.isCurrent q) with
    | some found =>
        rw [getCurrent, UsageManager.getCurrent_of_some hfind] at hid
        obtain ⟨hfound, -⟩ := (load_indexed hres hkeyed).of_findCurrent hfind
        obtain ⟨⟨i, hi⟩, -⟩ := (hres.mem_iff found).mp ((load_rows hres hkeyed).mp hfound).1
        have hi' : i = kind.id stats := (hkeyed i found hi).1.symm.trans hid
        rw [hi', hrow] at hi
        exact hi.symm
    | none =>
        -- a new row has an id above those of the table
        rw [getCurrent, UsageManager.getCurrent_of_none hfind, kind.id_createStats] at hid
        have hlast : (kind.load s.table res).lastStatId = kind.maxId s.table :=
          kind.foldl_loadRow_lastStatId _ res
        have hle := (hkeyed.maxId _ row hrow).2.2
        omega
  · intro hfind
    rw [getCurrent, UsageManager.getCurrent_of_some hfind]
    exact ⟨(hkeyed _ row hrow).1, hused⟩

end UsageKind

section Restart

/-- **Restart of the prepaid packages and of the package minutes.**  When everything
is saved, the counter that is current for a package (a connected tariff and package
minute) is found again after a restart, with the same used seconds, exactly if its
stored row survives. -/
theorem counter_after_restart_iff (lastSaveCallTime : Int)
    (as : List (UsageAct StatsPackage StatsPackageManager.Query)) (s : UsageSys StatsPackage)
    (q : StatsPackageManager.Query) (stats : StatsPackage)
    (as' : List (UsageAct StatsNNPPackageMinute StatsNNPPackageMinuteManager.Query))
    (s' : UsageSys StatsNNPPackageMinute) (q' : StatsNNPPackageMinuteManager.Query)
    (stats' : StatsNNPPackageMinute) :
    (run (UsageSys.step StatsPackageManager.kind) UsageSys.init as = some s →
      (∀ part ∈ s.manager.parts, part = ∅) →
      s.manager.findCurrent q.servicePackage.id
        (StatsPackageManager.isCurrent q.callInfo.call.connectTime) = some stats →
      ((∀ res, StatsPackageManager.kind.Answers s.table lastSaveCallTime res →
        (StatsPackageManager.getCurrent (StatsPackageManager.kind.load s.table res) q.callInfo
          q.account q.servicePackage q.tariffPackage).1.id = stats.id ∧
        (StatsPackageManager.getCurrent (StatsPackageManager.kind.load s.table res) q.callInfo
          q.account q.servicePackage q.tariffPackage).1.usedSeconds = stats.usedSeconds) ↔
      StatsPackageManager.kind.Survives s.table lastSaveCallTime q stats)) ∧
    (run (UsageSys.step StatsNNPPackageMinuteManager.kind) UsageSys.init as' = some s' →
      (∀ part ∈ s'.manager.parts, part = ∅) →
      s'.manager.findCurrent q'.light.id
        (StatsNNPPackageMinuteManager.isCurrent q'.connectTime) = some stats' →
      ((∀ res, StatsNNPPackageMinuteManager.kind.Answers s'.table lastSaveCallTime res →
        (StatsNNPPackageMinuteManager.getCurrent
          (StatsNNPPackageMinuteManager.kind.load s'.table res) q'.connectTime
          q'.nnpPackageMinute q'.light).1.id = stats'.id ∧
        (StatsNNPPackageMinuteManager.getCurrent
          (StatsNNPPackageMinuteManager.kind.load s'.table res) q'.connectTime
          q'.nnpPackageMinute q'.light).1.usedSeconds = stats'.usedSeconds) ↔
      StatsNNPPackageMinuteManager.kind.Survives s'.table lastSaveCallTime q' stats')) := by
  constructor
  · intro hrun hsaved hcurrent
    have hs := UsageSys.Consistent.run hrun
    exact UsageKind.getCurrent_load_iff hs hsaved hcurrent
  · intro hrun hsaved hcurrent
    have hs := UsageSys.Consistent.run hrun
    exact UsageKind.getCurrent_load_iff hs hsaved hcurrent

open StatsPackageManager

/-- A package that is valid for more than a year, on a day. -/
def yearQuery (day : Int) : StatsPackageManager.Query where
  callInfo := { call := { connectTime := 86400 * day } }
  account := {}
  servicePackage := { id := 5, activationDt := 0, expireDt := 86400 * 400 }
  tariffPackage := { prepaidMinutes := 10 }

/-- The counter of the package is created on the first day and saved. -/
def yearRun : List (UsageAct StatsPackage StatsPackageManager.Query) :=
  [.lookup (yearQuery 1), .createNewPartition, .save]

/-- The counter of the package. -/
def yearStats : StatsPackage :=
  { id := 1, packageId := 5, activationDt := 0, expireDt := 86400 * 400, paidSeconds := 600 }

/-- After a restart on the second day the counter is found again. -/
theorem counter_after_restart_of_secondDay :
    ∃ s, run (UsageSys.step kind) UsageSys.init yearRun = some s ∧
      s.manager.findCurrent 5 (isCurrent (86400 * 2)) = some yearStats ∧
      ∀ res, kind.Answers s.table (86400 * 2) res →
        (getCurrent (kind.load s.table res) (yearQuery 2).callInfo {} (yearQuery 2).servicePackage
          (yearQuery 2).tariffPackage).1.id = 1 := by
  obtain ⟨s, hs⟩ : ∃ s, run (UsageSys.step kind) UsageSys.init yearRun = some s := ⟨_, rfl⟩
  have htable : s.table = (∅ : IntMap StatsPackage).insert 1 yearStats := by
    rw [← Option.some.inj hs]
    decide +kernel
  have hsaved : ∀ part ∈ s.manager.parts, part = ∅ := by
    rw [← Option.some.inj hs]
    decide +kernel
  have hcurrent : s.manager.findCurrent 5 (isCurrent (86400 * 2)) = some yearStats := by
    rw [← Option.some.inj hs]
    decide +kernel
  have hsurvives : kind.Survives s.table (86400 * 2) (yearQuery 2) yearStats := by
    refine ⟨yearStats, ?_, by decide +kernel, by decide +kernel, ?_⟩
    · simp [htable, kind, yearStats]
    · intro i other hother hne
      have hne' : (1 : Int) ≠ i := fun h => hne h.symm
      rw [htable, IntMap.getElem?_insert_of_ne _ hne'] at hother
      exact absurd hother (by simp)
  have h := ((counter_after_restart_iff (86400 * 2) yearRun s (yearQuery 2) yearStats []
    UsageSys.init ⟨0, {}, {}⟩ {}).1 hs hsaved hcurrent).mpr hsurvives
  exact ⟨s, hs, hcurrent, fun res hres => (h res hres).1⟩

/-- After a restart on the hundredth day the counter is not loaded, and a second one
is created for the same window. -/
theorem second_counter_after_restart :
    ∃ s, run (UsageSys.step kind) UsageSys.init yearRun = some s ∧
      (∀ part ∈ s.manager.parts, part = ∅) ∧
      s.manager.findCurrent 5 (isCurrent (86400 * 100)) = some yearStats ∧
      kind.Answers s.table (86400 * 100) [] ∧
      (getCurrent (kind.load s.table []) (yearQuery 100).callInfo {}
        (yearQuery 100).servicePackage (yearQuery 100).tariffPackage).1 =
          { yearStats with id := 2 } := by
  refine ⟨_, rfl, ?_⟩
  decide +kernel

end Restart
end VoipBill
