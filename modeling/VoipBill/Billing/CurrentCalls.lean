import VoipBill.Billing.MinuteOffer

/-!
# Package minutes of the calls in progress

`calcCurrentCalls` prices the calls in progress against the stored counters: the row
a call takes its seconds from is looked up, or created, there.  The counters it
publishes are new and are only ever added to, so they have no row that a call could
be booked on, and they report that nothing is used.

* `calcCurrentCall_minutes`: what one current call leaves;
* `published_iff_none_takes`: the published counters are right exactly if no current call
  takes seconds from a package minute.
-/

namespace VoipBill

open Lib Lib.Hoare BillingCall
open StatsNNPPackageMinuteManager (SameReadings kind)

/-! ## Rows that were given out -/

/-- The stored counters after some run of the usage counters. -/
def StoredMinutes (m : StatsNNPPackageMinuteManager) : Prop :=
  ∃ u, UsageSys.Consistent kind u ∧ u.manager = m

namespace StoredMinutes

variable {m m' : StatsNNPPackageMinuteManager}

theorem index (h : StoredMinutes m) : Indexed kind.id kind.key m := by
  obtain ⟨u, hu, rfl⟩ := h
  exact hu.index

theorem pos (h : StoredMinutes m) {i : Int} {stats : StatsNNPPackageMinute}
    (hrow : m.rows[i]? = some stats) : 0 < i := by
  obtain ⟨u, hu, rfl⟩ := h
  exact (hu.row_bounds hrow).1

/-- No row has the id 0. -/
theorem zero (h : StoredMinutes m) : m.rows[(0 : Int)]? = none := by
  cases hrow : m.rows[(0 : Int)]? with
  | none => rfl
  | some stats =>
      have hpos := h.pos hrow
      omega

/-- The row that seconds are taken from has been given out, and the others stay. -/
theorem took (h : StoredMinutes m) {call : Call} (htook : TookMinute m m' call) :
    StoredMinutes m' ∧ (∃ stats, m'.rows[call.statsNnpPackageMinuteId]? = some stats) ∧
      ∀ (i : Int) (stats : StatsNNPPackageMinute), m.rows[i]? = some stats →
        m'.rows[i]? = some stats := by
  obtain ⟨t, minute, light, rfl, hid, -⟩ := htook
  obtain ⟨u, hu, rfl⟩ := h
  refine ⟨⟨_, hu.lookup ⟨t, minute, light⟩, rfl⟩, ?_, ?_⟩
  · rw [hid]
    exact ⟨_, hu.index.getCurrent_row fun _ => rfl⟩
  · intro i stats hrow
    exact UsageManager.getCurrent_mono hu.index.ids hrow

end StoredMinutes

/-! ## One leg -/

namespace Billing

variable {env : BillingEnv} {now : Int}

/-- The state in which a leg is priced. -/
def legStart (s : PricingState) (leg : Leg) : PricingState :=
  { s with callInfo := { call := leg.call } }

theorem minuteResult_calcNext {s s' : PricingState} {leg : Leg}
    (hindex : Indexed kind.id kind.key s.currentNNPPackageMinute)
    (h : calcNext env s leg = some s') :
    MinuteResult (leg.pricingEnv env) (legTakesMinute (leg.pricingEnv env) (legStart s leg))
        (legStart s leg) s' ∧
      s'.callInfo.call.orig = leg.orig ∧
      ∀ leg' : Leg,
        destinations (leg'.pricingEnv env) s' = destinations (leg'.pricingEnv env) s := by
  have hstart : Unpriced (legStart s leg) := ⟨rfl, rfl⟩
  have heq := eq_of_calcLeg h
  refine ⟨?_, ?_, ?_⟩
  · rw [heq]
    exact minuteResult_tariffication hstart hindex
  · rw [heq]
    exact orig_tariffication hstart
  · -- the destinations are those of the tables, the same for every leg
    intro leg'
    rw [heq]
    exact keeps_destinations_tariffication (leg.pricingEnv env) (legStart s leg)

/-! ## The calls in progress -/

/-- The originating leg of a current call. -/
def currentLeg (env : BillingEnv) (now : Int) (cdr : Cdr) : Leg :=
  origLeg env now { cdr with hash := [] } 0 0

/-- The current call takes seconds from a package minute, by the counters there are
before it is priced. -/
def takesMinute (env : BillingEnv) (now : Int) (s : PricingSys) (cdr : Cdr) : Bool :=
  legTakesMinute ((currentLeg env now cdr).pricingEnv env)
    (legStart s.idle (currentLeg env now cdr))

end Billing

/-- The originating ones of the calls in progress. -/
def CurrentStats.origCalls (c : CurrentStats) : List Call := c.callsWaitSaving.filter (·.orig)

namespace Billing

variable {env : BillingEnv} {now : Int}

/-- What pricing the current calls keeps. -/
structure Counted (s : PricingSys) (c : CurrentStats) : Prop where
  stored : StoredMinutes s.billingData.statsNNPPackageMinute
  current : Indexed kind.id kind.key s.currentNNPPackageMinute
  published : c.statsNNPPackageMinute = UsageManager.empty
  taken : ∀ call ∈ c.origCalls, call.statsNnpPackageMinuteId ≠ 0 → 0 < call.packageTime ∧
    ∃ stats, s.billingData.statsNNPPackageMinute.rows[call.statsNnpPackageMinuteId]? = some stats

/-- No call is booked in counters without rows. -/
theorem add_empty (callInfo : CallInfo) :
    StatsNNPPackageMinuteManager.add UsageManager.empty callInfo = UsageManager.empty := by
  rcases UsageManager.addBooked_cases (UsageManager.empty : StatsNNPPackageMinuteManager)
    (StatsNNPPackageMinuteManager.bookedRow callInfo)
    (StatsNNPPackageMinuteManager.updateStatsNNPPackageMinute callInfo.call) with
    ⟨-, heq⟩ | ⟨id, stats, -, hrow, -⟩
  · exact heq
  · exact absurd hrow (by simp [UsageManager.empty])

/-- The two legs of a current call: the originating one takes what it is offered, the
terminating one takes nothing. -/
theorem calcCurrentCall_legs {s s' : PricingSys} {c c' : CurrentStats} {cdr : Cdr}
    (hindex : Indexed kind.id kind.key s.currentNNPPackageMinute)
    (h : calcCurrentCall env now (s, c) cdr = some (s', c')) :
    ∃ origInfo termInfo : CallInfo,
      c' = (c.add origInfo).add termInfo ∧
      origInfo.call.orig = true ∧ termInfo.call.orig = false ∧
      SameReadings now now Set.univ s.currentNNPPackageMinute s'.currentNNPPackageMinute ∧
      (∀ leg : Leg, destinations (leg.pricingEnv env) s'.idle =
        destinations (leg.pricingEnv env) s.idle) ∧
      if takesMinute env now s cdr then
        TookMinute s.billingData.statsNNPPackageMinute s'.billingData.statsNNPPackageMinute
          origInfo.call
      else
        s'.billingData.statsNNPPackageMinute = s.billingData.statsNNPPackageMinute ∧
          origInfo.call.statsNnpPackageMinuteId = 0 := by
  obtain ⟨⟨orig, term⟩, hlegs, hnext⟩ := Option.map_eq_some_iff.mp h
  obtain ⟨orig', horig, hrest⟩ := Option.bind_eq_some_iff.mp hlegs
  obtain ⟨term', hterm, hpair⟩ := Option.map_eq_some_iff.mp hrest
  obtain ⟨rfl, rfl⟩ := Prod.mk.inj hpair
  obtain ⟨rfl, rfl⟩ := Prod.mk.inj hnext
  obtain ⟨⟨hread, htaken⟩, hisOrig, hdest⟩ := minuteResult_calcNext hindex horig
  obtain ⟨⟨hread', hkept⟩, hisTerm, hdest'⟩ := minuteResult_calcNext hread.index₂ hterm
  rw [legTakesMinute_term rfl] at hkept
  have hstored := hkept.1
  refine ⟨orig'.callInfo, term'.callInfo, rfl, hisOrig, hisTerm, hread.trans hread',
    fun leg => (hdest' leg).trans (hdest leg), ?_⟩
  show if takesMinute env now s cdr then TookMinute _ term'.billingData.statsNNPPackageMinute _
    else term'.billingData.statsNNPPackageMinute = _ ∧ _
  rw [hstored]
  exact htaken

/-- What one current call leaves: an originating call, and, if it takes no seconds,
the same offers for the calls after it. -/
theorem calcCurrentCall_minutes {s s' : PricingSys} {c c' : CurrentStats} {cdr : Cdr}
    (hs : Counted s c) (h : calcCurrentCall env now (s, c) cdr = some (s', c')) :
    Counted s' c' ∧ ∃ call, c'.origCalls = c.origCalls ++ [call] ∧
      if takesMinute env now s cdr then
        call.statsNnpPackageMinuteId ≠ 0
      else
        call.statsNnpPackageMinuteId = 0 ∧
          ∀ cdr', takesMinute env now s' cdr' = takesMinute env now s cdr' := by
  obtain ⟨origInfo, termInfo, rfl, horig, hterm, hread, hdest, htaken⟩ :=
    calcCurrentCall_legs hs.current h
  have hcalls : ((c.add origInfo).add termInfo).origCalls = c.origCalls ++ [origInfo.call] := by
    simp [CurrentStats.origCalls, CurrentStats.add, horig, hterm]
  have hpublished : ((c.add origInfo).add termInfo).statsNNPPackageMinute = UsageManager.empty := by
    simp only [CurrentStats.add, hs.published, add_empty]
  -- only a leg that takes a minute changes the counters that are read
  cases htakes : takesMinute env now s cdr with
  | true =>
      rw [htakes, if_pos rfl] at htaken
      obtain ⟨hstored, ⟨stats, hrow⟩, hmono⟩ := hs.stored.took htaken
      refine ⟨⟨hstored, hread.index₂, hpublished, ?_⟩, origInfo.call, hcalls, ?_⟩
      · intro call hcall hid
        rw [hcalls] at hcall
        rcases List.mem_append.mp hcall with hold | hnew
        · obtain ⟨hpos, stats', hrow'⟩ := hs.taken call hold hid
          exact ⟨hpos, stats', hmono _ _ hrow'⟩
        · rw [List.mem_singleton.mp hnew]
          obtain ⟨_, _, _, -, -, hpos⟩ := htaken
          exact ⟨hpos, stats, hrow⟩
      · have hpos := hstored.pos hrow
        rw [if_pos rfl]
        omega
  | false =>
      rw [htakes, if_neg Bool.false_ne_true] at htaken
      obtain ⟨hstored, hzero⟩ := htaken
      refine ⟨⟨hstored ▸ hs.stored, hread.index₂, hpublished, ?_⟩, origInfo.call, hcalls, ?_⟩
      · intro call hcall hid
        rw [hcalls] at hcall
        rw [hstored]
        rcases List.mem_append.mp hcall with hold | hnew
        · exact hs.taken call hold hid
        · rw [List.mem_singleton.mp hnew] at hid
          exact absurd hzero hid
      · rw [if_neg Bool.false_ne_true]
        refine ⟨hzero, fun cdr' => ?_⟩
        exact legTakesMinute_congr rfl hstored hread (hdest (currentLeg env now cdr'))

/-- What the whole run leaves: a call that took seconds, unless no current call takes
any by the counters before the run. -/
theorem run_calcCurrentCall {s s' : PricingSys} {c c' : CurrentStats} {currentCdrs : List Cdr}
    (hs : Counted s c) (h : run (calcCurrentCall env now) (s, c) currentCdrs = some (s', c')) :
    Counted s' c' ∧
      ((∀ call ∈ c'.origCalls, call.statsNnpPackageMinuteId = 0) ↔
        (∀ call ∈ c.origCalls, call.statsNnpPackageMinuteId = 0) ∧
          ∀ cdr ∈ currentCdrs, takesMinute env now s cdr = false) := by
  induction currentCdrs generalizing s c with
  | nil =>
      obtain ⟨rfl, rfl⟩ := Prod.mk.inj (Option.some.inj h)
      exact ⟨hs, by simp⟩
  | cons cdr currentCdrs ih =>
      obtain ⟨⟨s₁, c₁⟩, hstep, hrest⟩ := run_cons_eq_some h
      obtain ⟨hs₁, call, hcalls, hcall⟩ := calcCurrentCall_minutes hs hstep
      obtain ⟨hs', hiff⟩ := ih hs₁ hrest
      refine ⟨hs', ?_⟩
      rw [hiff, hcalls, List.forall_mem_append, List.forall_mem_singleton, List.forall_mem_cons]
      cases htakes : takesMinute env now s cdr with
      | true =>
          rw [htakes, if_pos rfl] at hcall
          simp [hcall]
      | false =>
          rw [htakes, if_neg Bool.false_ne_true] at hcall
          simp [hcall.1, hcall.2]

/-- Seconds are charged to some connected tariff exactly if some call carries a row. -/
theorem chargedSeconds_eq_zero_iff {s : PricingSys} {c : CurrentStats} (hs : Counted s c) :
    (∀ lightId minuteId, NNPMinutes.chargedSeconds s.billingData.statsNNPPackageMinute lightId
        minuteId c.origCalls = 0) ↔
      ∀ call ∈ c.origCalls, call.statsNnpPackageMinuteId = 0 := by
  constructor
  · intro hcharged call hcall
    by_contra hid
    obtain ⟨hpos, stats, hrow⟩ := hs.taken call hcall hid
    have hsum := hcharged stats.nnpAccountTariffLightId call.nnpPackageMinuteId
    -- the seconds of this call are among those that were summed up, and none is negative
    have hmem : call ∈ c.origCalls.filter fun call' =>
        NNPMinutes.lightOf s.billingData.statsNNPPackageMinute call' ==
            some stats.nnpAccountTariffLightId &&
          call'.nnpPackageMinuteId == call.nnpPackageMinuteId := by
      refine List.mem_filter.mpr ⟨hcall, ?_⟩
      simp [NNPMinutes.lightOf, hrow]
    have hnonneg : ∀ seconds ∈ (c.origCalls.filter fun call' =>
        NNPMinutes.lightOf s.billingData.statsNNPPackageMinute call' ==
            some stats.nnpAccountTariffLightId &&
          call'.nnpPackageMinuteId == call.nnpPackageMinuteId).map (·.packageTime),
        0 ≤ seconds := by
      intro seconds hseconds
      obtain ⟨call', hcall', rfl⟩ := List.mem_map.mp hseconds
      obtain ⟨horig, hlight⟩ := List.mem_filter.mp hcall'
      refine (hs.taken call' horig ?_).1.le
      intro hzero
      simp [NNPMinutes.lightOf, hzero, hs.stored.zero] at hlight
    have hle := List.single_le_sum hnonneg _ (List.mem_map_of_mem hmem)
    rw [NNPMinutes.chargedSeconds] at hsum
    rw [hsum] at hle
    omega
  · intro hzero lightId minuteId
    have hnone : (c.origCalls.filter fun call =>
        NNPMinutes.lightOf s.billingData.statsNNPPackageMinute call == some lightId &&
          call.nnpPackageMinuteId == minuteId) = [] := by
      refine List.filter_eq_nil_iff.mpr fun call hcall => ?_
      simp [NNPMinutes.lightOf, hzero call hcall, hs.stored.zero]
    rw [NNPMinutes.chargedSeconds, hnone]
    rfl

/-- **The published counters.**  They report what the current originating calls take
from every connected tariff and package minute exactly if no current call takes any
seconds by the counters before the run. -/
theorem published_iff_none_takes {stored current : UsageSys StatsNNPPackageMinute}
    {as bs : List (UsageAct StatsNNPPackageMinute StatsNNPPackageMinuteManager.Query)}
    (hstored : run (UsageSys.step kind) UsageSys.init as = some stored)
    (hcurrent : run (UsageSys.step kind) UsageSys.init bs = some current)
    {s s' : PricingSys} {c : CurrentStats} {currentCdrs : List Cdr}
    (hs : s.billingData.statsNNPPackageMinute = stored.manager)
    (hs₁ : s.currentNNPPackageMinute = current.manager)
    (h : calcCurrentCalls env now currentCdrs s = some (s', c)) :
    (∀ (t : Int) (light : NNPAccountTariffLight) (minute : NNPPackageMinute),
      (StatsNNPPackageMinuteManager.getCurrent c.statsNNPPackageMinute t minute
          light).1.usedSeconds =
        NNPMinutes.chargedSeconds s'.billingData.statsNNPPackageMinute light.id minute.id
          c.origCalls) ↔
      ∀ cdr ∈ currentCdrs, takesMinute env now s cdr = false := by
  have hstart : Counted s CurrentStats.new := by
    refine ⟨⟨stored, UsageSys.Consistent.run hstored, hs.symm⟩, ?_, rfl, ?_⟩
    · rw [hs₁]
      exact (UsageSys.Consistent.run hcurrent).index
    · exact fun call hcall => absurd hcall (by simp [CurrentStats.origCalls, CurrentStats.new])
  obtain ⟨hcounted, hiff⟩ := run_calcCurrentCall hstart h
  have hreported : ∀ (t : Int) (light : NNPAccountTariffLight) (minute : NNPPackageMinute),
      (StatsNNPPackageMinuteManager.getCurrent c.statsNNPPackageMinute t minute
        light).1.usedSeconds = 0 := by
    intro t light minute
    rw [hcounted.published, ← StatsNNPPackageMinuteManager.getUsedSeconds_eq _ light minute minute.id]
    rfl
  have hnew : ∀ call ∈ CurrentStats.new.origCalls, call.statsNnpPackageMinuteId = 0 := by
    simp [CurrentStats.origCalls, CurrentStats.new]
  rw [← chargedSeconds_eq_zero_iff hcounted, and_iff_right hnew] at hiff
  rw [← hiff]
  constructor
  · intro hright lightId minuteId
    have hlight := hright 0 { id := lightId } { id := minuteId }
    rw [hreported] at hlight
    exact hlight.symm
  · intro hzero t light minute
    rw [hreported, hzero]

/-- A call of the number of a version 5 account that has only just begun takes nothing
yet, and nothing is what is published. -/
theorem published_of_begunCall :
    ∃ s' c, calcCurrentCalls { data := NNPMinutes.minuteTables NNPMinutes.oneLight } 1000
        [{ NNPMinutes.minuteCall.cdr with sessionTime := 0 }] NNPMinutes.rangeSys = some (s', c) ∧
      ∀ (t : Int) (light : NNPAccountTariffLight) (minute : NNPPackageMinute),
        (StatsNNPPackageMinuteManager.getCurrent c.statsNNPPackageMinute t minute
            light).1.usedSeconds =
          NNPMinutes.chargedSeconds s'.billingData.statsNNPPackageMinute light.id minute.id
            c.origCalls := by
  have hpriced : (calcCurrentCalls { data := NNPMinutes.minuteTables NNPMinutes.oneLight } 1000
      [{ NNPMinutes.minuteCall.cdr with sessionTime := 0 }] NNPMinutes.rangeSys).isSome = true := by
    decide +kernel
  obtain ⟨⟨s', c⟩, hcalc⟩ := Option.isSome_iff_exists.mp hpriced
  have hinit : run (UsageSys.step kind) UsageSys.init [] = some UsageSys.init := rfl
  refine ⟨s', c, hcalc, (published_iff_none_takes hinit hinit rfl rfl hcalc).mpr ?_⟩
  decide +kernel

/-- A call in progress takes the whole package minute, and the published counters
report that nothing is used. -/
theorem published_of_longCall :
    ∃ s' c, calcCurrentCalls { data := NNPMinutes.minuteTables NNPMinutes.oneLight } 1000
        [NNPMinutes.minuteCall.cdr] NNPMinutes.rangeSys = some (s', c) ∧
      NNPMinutes.chargedSeconds s'.billingData.statsNNPPackageMinute 1 20 c.origCalls = 60 ∧
      (StatsNNPPackageMinuteManager.getCurrent c.statsNNPPackageMinute 1000 { id := 20 }
        (NNPMinutes.lightOfNumber 1)).1.usedSeconds = 0 := by
  have hseconds : (calcCurrentCalls { data := NNPMinutes.minuteTables NNPMinutes.oneLight } 1000
      [NNPMinutes.minuteCall.cdr] NNPMinutes.rangeSys).map (fun result =>
        (NNPMinutes.chargedSeconds result.1.billingData.statsNNPPackageMinute 1 20
          result.2.origCalls,
        (StatsNNPPackageMinuteManager.getCurrent result.2.statsNNPPackageMinute 1000 { id := 20 }
          (NNPMinutes.lightOfNumber 1)).1.usedSeconds)) = some (60, 0) := by
    decide +kernel
  obtain ⟨⟨s', c⟩, hcalc, hboth⟩ := Option.map_eq_some_iff.mp hseconds
  obtain ⟨hcharged, hreported⟩ := Prod.mk.inj hboth
  exact ⟨s', c, hcalc, hcharged, hreported⟩

end Billing
end VoipBill
