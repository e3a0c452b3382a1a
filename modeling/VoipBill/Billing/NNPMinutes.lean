import VoipBill.Billing.PricingRun
import VoipBill.Billing.UsageBooks

/-!
# Package minutes of version 5 tariffs

An originating version 5 leg by number takes seconds from a package minute of
one of the tariffs connected to the number.  What is left is looked up through
maps keyed by tariff, in which the last connected tariff stays; the counter that
is charged is that of the first connected tariff with the same tariff id.

`charged_le_granted` says that where no two active connections share a tariff
with package minutes, no connection is ever charged more seconds for a package
minute than it was granted, and the connection charged is the one that was
checked.
-/

namespace VoipBill

open Lib Lib.Hoare

namespace NNPMinutes

open BillingCall

def minuteView : UsageView StatsNNPPackageMinute where
  id := (·.id)
  used := (·.usedSeconds)

/-- The row of package minutes that a call takes its seconds from. -/
def minuteOf (call : Call) : Option Int :=
  if call.statsNnpPackageMinuteId = 0 then none else some call.statsNnpPackageMinuteId

/-- The connected tariff that a call takes its seconds from. -/
def lightOf (m : StatsNNPPackageMinuteManager) (call : Call) : Option Int :=
  m.rows[call.statsNnpPackageMinuteId]?.map (·.nnpAccountTariffLightId)

/-- Package seconds of the calls charged to a connected tariff for a package minute. -/
def chargedSeconds (m : StatsNNPPackageMinuteManager) (lightId minuteId : Int)
    (added : List Call) : Int :=
  ((added.filter fun call =>
    lightOf m call == some lightId && call.nnpPackageMinuteId == minuteId).map (·.packageTime)).sum

/-- The connected tariff whose remaining seconds were checked for a call. -/
def checkedLight (data : DataContainer) (call : Call) : Option NNPAccountTariffLight :=
  (data.nnpPackageMinute.find call.nnpPackageMinuteId).bind fun minute =>
    lightOfTariff (data.nnpAccountTariffLight.findAllActiveByClientID call.accountId
      call.connectTime call.numberServiceId) minute.nnpTariffId

/-- A call is charged to the connected tariff that was checked for it. -/
def ChargedToChecked (data : DataContainer) (m : StatsNNPPackageMinuteManager) (call : Call) :
    Prop :=
  ∃ light, checkedLight data call = some light ∧ lightOf m call = some light.id

/-- A row belongs to a connected tariff and is valid as long as it is. -/
def RowOfLight (data : DataContainer) (stats : StatsNNPPackageMinute) : Prop :=
  ∃ light ∈ data.nnpAccountTariffLight.data, stats.nnpAccountTariffLightId = light.id ∧
    stats.activateFrom = light.activateFrom ∧ stats.deactivateFrom = light.deactivateFrom

/-- The books are right, every connected tariff has one row at most, and no
package minute is overdrawn. -/
structure MinuteInv (data : DataContainer) (added : List Call)
    (m : StatsNNPPackageMinuteManager) : Prop where
  books : Books minuteView minuteOf added m
  index : Indexed (·.id) (·.nnpAccountTariffLightId) m
  window : ∀ (i : Int) (stats : StatsNNPPackageMinute), m.rows[i]? = some stats →
    RowOfLight data stats
  unique : ∀ (i i' : Int) (stats stats' : StatsNNPPackageMinute), m.rows[i]? = some stats →
    m.rows[i']? = some stats' →
    stats.nnpAccountTariffLightId = stats'.nnpAccountTariffLightId → i = i'
  taken : ∀ call ∈ added, call.statsNnpPackageMinuteId ≠ 0 →
    0 ≤ call.packageTime ∧ ChargedToChecked data m call
  granted : ∀ light ∈ data.nnpAccountTariffLight.data,
    ∀ minute ∈ data.nnpPackageMinute.findAllByTariffID light.nnpTariffId light.coefficient,
      (chargedSeconds m light.id minute.id added : ℚ) ≤ minute.minute * 60

/-! ## Charged seconds -/

section Charged

variable {data : DataContainer} {added : List Call} {m m' : StatsNNPPackageMinuteManager}

theorem chargedSeconds_congr {lightId minuteId : Int}
    (h : ∀ call ∈ added, lightOf m' call = lightOf m call) :
    chargedSeconds m' lightId minuteId added = chargedSeconds m lightId minuteId added := by
  have hfilter : (added.filter fun call =>
      lightOf m' call == some lightId && call.nnpPackageMinuteId == minuteId) =
      added.filter fun call =>
        lightOf m call == some lightId && call.nnpPackageMinuteId == minuteId :=
    List.filter_congr fun call hcall => by rw [h call hcall]
  rw [chargedSeconds, hfilter]
  rfl

theorem chargedSeconds_concat (m : StatsNNPPackageMinuteManager) (lightId minuteId : Int)
    (added : List Call) (call : Call) :
    chargedSeconds m lightId minuteId (added ++ [call]) =
      chargedSeconds m lightId minuteId added +
        if lightOf m call = some lightId ∧ call.nnpPackageMinuteId = minuteId then
          call.packageTime
        else 0 := by
  by_cases h : lightOf m call = some lightId ∧ call.nnpPackageMinuteId = minuteId
  · simp [chargedSeconds, h]
  · rw [if_neg h, Int.add_zero, chargedSeconds, List.filter_append]
    have hnone : ([call].filter fun call =>
        lightOf m call == some lightId && call.nnpPackageMinuteId == minuteId) = [] := by
      simpa [List.filter_cons] using h
    rw [hnone, List.append_nil]
    rfl

/-- No row has the id 0. -/
theorem MinuteInv.lightOf_zero (h : MinuteInv data added m) {call : Call}
    (hcall : call.statsNnpPackageMinuteId = 0) : lightOf m call = none := by
  rw [lightOf, hcall]
  cases hrow : m.rows[(0 : Int)]? with
  | none => rfl
  | some stats =>
      have hpos := (h.books.row 0 stats hrow).1
      omega

/-- What is charged for one package minute is charged to the row. -/
theorem MinuteInv.charged_le_used (h : MinuteInv data added m) {i : Int}
    {stats : StatsNNPPackageMinute} (hrow : m.rows[i]? = some stats) (minuteId : Int) :
    chargedSeconds m stats.nnpAccountTariffLightId minuteId added ≤ stats.usedSeconds := by
  have hused : stats.usedSeconds = takenSeconds minuteOf i added := (h.books.row i stats hrow).2.2
  -- the calls charged for this minute are among those that carry the row's id
  have himp : ∀ call, (lightOf m call == some stats.nnpAccountTariffLightId &&
      call.nnpPackageMinuteId == minuteId) = true → (minuteOf call == some i) = true := by
    intro call hcharged
    simp only [Bool.and_eq_true, beq_iff_eq] at hcharged ⊢
    obtain ⟨stats', hrow', hlight⟩ := Option.map_eq_some_iff.mp hcharged.1
    have hid := h.unique _ _ stats' stats hrow' hrow hlight
    have hpos := (h.books.row i stats hrow).1
    rw [minuteOf, hid, if_neg (by omega)]
  have hsublist := List.monotone_filter_right added himp
  rw [hused]
  refine (hsublist.map _).sum_le_sum ?_
  intro seconds hseconds
  obtain ⟨call, hcall, rfl⟩ := List.mem_map.mp hseconds
  obtain ⟨hmem, hcarries⟩ := List.mem_filter.mp hcall
  refine (h.taken call hmem ?_).1
  intro hzero
  simp [minuteOf, hzero] at hcarries

/-- Rows that exist keep their connected tariff: nothing that was charged moves. -/
theorem MinuteInv.lightOf_mono (h : MinuteInv data added m)
    (hmono : ∀ (i : Int) (stats : StatsNNPPackageMinute), m.rows[i]? = some stats →
      ∃ stats', m'.rows[i]? = some stats' ∧
        stats'.nnpAccountTariffLightId = stats.nnpAccountTariffLightId)
    (hzero : m'.rows[(0 : Int)]? = none) {call : Call} (hcall : call ∈ added) :
    lightOf m' call = lightOf m call := by
  by_cases hcarries : call.statsNnpPackageMinuteId = 0
  · rw [h.lightOf_zero hcarries, lightOf, hcarries, hzero]
    rfl
  · obtain ⟨light, -, hlight⟩ := (h.taken call hcall hcarries).2
    obtain ⟨stats, hrow, hid⟩ := Option.map_eq_some_iff.mp hlight
    obtain ⟨stats', hrow', hsame⟩ := hmono _ stats hrow
    rw [hlight, lightOf, hrow', Option.map_some, hsame, hid]

end Charged

/-! ## Looking up and booking -/

section Counter

variable {data : DataContainer} {added : List Call} {m : StatsNNPPackageMinuteManager}
  {connectTime : Int} {minute : NNPPackageMinute} {light : NNPAccountTariffLight}

/-- A connected tariff that is active at the time. -/
def ActiveAt (data : DataContainer) (connectTime : Int) (light : NNPAccountTariffLight) : Prop :=
  light ∈ data.nnpAccountTariffLight.data ∧ light.activateFrom ≤ connectTime ∧
    connectTime ≤ light.deactivateFrom

/-- Connected tariffs are told apart by their id. -/
theorem light_eq_of_id {light' : NNPAccountTariffLight}
    (h : light ∈ data.nnpAccountTariffLight.data) (h' : light' ∈ data.nnpAccountTariffLight.data)
    (hid : light.id = light'.id) : light = light' :=
  List.inj_on_of_nodup_map data.nnpAccountTariffLight.nodup_id h h' hid

/-- The row of an active connected tariff is current. -/
theorem isCurrent_of_rowOfLight {stats : StatsNNPPackageMinute} (hrow : RowOfLight data stats)
    (hactive : ActiveAt data connectTime light)
    (hlight : stats.nnpAccountTariffLightId = light.id) :
    StatsNNPPackageMinuteManager.isCurrent connectTime stats = true := by
  obtain ⟨light', hmem, hid, hfrom, huntil⟩ := hrow
  have heq := light_eq_of_id hmem hactive.1 (hid.symm.trans hlight)
  subst heq
  have hstart := hactive.2.1
  have hend := hactive.2.2
  simp only [StatsNNPPackageMinuteManager.isCurrent, Bool.and_eq_true, Bool.not_eq_true',
    decide_eq_false_iff_not]
  omega

theorem createStats_index (i : Int) :
    (StatsNNPPackageMinuteManager.createStatsNNPPackageMinute minute light i).id = i ∧
      (StatsNNPPackageMinuteManager.createStatsNNPPackageMinute minute light
        i).nnpAccountTariffLightId = light.id :=
  ⟨rfl, rfl⟩

/-- What was charged stays charged while rows keep their connected tariff. -/
theorem MinuteInv.extend {m' : StatsNNPPackageMinuteManager} (h : MinuteInv data added m)
    (hbooks : Books minuteView minuteOf added m')
    (hindex : Indexed (·.id) (·.nnpAccountTariffLightId) m')
    (hmono : ∀ (i : Int) (stats : StatsNNPPackageMinute), m.rows[i]? = some stats →
      ∃ stats', m'.rows[i]? = some stats' ∧
        stats'.nnpAccountTariffLightId = stats.nnpAccountTariffLightId)
    (hwindow : ∀ (i : Int) (stats : StatsNNPPackageMinute), m'.rows[i]? = some stats →
      RowOfLight data stats)
    (hunique : ∀ (i i' : Int) (stats stats' : StatsNNPPackageMinute), m'.rows[i]? = some stats →
      m'.rows[i']? = some stats' →
      stats.nnpAccountTariffLightId = stats'.nnpAccountTariffLightId → i = i') :
    MinuteInv data added m' := by
  have hzero : m'.rows[(0 : Int)]? = none := by
    cases hrow : m'.rows[(0 : Int)]? with
    | none => rfl
    | some stats =>
        have hpos := (hbooks.row 0 stats hrow).1
        omega
  have hlights : ∀ call ∈ added, lightOf m' call = lightOf m call :=
    fun call hcall => h.lightOf_mono hmono hzero hcall
  refine ⟨hbooks, hindex, hwindow, hunique, ?_, ?_⟩
  · intro call hcall hcarries
    obtain ⟨hpos, light, hchecked, hlight⟩ := h.taken call hcall hcarries
    exact ⟨hpos, light, hchecked, (hlights call hcall).trans hlight⟩
  · intro light hlight minute hminute
    rw [chargedSeconds_congr hlights]
    exact h.granted light hlight minute hminute

/-- A lookup for an active connected tariff keeps the invariant. -/
theorem MinuteInv.getCurrent (h : MinuteInv data added m)
    (hactive : ActiveAt data connectTime light) :
    MinuteInv data added
      (StatsNNPPackageMinuteManager.getCurrent m connectTime minute light).2 := by
  have hmono : ∀ (i : Int) (stats : StatsNNPPackageMinute), m.rows[i]? = some stats →
      ∃ stats', (StatsNNPPackageMinuteManager.getCurrent m connectTime minute light).2.rows[i]? =
        some stats' ∧ stats'.nnpAccountTariffLightId = stats.nnpAccountTariffLightId :=
    fun i stats hrow => ⟨stats, UsageManager.getCurrent_mono h.books.ids hrow, rfl⟩
  have happart : ∀ (i i' : Int) (stats stats' : StatsNNPPackageMinute), m.rows[i]? = some stats →
      m.rows[i']? = some stats' → i ≠ i' →
      stats.nnpAccountTariffLightId ≠ stats'.nnpAccountTariffLightId :=
    fun i i' stats stats' hrow hrow' hne hlight =>
      hne (h.unique i i' stats stats' hrow hrow' hlight)
  refine h.extend (h.books.getCurrent fun i => ⟨rfl, rfl⟩)
    (h.index.getCurrent createStats_index) hmono
    (UsageManager.forall_getCurrent h.window ⟨light, hactive.1, rfl, rfl, rfl⟩) ?_
  intro i i' stats stats' hrow hrow' hlight
  by_contra hne
  refine UsageManager.pairwise_getCurrent Ne.symm happart ?_ i i' stats stats' hrow hrow' hne hlight
  -- a row of the tariff would be current, so there is none
  intro hfind i stats hrow hlight
  have hcurrent := isCurrent_of_rowOfLight (h.window i stats hrow) hactive hlight.symm
  rw [h.index.of_findCurrent_eq_none hfind hrow hlight.symm] at hcurrent
  exact absurd hcurrent (by simp)

/-- The row that is charged has the used seconds that were looked up. -/
theorem MinuteInv.getCurrent_row (h : MinuteInv data added m) (connectTime : Int)
    (minute : NNPPackageMinute) (light : NNPAccountTariffLight) (minuteId : Int) :
    ∃ stats, (StatsNNPPackageMinuteManager.getCurrent m connectTime minute light).1 = stats ∧
      (StatsNNPPackageMinuteManager.getCurrent m connectTime minute light).2.rows[stats.id]? =
        some stats ∧
      stats.nnpAccountTariffLightId = light.id ∧
      stats.usedSeconds =
        StatsNNPPackageMinuteManager.getUsedSeconds m light.id minuteId connectTime := by
  have hcreate : ∀ i, minuteView.id
      (StatsNNPPackageMinuteManager.createStatsNNPPackageMinute minute light i) = i :=
    fun i => rfl
  refine ⟨_, rfl, h.books.getCurrent_row hcreate, ?_⟩
  rw [StatsNNPPackageMinuteManager.getUsedSeconds]
  cases hfind : UsageManager.findCurrent m light.id
      (StatsNNPPackageMinuteManager.isCurrent connectTime) with
  | some stats =>
      rw [StatsNNPPackageMinuteManager.getCurrent, UsageManager.getCurrent_of_some hfind]
      exact ⟨(h.index.of_findCurrent hfind).2.1, rfl⟩
  | none =>
      rw [StatsNNPPackageMinuteManager.getCurrent, UsageManager.getCurrent_of_none hfind]
      exact ⟨rfl, rfl⟩

/-- A call that takes nothing from a package minute. -/
theorem MinuteInv.add_none {callInfo : CallInfo} (h : MinuteInv data added m)
    (hcall : callInfo.call.statsNnpPackageMinuteId = 0) :
    MinuteInv data (added ++ [callInfo.call]) (StatsNNPPackageMinuteManager.add m callInfo) := by
  have hadd : StatsNNPPackageMinuteManager.add m callInfo = m := by
    rw [StatsNNPPackageMinuteManager.add, StatsNNPPackageMinuteManager.bookedRow, if_pos hcall]
    rfl
  rw [hadd]
  refine ⟨h.books.add_none (Or.inl (if_pos hcall)), h.index, h.window, h.unique, ?_, ?_⟩
  · intro call hmem hcarries
    rcases List.mem_append.mp hmem with hmem | hmem
    · exact h.taken call hmem hcarries
    · rw [List.mem_singleton.mp hmem] at hcarries
      exact absurd hcall hcarries
  · intro light hlight minute hminute
    rw [chargedSeconds_concat, h.lightOf_zero hcall, if_neg (by simp), Int.add_zero]
    exact h.granted light hlight minute hminute

/-- A call whose seconds are left on the row of the connected tariff that was
checked. -/
theorem MinuteInv.add_row {callInfo : CallInfo} {stats : StatsNNPPackageMinute}
    (h : MinuteInv data added m) (hcall : callInfo.call.statsNnpPackageMinuteId ≠ 0)
    (hrow : m.rows[callInfo.call.statsNnpPackageMinuteId]? = some stats)
    (hpos : 0 ≤ callInfo.call.packageTime) (hchecked : ChargedToChecked data m callInfo.call)
    (hfits : ∀ light ∈ data.nnpAccountTariffLight.data, light.id = stats.nnpAccountTariffLightId →
      ∀ minute ∈ data.nnpPackageMinute.findAllByTariffID light.nnpTariffId light.coefficient,
        minute.id = callInfo.call.nnpPackageMinuteId →
        (stats.usedSeconds + callInfo.call.packageTime : ℚ) ≤ minute.minute * 60) :
    MinuteInv data (added ++ [callInfo.call]) (StatsNNPPackageMinuteManager.add m callInfo) := by
  have hadd : StatsNNPPackageMinuteManager.add m callInfo =
      m.putRow callInfo.call.statsNnpPackageMinuteId
        (StatsNNPPackageMinuteManager.updateStatsNNPPackageMinute callInfo.call stats) := by
    simp only [StatsNNPPackageMinuteManager.add, StatsNNPPackageMinuteManager.bookedRow,
      if_neg hcall, UsageManager.addBooked, UsageManager.book, hrow]
  rw [hadd]
  -- every row keeps its tariff, its window and its place
  have hold : ∀ (i : Int) (stats' : StatsNNPPackageMinute),
      (m.putRow callInfo.call.statsNnpPackageMinuteId
        (StatsNNPPackageMinuteManager.updateStatsNNPPackageMinute callInfo.call
          stats)).rows[i]? = some stats' →
      ∃ old, m.rows[i]? = some old ∧
        stats'.nnpAccountTariffLightId = old.nnpAccountTariffLightId ∧
        (RowOfLight data old → RowOfLight data stats') := by
    intro i stats' hrow'
    refine UsageManager.exists_of_putRow (R := fun old new =>
      new.nnpAccountTariffLightId = old.nnpAccountTariffLightId ∧
        (RowOfLight data old → RowOfLight data new)) hrow (fun _ => ⟨rfl, id⟩) ?_ hrow'
    exact ⟨rfl, fun hlight => hlight⟩
  have hlights : ∀ call, lightOf (m.putRow callInfo.call.statsNnpPackageMinuteId
      (StatsNNPPackageMinuteManager.updateStatsNNPPackageMinute callInfo.call stats)) call =
        lightOf m call := by
    intro call
    simp only [lightOf, UsageManager.putRow, Ledger.put_rows, IntMap.getElem?_insert]
    by_cases hid : callInfo.call.statsNnpPackageMinuteId = call.statsNnpPackageMinuteId
    · rw [if_pos hid, ← hid, hrow]
      rfl
    · rw [if_neg hid]
  refine ⟨h.books.add_row (if_neg hcall) hrow rfl rfl, h.index.putRow hrow rfl rfl, ?_, ?_, ?_, ?_⟩
  · intro i stats' hrow'
    obtain ⟨old, hold, -, hwindow⟩ := hold i stats' hrow'
    exact hwindow (h.window i old hold)
  · intro i i' stats₁ stats₂ hrow₁ hrow₂ hlight
    obtain ⟨old₁, hold₁, hlight₁, -⟩ := hold i stats₁ hrow₁
    obtain ⟨old₂, hold₂, hlight₂, -⟩ := hold i' stats₂ hrow₂
    exact h.unique i i' old₁ old₂ hold₁ hold₂ (hlight₁.symm.trans (hlight.trans hlight₂))
  · intro call hmem hcarries
    rcases List.mem_append.mp hmem with hmem | hmem
    · obtain ⟨hpos', light, hchecked', hlight⟩ := h.taken call hmem hcarries
      exact ⟨hpos', light, hchecked', (hlights call).trans hlight⟩
    · rw [List.mem_singleton.mp hmem]
      obtain ⟨light, hchecked', hlight⟩ := hchecked
      exact ⟨hpos, light, hchecked', (hlights _).trans hlight⟩
  · intro light hlight minute hminute
    have hbefore := h.granted light hlight minute hminute
    rw [chargedSeconds_concat, hlights, chargedSeconds_congr fun call _ => hlights call]
    split
    case isTrue hcharged =>
      obtain ⟨hlightOf, hminuteId⟩ := hcharged
      have hid : light.id = stats.nnpAccountTariffLightId := by
        rw [lightOf, hrow, Option.map_some, Option.some.injEq] at hlightOf
        exact hlightOf.symm
      have hused := h.charged_le_used hrow minute.id
      rw [← hid] at hused
      have hcast : (chargedSeconds m light.id minute.id added : ℚ) ≤ stats.usedSeconds := by
        exact_mod_cast hused
      have hfit := hfits light hlight hid minute hminute hminuteId.symm
      push_cast
      linarith
    case isFalse =>
      rw [Int.add_zero]
      exact hbefore

end Counter

/-! ## What is left of a package minute -/

/-- The counters of the calls in progress are all at zero. -/
def NoCurrent (m : StatsNNPPackageMinuteManager) : Prop :=
  ∀ (i : Int) (stats : StatsNNPPackageMinute), m.rows[i]? = some stats → stats.usedSeconds = 0

theorem NoCurrent.getCurrent {m : StatsNNPPackageMinuteManager} (h : NoCurrent m)
    (connectTime : Int) (minute : NNPPackageMinute) (light : NNPAccountTariffLight) :
    (StatsNNPPackageMinuteManager.getCurrent m connectTime minute light).1.usedSeconds = 0 ∧
      NoCurrent (StatsNNPPackageMinuteManager.getCurrent m connectTime minute light).2 := by
  refine ⟨?_, UsageManager.forall_getCurrent h rfl⟩
  rcases UsageManager.getCurrent_cases m light.id
    (StatsNNPPackageMinuteManager.isCurrent connectTime)
    (StatsNNPPackageMinuteManager.createStatsNNPPackageMinute minute light)
    with ⟨i, stats, hrow, -, heq⟩ | heq
  · rw [StatsNNPPackageMinuteManager.getCurrent, heq]
    exact h i stats hrow
  · rw [StatsNNPPackageMinuteManager.getCurrent, heq]
    rfl

section Candidates

variable (env : PricingEnv)

/-- A candidate is a package minute of an active connected tariff, and what is
left of it was computed for the connected tariff that the maps give. -/
structure CandidateOk (m : StatsNNPPackageMinuteManager) (lights : List NNPAccountTariffLight)
    (candidate : MinuteCandidate) : Prop where
  offered : candidate.nnpPackageMinute ∈ packageMinutesOf env lights
  checked : ∃ light, lightOfTariff lights candidate.nnpPackageMinute.nnpTariffId = some light ∧
    candidate.secondsLeft = truncate (candidate.nnpPackageMinute.minute * 60 -
      StatsNNPPackageMinuteManager.getUsedSeconds m light.id candidate.nnpPackageMinute.id
        env.cdr.connectTime)

/-- Only the counters of the calls in progress have changed, and they are at zero. -/
def Looked (s₀ s : PricingState) : Prop :=
  s.callInfo = s₀.callInfo ∧ s.billingData = s₀.billingData ∧ NoCurrent s.currentNNPPackageMinute

variable {env} {s₀ : PricingState} {E : PricingState → Prop}

theorem triple_minuteCandidate (hglobal : env.repository.data.globalNNPPackageMinuteCounters = none)
    (minute : NNPPackageMinute) (light : NNPAccountTariffLight) :
    Triple (Looked s₀) (minuteCandidate env minute light)
      (fun candidate s => Looked s₀ s ∧ candidate.nnpPackageMinute = minute ∧
        candidate.secondsLeft = truncate (minute.minute * 60 -
          StatsNNPPackageMinuteManager.getUsedSeconds s₀.billingData.statsNNPPackageMinute
            light.id minute.id env.cdr.connectTime)) E := by
  intro s hs
  obtain ⟨hinfo, hdata, hcurrent⟩ := hs
  obtain ⟨hzero, hcurrent'⟩ := hcurrent.getCurrent env.now minute light
  refine ⟨⟨hinfo, hdata, hcurrent'⟩, rfl, ?_⟩
  have hglobalUsed : globalUsedSeconds env light.id minute.id = 0 := by
    rw [globalUsedSeconds, hglobal]
  simp only [hglobalUsed, hzero, hdata, Int.cast_zero, sub_zero]

theorem triple_minuteCandidates
    (hglobal : env.repository.data.globalNNPPackageMinuteCounters = none)
    (lights : List NNPAccountTariffLight) (nnpDestinationIds : List Int)
    (minutes : List NNPPackageMinute) (hE : ∀ s, Looked s₀ s → E s)
    (hmem : ∀ minute ∈ minutes, minute ∈ packageMinutesOf env lights) :
    Triple (Looked s₀) (minuteCandidates env lights nnpDestinationIds minutes)
      (fun candidates s => Looked s₀ s ∧ ∀ candidate ∈ candidates,
        CandidateOk env s₀.billingData.statsNNPPackageMinute lights candidate) E := by
  induction minutes with
  | nil => exact triple_pure fun s hs => ⟨hs, by simp⟩
  | cons minute minutes ih =>
      have htail := ih fun minute' h => hmem minute' (List.mem_cons_of_mem minute h)
      rw [minuteCandidates]
      split
      case isFalse => exact htail
      case isTrue =>
        refine triple_deref hE fun light hlight => ?_
        refine triple_bind (triple_minuteCandidate hglobal minute light) fun candidate => ?_
        refine triple_of_fact (fun s hs => hs.2) fun hcandidate => ?_
        refine triple_bind (htail.pre fun s hs => hs.1) fun candidates => ?_
        refine triple_pure fun s hs => ⟨hs.1, ?_⟩
        have hok : CandidateOk env s₀.billingData.statsNNPPackageMinute lights candidate := by
          refine ⟨?_, light, ?_, ?_⟩
          · rw [hcandidate.1]
            exact hmem minute List.mem_cons_self
          · rw [hcandidate.1]
            exact hlight
          · rw [hcandidate.1]
            exact hcandidate.2
        split
        · simpa using ⟨hok, hs.2⟩
        · exact hs.2

theorem triple_setupNNPPackageMinute
    (hglobal : env.repository.data.globalNNPPackageMinuteCounters = none)
    (lights : List NNPAccountTariffLight) (nnpDestinationIds : List Int)
    (hE : ∀ s, Looked s₀ s → E s) :
    Triple (Looked s₀) (setupNNPPackageMinute env lights nnpDestinationIds)
      (fun found s => Looked s₀ s ∧ ∀ candidate, found = some candidate →
        CandidateOk env s₀.billingData.statsNNPPackageMinute lights candidate) E := by
  unfold setupNNPPackageMinute
  refine triple_bind (triple_minuteCandidates hglobal lights nnpDestinationIds _ hE
    fun minute h => h) fun candidates => ?_
  exact triple_pure fun s hs => ⟨hs.1, fun candidate hbegin => hs.2 _ (mem_of_setBegin hbegin)⟩

end Candidates

/-! ## The charge of one leg -/

/-- No two active connections of one service share a tariff that has package
minutes. -/
def DistinctTariffs (data : DataContainer) (connectTime : Int) : Prop :=
  ∀ clientId serviceId,
    ∀ light ∈ data.nnpAccountTariffLight.findAllActiveByClientID clientId connectTime serviceId,
    ∀ light' ∈ data.nnpAccountTariffLight.findAllActiveByClientID clientId connectTime serviceId,
      light.nnpTariffId = light'.nnpTariffId →
      (∃ minute ∈ data.nnpPackageMinute.data, minute.nnpTariffId = light.nnpTariffId) →
      light = light'

/-- The seconds of the call are left on the row of the connection that was
checked. -/
def ChargedRow (data : DataContainer) (m : StatsNNPPackageMinuteManager) (call : Call) : Prop :=
  ∃ stats, m.rows[call.statsNnpPackageMinuteId]? = some stats ∧ 0 ≤ call.packageTime ∧
    ChargedToChecked data m call ∧
    ∀ light ∈ data.nnpAccountTariffLight.data, light.id = stats.nnpAccountTariffLightId →
      ∀ minute ∈ data.nnpPackageMinute.findAllByTariffID light.nnpTariffId light.coefficient,
        minute.id = call.nnpPackageMinuteId →
        (stats.usedSeconds + call.packageTime : ℚ) ≤ minute.minute * 60

/-- What holds of a leg however its pricing ends. -/
def Settled (data : DataContainer) (added : List Call) (s : PricingState) : Prop :=
  MinuteInv data added s.billingData.statsNNPPackageMinute ∧
    NoCurrent s.currentNNPPackageMinute ∧
    (s.callInfo.call.statsNnpPackageMinuteId = 0 ∨
      ChargedRow data s.billingData.statsNNPPackageMinute s.callInfo.call)

theorem truncate_le {x : ℚ} (h : 0 < truncate x) : (truncate x : ℚ) ≤ x := by
  by_cases hx : 0 ≤ x
  · rw [truncate, if_pos hx]
    exact Int.floor_le x
  · rw [truncate, if_neg hx] at h
    have hceil : ⌈x⌉ ≤ 0 := Int.ceil_le.mpr (by push_cast; linarith)
    omega

/-- The connection that the maps give is an active one of the tariff. -/
theorem of_lightOfTariff {lights : List NNPAccountTariffLight} {nnpTariffId : Int}
    {light : NNPAccountTariffLight} (h : lightOfTariff lights nnpTariffId = some light) :
    light ∈ lights ∧ light.nnpTariffId = nnpTariffId := by
  have hmem := List.mem_of_find?_eq_some h
  have htariff := List.find?_some h
  exact ⟨List.mem_reverse.mp hmem, by simpa using htariff⟩

/-- A package minute is determined by its id and the connection it is offered by. -/
theorem minute_eq_of_id {list : NNPPackageMinuteList} {nnpTariffId : Int} {coefficient : ℚ}
    {minute minute' : NNPPackageMinute}
    (h : minute ∈ list.findAllByTariffID nnpTariffId coefficient)
    (h' : minute' ∈ list.findAllByTariffID nnpTariffId coefficient)
    (hid : minute.id = minute'.id) : minute = minute' := by
  obtain ⟨row, hrow, -, rfl⟩ := NNPPackageMinuteList.mem_findAllByTariffID h
  obtain ⟨row', hrow', -, rfl⟩ := NNPPackageMinuteList.mem_findAllByTariffID h'
  have heq : row = row' := List.inj_on_of_nodup_map list.nodup_id hrow hrow' hid
  rw [heq]

section Leg

variable {env : PricingEnv} {added : List Call} {m : StatsNNPPackageMinuteManager}
  {lights : List NNPAccountTariffLight}

/-- A leg by number that is about to be charged: its active connections are
`lights`, and it carries no row yet. -/
structure Ready (env : PricingEnv) (added : List Call) (m : StatsNNPPackageMinuteManager)
    (lights : List NNPAccountTariffLight) (s : PricingState) : Prop where
  counters : s.billingData.statsNNPPackageMinute = m
  inv : MinuteInv env.repository.data added m
  current : NoCurrent s.currentNNPPackageMinute
  noRow : s.callInfo.call.statsNnpPackageMinuteId = 0
  connectTime : s.callInfo.call.connectTime = env.cdr.connectTime
  active : env.repository.data.nnpAccountTariffLight.findAllActiveByClientID
    s.callInfo.call.accountId s.callInfo.call.connectTime s.callInfo.call.numberServiceId = lights

theorem Ready.settled {s : PricingState} (h : Ready env added m lights s) :
    Settled env.repository.data added s :=
  ⟨h.counters ▸ h.inv, h.current, Or.inl h.noRow⟩

theorem Ready.activeAt {s : PricingState} {light : NNPAccountTariffLight}
    (h : Ready env added m lights s) (hlight : light ∈ lights) :
    ActiveAt env.repository.data env.cdr.connectTime light := by
  rw [← h.active] at hlight
  rw [← h.connectTime]
  exact NNPAccountTariffLightList.mem_findAllActiveByClientID hlight

/-- With distinct tariffs the connection that offers the package minute, the one
that was checked and the one that is charged are the same. -/
theorem Ready.light_eq {s : PricingState} {light light' : NNPAccountTariffLight}
    {minute : NNPPackageMinute} (h : Ready env added m lights s)
    (hdistinct : DistinctTariffs env.repository.data env.cdr.connectTime)
    (hminute : minute ∈ env.repository.data.nnpPackageMinute.data)
    (hlight : light ∈ lights) (hlight' : light' ∈ lights)
    (htariff : light.nnpTariffId = minute.nnpTariffId)
    (htariff' : light'.nnpTariffId = minute.nnpTariffId) : light = light' := by
  rw [← h.active, h.connectTime] at hlight hlight'
  exact hdistinct _ _ light hlight light' hlight' (htariff.trans htariff'.symm)
    ⟨minute, hminute, htariff.symm⟩

/-- The leg after the counter of a connection was looked up and its id written
into the leg. -/
def charged (s : PricingState) (connectTime : Int) (minute : NNPPackageMinute)
    (light : NNPAccountTariffLight) : PricingState :=
  let found := StatsNNPPackageMinuteManager.getCurrent s.billingData.statsNNPPackageMinute
    connectTime minute light
  { s with
    billingData := { s.billingData with statsNNPPackageMinute := found.2 }
    callInfo :=
      { s.callInfo with
        call := { s.callInfo.call with statsNnpPackageMinuteId := found.1.id } } }

/-- Seconds up to what is left of the candidate are charged to the connection
that was checked. -/
theorem Ready.settled_charged {s : PricingState} {candidate : MinuteCandidate}
    {minute : NNPPackageMinute} {light : NNPAccountTariffLight} (h : Ready env added m lights s)
    (hcandidate : CandidateOk env m lights candidate)
    (hdistinct : DistinctTariffs env.repository.data env.cdr.connectTime)
    (hfind : env.repository.data.nnpPackageMinute.find candidate.nnpPackageMinute.id = some minute)
    (hfirst : lights.find? (fun light => light.nnpTariffId == minute.nnpTariffId) = some light)
    (hid : s.callInfo.call.nnpPackageMinuteId = candidate.nnpPackageMinute.id)
    (hpos : 0 < s.callInfo.call.packageTime)
    (hle : s.callInfo.call.packageTime ≤ candidate.secondsLeft) :
    Settled env.repository.data added (charged s env.cdr.connectTime minute light) := by
  obtain ⟨hoffered, checked, hchecked, hleft⟩ := hcandidate
  obtain ⟨offering, hoffering, hmem⟩ := List.mem_flatMap.mp hoffered
  obtain ⟨row, hrow, hrowTariff, heq⟩ := NNPPackageMinuteList.mem_findAllByTariffID hmem
  have hminute : minute = row := by
    have hfound := NNPPackageMinuteList.find_eq_some hrow
    have hsameId : candidate.nnpPackageMinute.id = row.id := by rw [heq]
    rw [← hsameId, hfind] at hfound
    exact Option.some.inj hfound
  subst hminute
  have htariff : candidate.nnpPackageMinute.nnpTariffId = minute.nnpTariffId := by rw [heq]
  rw [htariff] at hchecked
  obtain ⟨hcheckedMem, hcheckedTariff⟩ := of_lightOfTariff hchecked
  have hlightMem := List.mem_of_find?_eq_some hfirst
  have hlightTariff : light.nnpTariffId = minute.nnpTariffId := by
    simpa using List.find?_some hfirst
  -- the three connections are one
  have hofferingEq := h.light_eq hdistinct hrow hoffering hlightMem hrowTariff.symm hlightTariff
  have hcheckedEq := h.light_eq hdistinct hrow hcheckedMem hlightMem hcheckedTariff hlightTariff
  subst hofferingEq hcheckedEq
  have hactive := h.activeAt hlightMem
  obtain ⟨stats, hstats, hstored, hstatsLight, hused⟩ :=
    h.inv.getCurrent_row env.cdr.connectTime minute checked candidate.nnpPackageMinute.id
  have hinv : MinuteInv env.repository.data added
      (StatsNNPPackageMinuteManager.getCurrent m env.cdr.connectTime minute checked).2 :=
    h.inv.getCurrent hactive
  rw [Settled, charged, h.counters]
  refine ⟨hinv, h.current, Or.inr ⟨stats, ?_, hpos.le, ⟨checked, ?_, ?_⟩, ?_⟩⟩
  · rw [hstats]
    exact hstored
  · show checkedLight env.repository.data { s.callInfo.call with
      statsNnpPackageMinuteId := _ } = some checked
    rw [checkedLight, hid, hfind, Option.bind_some, h.active]
    exact hchecked
  · rw [lightOf, hstats, hstored, Option.map_some, hstatsLight]
  · intro light' hlight' hlightId minute' hminute' hminuteId
    have hlightEq := light_eq_of_id hlight' hactive.1 (hlightId.trans hstatsLight)
    subst hlightEq
    have hminuteEq := minute_eq_of_id hminute' hmem (hminuteId.trans hid)
    have hleftPos : 0 < candidate.secondsLeft := by omega
    have htruncate := truncate_le (hleft ▸ hleftPos)
    rw [← hleft, ← hused] at htruncate
    have hcast : (s.callInfo.call.packageTime : ℚ) ≤ candidate.secondsLeft := by
      exact_mod_cast hle
    rw [hminuteEq]
    show (stats.usedSeconds : ℚ) + s.callInfo.call.packageTime ≤ _
    linarith

variable {candidate : MinuteCandidate}

/-- Charging a candidate. -/
theorem triple_chargeNNPPackageMinute {minute : NNPPackageMinute}
    (hcandidate : CandidateOk env m lights candidate)
    (hdistinct : DistinctTariffs env.repository.data env.cdr.connectTime)
    (hfind : env.repository.data.nnpPackageMinute.find candidate.nnpPackageMinute.id =
      some minute) :
    Triple (fun s => Ready env added m lights s ∧
        s.callInfo.call.nnpPackageMinuteId = candidate.nnpPackageMinute.id ∧
        0 < s.callInfo.call.packageTime ∧
        s.callInfo.call.packageTime ≤ candidate.secondsLeft)
      (chargeNNPPackageMinute env lights minute)
      (fun _ => Settled env.repository.data added) (Settled env.repository.data added) := by
  unfold chargeNNPPackageMinute
  refine triple_whenSome (fun light hfirst => ?_) fun _ s hs => hs.1.settled
  intro s hs
  obtain ⟨hready, hid, hpos, hle⟩ := hs
  exact hready.settled_charged hcandidate hdistinct hfind hfirst hid hpos hle

/-- Taking seconds from the chosen package minute. -/
theorem triple_applyNNPPackageMinute (hcandidate : CandidateOk env m lights candidate)
    (hdistinct : DistinctTariffs env.repository.data env.cdr.connectTime) :
    Triple (Ready env added m lights) (applyNNPPackageMinute env lights candidate)
      (fun _ => Settled env.repository.data added) (Settled env.repository.data added) := by
  have hsettled : ∀ s, Ready env added m lights s → Settled env.repository.data added s :=
    fun s hs => hs.settled
  unfold applyNNPPackageMinute setupBilledTimeNNP
  refine triple_orThrow hsettled fun nnpPackage _ => ?_
  refine triple_bind (R := fun _ => Ready env added m lights)
    (triple_modifyCall fun s hs => { hs with }) fun _ => ?_
  refine triple_getCall fun call => ?_
  refine triple_onlyIf (fun hpos => ?_) fun _ s hs => hs.1.settled
  rw [decide_eq_true_eq] at hpos
  refine triple_bind (R := fun _ s => Ready env added m lights s ∧
    s.callInfo.call.nnpPackageMinuteId = candidate.nnpPackageMinute.id ∧
    0 < s.callInfo.call.packageTime ∧ s.callInfo.call.packageTime ≤ candidate.secondsLeft)
    (triple_modifyCall fun s hs => ⟨{ hs.1 with }, rfl, hpos, ?_⟩) fun _ => ?_
  · show min (max candidate.secondsLeft 0) call.billedTime ≤ candidate.secondsLeft
    omega
  · refine triple_deref (fun s hs => hs.1.settled) fun minute hfind => ?_
    exact triple_chargeNNPPackageMinute hcandidate hdistinct hfind

theorem triple_applyMinute {found : Option MinuteCandidate}
    (hfound : ∀ candidate, found = some candidate → CandidateOk env m lights candidate)
    (hdistinct : DistinctTariffs env.repository.data env.cdr.connectTime) :
    Triple (Ready env added m lights) (applyMinute env lights found)
      (fun _ => Settled env.repository.data added) (Settled env.repository.data added) := by
  unfold applyMinute
  split
  case h_1 candidate hfilter =>
    have hsome := (Option.filter_eq_some_iff.mp hfilter).1
    exact triple_applyNNPPackageMinute (hfound candidate hsome) hdistinct
  case h_2 =>
    unfold applyNNPPackage setupBilledTimeNNP
    refine triple_getCall fun call => ?_
    refine triple_orThrow (fun s hs => hs.1.settled) fun nnpPackage _ => ?_
    exact triple_modifyCall fun s hs => hs.1.settled

/-- The rate is set in fields that the charge does not look at. -/
theorem Ready.withNNPRate {s : PricingState} (h : Ready env added m lights s)
    (price : Option (ℚ × NNPPackagePrice)) (pricelist : Option (ℚ × NNPPackagePricelist)) :
    Ready env added m lights { s with callInfo := { s.callInfo with
      call := BillingCall.withNNPRate price pricelist s.callInfo.call } } := by
  have hcall : ∀ call : Call,
      (BillingCall.withNNPRate price pricelist call).statsNnpPackageMinuteId =
          call.statsNnpPackageMinuteId ∧
        (BillingCall.withNNPRate price pricelist call).connectTime = call.connectTime ∧
        (BillingCall.withNNPRate price pricelist call).accountId = call.accountId ∧
        (BillingCall.withNNPRate price pricelist call).numberServiceId =
          call.numberServiceId := by
    intro call
    unfold BillingCall.withNNPRate
    split
    · split
      · exact ⟨rfl, rfl, rfl, rfl⟩
      · exact ⟨rfl, rfl, rfl, rfl⟩
    · exact ⟨rfl, rfl, rfl, rfl⟩
    · exact ⟨rfl, rfl, rfl, rfl⟩
    · exact ⟨rfl, rfl, rfl, rfl⟩
  obtain ⟨hrow, htime, haccount, hservice⟩ := hcall s.callInfo.call
  exact ⟨h.counters, h.inv, h.current, hrow.trans h.noRow, htime.trans h.connectTime, by
    rw [haccount, htime, hservice]
    exact h.active⟩

/-- Version 5 by number. -/
theorem triple_calcOrigNNPByNumber {c₀ : Charge}
    (hglobal : env.repository.data.globalNNPPackageMinuteCounters = none)
    (hdistinct : DistinctTariffs env.repository.data env.cdr.connectTime)
    (hinv : MinuteInv env.repository.data added c₀.statsNNPPackageMinute)
    (hcurrent : NoCurrent c₀.currentNNPPackageMinute)
    (hrow : c₀.statsNnpPackageMinuteId = 0) (htime : c₀.connectTime = env.cdr.connectTime) :
    Triple (UnspentNumber c₀) (calcOrigNNPByNumber env)
      (fun _ => Settled env.repository.data added) (Settled env.repository.data added) := by
  have hunspent : ∀ s, UnspentNumber c₀ s → Settled env.repository.data added s := by
    intro s hs
    have hcharge : s.charge = c₀ := hs.1
    rw [← hcharge] at hinv hcurrent hrow
    exact ⟨hinv, hcurrent, Or.inl hrow⟩
  unfold calcOrigNNPByNumber setupNNPCost
  refine triple_getCallInfo fun callInfo => ?_
  refine triple_orThrow (fun s hs => hunspent s hs.1) fun serviceNumber hnumber => ?_
  dsimp only
  split
  case isTrue => exact triple_throw fun s hs => hunspent s hs.1
  case isFalse =>
    refine triple_getNNPNumberRange fun range => ?_
    refine triple_start (R := Looked) ?_ fun s₀ hs₀ => ?_
    · rintro s₀ ⟨hs₀, -⟩
      have hcharge : s₀.charge = c₀ := hs₀.1
      rw [← hcharge] at hcurrent
      exact ⟨rfl, rfl, hcurrent⟩
    obtain ⟨⟨hcharge, found, hfound, hfoundId⟩, rfl⟩ := hs₀
    have hsame : found = serviceNumber := Option.some.inj (hfound.symm.trans hnumber)
    subst hsame
    rw [Unspent] at hcharge
    subst hcharge
    -- the connections are those of the account and the number service of the leg
    have hready : ∀ s, Looked s₀ s → Ready env added s₀.charge.statsNNPPackageMinute
        (env.repository.data.nnpAccountTariffLight.findAllActiveByClientID
          s₀.callInfo.call.accountId s₀.callInfo.call.connectTime found.id) s := by
      rintro s ⟨hinfo, hdata, hcurrent'⟩
      have hservice : s₀.callInfo.call.numberServiceId = found.id := hfoundId
      refine ⟨by rw [hdata]; rfl, hinv, hcurrent', ?_, ?_, ?_⟩
      · rw [hinfo]
        exact hrow
      · rw [hinfo]
        exact htime
      · rw [hinfo, hservice]
    refine triple_bind (triple_setupNNPPackageMinute hglobal _ _
      fun s hs => (hready s hs).settled) fun minute => ?_
    refine triple_of_fact (fun s hs => hs.2) fun hcandidates => ?_
    generalize env.repository.data.nnpAccountTariffLight.findAllActiveByClientID
      s₀.callInfo.call.accountId s₀.callInfo.call.connectTime found.id = lights at hready hcandidates
    refine triple_bind (R := fun _ => Ready env added s₀.charge.statsNNPPackageMinute lights)
      (triple_modifyCall fun s hs => (hready s hs.1).withNNPRate _ _) fun _ => ?_
    refine triple_bind (R := fun _ => Ready env added s₀.charge.statsNNPPackageMinute lights)
      (triple_modifyCall fun s hs => { hs with }) fun _ => ?_
    refine triple_bind (triple_applyMinute hcandidates hdistinct) fun _ => ?_
    exact triple_modifyCall fun s hs => hs

end Leg

/-! ## Runs -/

section Run

variable {env : BillingEnv} {s t : PricingSys} {leg : Leg}

theorem Settled.of_minutes {data : DataContainer} {added : List Call} {p p' : PricingState}
    (h : p'.minutes = p.minutes) (hp : MinuteInv data added p.minutes.1 ∧
      NoCurrent p.minutes.2.1 ∧ p.minutes.2.2 = 0) :
    MinuteInv data added p'.minutes.1 ∧ NoCurrent p'.minutes.2.1 ∧ p'.minutes.2.2 = 0 := by
  rw [h]
  exact hp

/-- Version 4 legs leave package minutes alone. -/
theorem keeps_calcOrigByNumberV4 (env : PricingEnv) :
    Keeps PricingState.minutes (calcOrigByNumberV4 env) := by
  unfold calcOrigByNumberV4
  refine keeps_bind (keeps_minutes (keeps_setupLogTariff env)) fun _ => ?_
  refine keeps_bind (keeps_minutes (keeps_setupMainTariff env)) fun _ => ?_
  refine keeps_bind (keeps_minutes (keeps_setupBilledTime env)) fun _ => ?_
  refine keeps_bind (keeps_minutes_of_booking (keeps_setupPackagePricelist env)) fun _ => ?_
  refine keeps_bind keeps_getCallInfo fun _ => ?_
  refine keeps_bind (keeps_minutes (keeps_setupOrigPrice env _)) fun _ => ?_
  refine keeps_bind keeps_setupFreemin fun _ => ?_
  exact keeps_bind (keeps_setupPackagePrepaid env) fun _ => keeps_minutes keeps_setupCost

theorem keeps_calcByTrunkV4 (env : PricingEnv) :
    Keeps PricingState.minutes (calcByTrunkV4 env true) := by
  unfold calcByTrunkV4
  refine keeps_bind (keeps_onlyIf
    (keeps_minutes_of_booking (keeps_setupPackagePricelist env))) fun _ => ?_
  refine keeps_bind (keeps_minutes (keeps_setupFoundPrice env)) fun _ => ?_
  refine keeps_bind (keeps_minutes (keeps_setupBilledTime env)) fun _ => ?_
  refine keeps_bind (keeps_onlyIf (keeps_setupPackagePrepaid env)) fun _ => ?_
  refine keeps_bind (keeps_minutes keeps_setupInterconnect) fun _ => ?_
  exact keeps_minutes keeps_setupCost

theorem chargingPaths_settled (hglobal : env.data.globalNNPPackageMinuteCounters = none)
    (hdistinct : DistinctTariffs env.data leg.cdr.connectTime)
    (hinv : MinuteInv env.data s.added s.billingData.statsNNPPackageMinute)
    (hcurrent : NoCurrent s.currentNNPPackageMinute) :
    ChargingPaths (leg.pricingEnv env) (s.start leg).charge (Settled env.data s.added) := by
  have hminutes : ∀ p, Unspent (s.start leg).charge p →
      MinuteInv env.data s.added p.minutes.1 ∧ NoCurrent p.minutes.2.1 ∧ p.minutes.2.2 = 0 := by
    intro p hp
    have hcharge : p.charge = (s.start leg).charge := hp
    have hsame : p.minutes = (s.start leg).minutes := congrArg (fun charge : Charge =>
      (charge.statsNNPPackageMinute, charge.currentNNPPackageMinute,
        charge.statsNnpPackageMinuteId)) hcharge
    rw [hsame]
    exact ⟨hinv, hcurrent, rfl⟩
  have hsettled : ∀ p : PricingState, MinuteInv env.data s.added p.minutes.1 ∧
      NoCurrent p.minutes.2.1 ∧ p.minutes.2.2 = 0 → Settled env.data s.added p :=
    fun p hp => ⟨hp.1, hp.2.1, Or.inl hp.2.2⟩
  refine ⟨fun p hp => hsettled p (hminutes p hp), fun p hp => hp, fun _ => ?_, fun _ => ?_,
    fun _ trunk _ _ => ?_⟩
  · exact triple_calcOrigNNPByNumber hglobal hdistinct hinv hcurrent rfl rfl
  · exact ((keeps_calcOrigByNumberV4 _).triple Settled.of_minutes hsettled fun _ => hsettled).pre
      fun p hp => hminutes p hp.1
  · exact ((keeps_calcByTrunkV4 _).triple Settled.of_minutes hsettled fun _ => hsettled).pre
      fun p hp => hminutes p hp.1

/-- Opening a partition changes no row. -/
theorem MinuteInv.createNewPartition {data : DataContainer} {added : List Call}
    {m : StatsNNPPackageMinuteManager} (h : MinuteInv data added m) :
    MinuteInv data added m.createNewPartition :=
  ⟨h.books.congr rfl rfl, h.index.congr rfl rfl rfl, h.window, h.unique, h.taken, h.granted⟩

/-- Adding a settled leg books what it has taken. -/
theorem Settled.add {data : DataContainer} {priced : PricingState}
    (h : Settled data s.added priced) :
    MinuteInv data (s.add priced).added (s.add priced).billingData.statsNNPPackageMinute := by
  obtain ⟨hinv, -, hcarried⟩ := h
  have hadd : MinuteInv data (s.added ++ [priced.callInfo.call])
      (StatsNNPPackageMinuteManager.add priced.billingData.statsNNPPackageMinute
        priced.callInfo) := by
    by_cases hzero : priced.callInfo.call.statsNnpPackageMinuteId = 0
    · exact hinv.add_none hzero
    · obtain ⟨stats, hrow, hpos, hchecked, hfits⟩ := hcarried.resolve_left hzero
      exact hinv.add_row hzero hrow hpos hchecked hfits
  rw [PricingSys.add]
  rcases priced.billingData.addCall_cases priced.callInfo with heq | heq
  · simp only [heq]
    exact hadd
  · simp only [heq]
    exact hadd.createNewPartition

/-- The invariant of a run. -/
def Inv (data : DataContainer) (s : PricingSys) : Prop :=
  MinuteInv data s.added s.billingData.statsNNPPackageMinute ∧ NoCurrent s.currentNNPPackageMinute

theorem step_inv (hglobal : env.data.globalNNPPackageMinuteCounters = none)
    (hinv : Inv env.data s) (hdistinct : DistinctTariffs env.data leg.cdr.connectTime)
    (hstep : PricingSys.step env s leg = some t) : Inv env.data t := by
  obtain ⟨priced, hsettled, rfl⟩ := PricingSys.step_of_triple
    (triple_tariffication (chargingPaths_settled hglobal hdistinct hinv.1 hinv.2))
    ⟨rfl, rfl, rfl⟩ hstep
  exact ⟨hsettled.add, hsettled.2.1⟩

theorem inv_start {data : DataContainer}
    (hstats : s.billingData.statsNNPPackageMinute = UsageManager.empty)
    (hcurrent : s.currentNNPPackageMinute = UsageManager.empty) (hadded : s.added = [])
    (hgrant : ∀ light ∈ data.nnpAccountTariffLight.data,
      ∀ minute ∈ data.nnpPackageMinute.findAllByTariffID light.nnpTariffId light.coefficient,
        0 ≤ minute.minute) : Inv data s := by
  have hnone : ∀ (i : Int) (stats : StatsNNPPackageMinute),
      (UsageManager.empty : StatsNNPPackageMinuteManager).rows[i]? ≠ some stats := by
    simp [UsageManager.empty]
  rw [Inv, hstats, hcurrent, hadded]
  refine ⟨⟨Books.empty, Indexed.empty, fun i stats h => absurd h (hnone i stats),
    fun i _ stats _ h => absurd h (hnone i stats), fun call h => absurd h (by simp),
    fun light hlight minute hminute => ?_⟩, fun i stats h => absurd h (hnone i stats)⟩
  have hgranted := hgrant light hlight minute hminute
  show ((0 : Int) : ℚ) ≤ minute.minute * 60
  push_cast
  linarith

/-- **Package minutes are not overdrawn.**  In every run over fixed tables without
calls in progress and global counters, whose legs come at times when no two
active connections of a service share a tariff with package minutes, the seconds
charged to a connection for a package minute stay within those granted, and every
charge goes to the connection whose remaining seconds were checked. -/
theorem charged_le_granted {legs : List Leg}
    (hstats : s.billingData.statsNNPPackageMinute = UsageManager.empty)
    (hcurrent : s.currentNNPPackageMinute = UsageManager.empty) (hadded : s.added = [])
    (hglobal : env.data.globalNNPPackageMinuteCounters = none)
    (hgrant : ∀ light ∈ env.data.nnpAccountTariffLight.data,
      ∀ minute ∈ env.data.nnpPackageMinute.findAllByTariffID light.nnpTariffId light.coefficient,
        0 ≤ minute.minute)
    (hdistinct : ∀ leg ∈ legs, DistinctTariffs env.data leg.cdr.connectTime)
    (hrun : run (PricingSys.step env) s legs = some t) :
    (∀ light ∈ env.data.nnpAccountTariffLight.data,
      ∀ minute ∈ env.data.nnpPackageMinute.findAllByTariffID light.nnpTariffId light.coefficient,
        (chargedSeconds t.billingData.statsNNPPackageMinute light.id minute.id t.added : ℚ) ≤
          minute.minute * 60) ∧
      ∀ call ∈ t.added, call.statsNnpPackageMinuteId ≠ 0 →
        ChargedToChecked env.data t.billingData.statsNNPPackageMinute call := by
  have hstep : ∀ (s : PricingSys) (leg : Leg) (s' : PricingSys), Inv env.data s →
      DistinctTariffs env.data leg.cdr.connectTime → PricingSys.step env s leg = some s' →
      Inv env.data s' := fun s leg s' => step_inv hglobal
  have hinv : Inv env.data t := run_invariant_of_meets hstep
    (inv_start hstats hcurrent hadded hgrant)
    (meets_of_forall (fun leg hleg _ => hdistinct leg hleg) s) hrun
  exact ⟨hinv.1.granted, fun call hcall hcarries => (hinv.1.taken call hcall hcarries).2⟩

end Run

/-! ## One connection of a tariff, and two -/

/-- A number of a version 5 account, whose tariff 10 has one package minute. -/
def minuteTables (lights : NNPAccountTariffLightList) : DataContainer where
  trunkByName := fun _ _ => some { id := 1, serverId := 1, ourTrunk := true, authByNumber := true }
  server := fun _ => some { id := 1 }
  instanceSettings := fun _ => some { id := 1 }
  client := fun _ => some { id := 3, accountVersion := 5 }
  serviceNumber := fun _ _ => some { id := 9, clientAccountId := 3 }
  nnpNumberRange := fun _ => some 1
  nnpNumberRangePrefix := fun _ => [4]
  nnpPrefixDestination := fun _ => [{ nnpDestinationId := 5 }]
  nnpPackage := fun _ => some { id := 10 }
  nnpPackageMinute :=
    { data := [{ id := 20, nnpTariffId := 10, nnpDestinationId := 5, minute := 1 }] }
  nnpAccountTariffLight := lights

/-- A connection of tariff 10 to the number. -/
def lightOfNumber (id : Int) : NNPAccountTariffLight :=
  { id := id, serviceNumberId := 9, accountClientId := 3, nnpTariffId := 10, coefficient := 1,
    deactivateFrom := 5000 }

def oneLight : NNPAccountTariffLightList := { data := [lightOfNumber 1] }

def twoLights : NNPAccountTariffLightList := { data := [lightOfNumber 1, lightOfNumber 2] }

/-- Nothing is counted yet, and one number range is loaded. -/
def rangeSys : PricingSys :=
  { PricingSys.empty with numberRanges := (∅ : IntMap NNPNumberRange).insert 1 { id := 1 } }

def minuteCall : Leg where
  cdr := { connectTime := 1000, sessionTime := 60, srcRoute := ['t'] }
  orig := true

theorem oneLight_distinct : DistinctTariffs (minuteTables oneLight) 1000 := by
  intro clientId serviceId light hlight light' hlight' _ _
  have hmem := (NNPAccountTariffLightList.mem_findAllActiveByClientID hlight).1
  have hmem' := (NNPAccountTariffLightList.mem_findAllActiveByClientID hlight').1
  rw [List.mem_singleton.mp hmem, List.mem_singleton.mp hmem']

/-- The first of two calls uses the minute up, the second takes nothing. -/
theorem charged_le_granted_of_oneLight :
    ∃ t, run (PricingSys.step { data := minuteTables oneLight }) rangeSys
        [minuteCall, minuteCall] = some t ∧
      chargedSeconds t.billingData.statsNNPPackageMinute 1 20 t.added = 60 ∧
      (chargedSeconds t.billingData.statsNNPPackageMinute 1 20 t.added : ℚ) ≤ 1 * 60 := by
  have hseconds : (run (PricingSys.step { data := minuteTables oneLight }) rangeSys
      [minuteCall, minuteCall]).map (fun t =>
        chargedSeconds t.billingData.statsNNPPackageMinute 1 20 t.added) = some 60 := by
    decide +kernel
  obtain ⟨t, hrun, hcharged⟩ := Option.map_eq_some_iff.mp hseconds
  have hgrant : ∀ light ∈ oneLight.data, ∀ minute ∈
      (minuteTables oneLight).nnpPackageMinute.findAllByTariffID light.nnpTariffId
        light.coefficient, 0 ≤ minute.minute := by
    decide +kernel
  have hdistinct : ∀ leg ∈ [minuteCall, minuteCall],
      DistinctTariffs (minuteTables oneLight) leg.cdr.connectTime := by
    intro leg hleg
    have heq : leg = minuteCall := by simpa using hleg
    rw [heq]
    exact oneLight_distinct
  have hwithin := (charged_le_granted rfl rfl rfl rfl hgrant hdistinct hrun).1
    (lightOfNumber 1) (by decide)
    { id := 20, nnpTariffId := 10, nnpDestinationId := 5, minute := 1 } (by decide +kernel)
  exact ⟨t, hrun, hcharged, hwithin⟩

/-- With two connections of one tariff the first is charged twice what it was
granted, because the second is the one that is checked. -/
theorem charged_gt_granted_of_twoLights :
    ¬ ∀ (env : BillingEnv) (s t : PricingSys) (legs : List Leg),
      s.billingData.statsNNPPackageMinute = UsageManager.empty →
      s.currentNNPPackageMinute = UsageManager.empty → s.added = [] →
      env.data.globalNNPPackageMinuteCounters = none →
      run (PricingSys.step env) s legs = some t →
      ∀ light ∈ env.data.nnpAccountTariffLight.data,
      ∀ minute ∈ env.data.nnpPackageMinute.findAllByTariffID light.nnpTariffId light.coefficient,
        (chargedSeconds t.billingData.statsNNPPackageMinute light.id minute.id t.added : ℚ) ≤
          minute.minute * 60 := by
  intro h
  have hseconds : (run (PricingSys.step { data := minuteTables twoLights }) rangeSys
      [minuteCall, minuteCall]).map (fun t =>
        chargedSeconds t.billingData.statsNNPPackageMinute 1 20 t.added) = some 120 := by
    decide +kernel
  obtain ⟨t, hrun, hcharged⟩ := Option.map_eq_some_iff.mp hseconds
  have hwithin := h _ _ t _ rfl rfl rfl rfl hrun (lightOfNumber 1) (by decide)
    { id := 20, nnpTariffId := 10, nnpDestinationId := 5, minute := 1 } (by decide +kernel)
  have hid : (lightOfNumber 1).id = 1 := rfl
  simp only [hid, hcharged] at hwithin
  norm_num at hwithin

end NNPMinutes
end VoipBill
