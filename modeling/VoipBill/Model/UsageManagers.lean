import VoipBill.Lib.WriteBehind
import VoipBill.Model.Common
import VoipBill.Model.Records
import Std.Data.ExtTreeSet

/-!
# Usage counters

`StatsFreeminManager`, `StatsPackageManager`, `StatsTrunkSettingsManager` and
`StatsNNPPackageMinuteManager` are one design with four row types: rows are
found through an index by service, package, setting or connected tariff, a
missing row is created under the next id, and a call is booked on the row it
carries the id of.  `UsageManager` is that design; each manager is its instance
with its own row, window and booking.

A row is stored in memory, and queued in a partition, under its own `id`.

* `UsageManager.getCurrent_cases`: what a lookup can do;
* `UsageManager.addBooked_cases`: what adding a call can do.
-/

namespace VoipBill

open Lib

/-- Rows, the queue of changed rows, the index and the last id given out. -/
structure UsageManager (ρ : Type) extends Ledger ρ where
  lastStatId : Int
  statsByKey : IntMap (List Int)
  forSync : Std.ExtTreeSet Int

namespace UsageManager

variable {ρ : Type}

/-- A manager without rows, as its constructor leaves it. -/
def empty : UsageManager ρ where
  rows := ∅
  parts := [∅]
  lastStatId := 0
  statsByKey := ∅
  forSync := ∅

/-- Set a row, queue it and mark it for synchronisation. -/
def putRow (m : UsageManager ρ) (id : Int) (stats : ρ) : UsageManager ρ :=
  { m with toLedger := m.put id stats, forSync := m.forSync.insert id }

/-- The first row of the index that is current. -/
def findCurrent (m : UsageManager ρ) (key : Int) (isCurrent : ρ → Bool) : Option ρ :=
  (m.statsByKey[key]?.getD []).findSome? fun id => m.rows[id]?.filter isCurrent

/-- The current row of a key; `createStats` makes it for the next id if there
is none. -/
def getCurrent (m : UsageManager ρ) (key : Int) (isCurrent : ρ → Bool)
    (createStats : Int → ρ) : ρ × UsageManager ρ :=
  match m.findCurrent key isCurrent with
  | some stats => (stats, m)
  | none =>
      let id := m.lastStatId + 1
      let ids := m.statsByKey[key]?.getD []
      (createStats id,
        { m.putRow id (createStats id) with
          lastStatId := id, statsByKey := m.statsByKey.insert key (id :: ids) })

/-- Update the row with this id, if there is one, and queue it. -/
def book (m : UsageManager ρ) (id : Int) (update : ρ → ρ) : UsageManager ρ :=
  match m.rows[id]? with
  | none => m
  | some stats => m.putRow id (update stats)

/-- Add a call that is booked on the row `booked`, or on none. -/
def addBooked (m : UsageManager ρ) (booked : Option Int) (update : ρ → ρ) : UsageManager ρ :=
  match booked with
  | none => m
  | some id => m.book id update

def createNewPartition (m : UsageManager ρ) : UsageManager ρ :=
  { m with toLedger := m.openPart }

def removePartitionAfterSave (m : UsageManager ρ) : UsageManager ρ :=
  { m with toLedger := m.dropPart }

/-- No id above the last one given out is in use. -/
def IdsBounded (m : UsageManager ρ) : Prop := ∀ id, m.lastStatId < id → m.rows[id]? = none

theorem IdsBounded.next {m : UsageManager ρ} (h : m.IdsBounded) :
    m.rows[m.lastStatId + 1]? = none :=
  h _ (by omega)

theorem IdsBounded.putRow {m : UsageManager ρ} (h : m.IdsBounded) {id : Int} {stats : ρ}
    (hrow : m.rows[id]? = some stats) (stats' : ρ) : (m.putRow id stats').IdsBounded := by
  intro id' hid'
  have hnone : m.rows[id']? = none := h id' hid'
  have hne : id ≠ id' := by
    rintro rfl
    rw [hnone] at hrow
    exact absurd hrow (by simp)
  simp only [UsageManager.putRow, Ledger.put_rows, IntMap.getElem?_insert_of_ne _ hne]
  exact hnone

/-- What a lookup can do: find a current row of the key, or create one. -/
theorem getCurrent_cases (m : UsageManager ρ) (key : Int) (isCurrent : ρ → Bool)
    (createStats : Int → ρ) :
    (∃ (id : Int) (stats : ρ), m.rows[id]? = some stats ∧ isCurrent stats = true ∧
      m.getCurrent key isCurrent createStats = (stats, m)) ∨
    m.getCurrent key isCurrent createStats =
      (createStats (m.lastStatId + 1),
        { m.putRow (m.lastStatId + 1) (createStats (m.lastStatId + 1)) with
          lastStatId := m.lastStatId + 1
          statsByKey := m.statsByKey.insert key
            ((m.lastStatId + 1) :: (m.statsByKey[key]?.getD [])) }) := by
  unfold getCurrent
  split
  case h_1 stats hfind =>
    left
    obtain ⟨id, -, hid⟩ := List.exists_of_findSome?_eq_some hfind
    obtain ⟨hrow, hcurrent⟩ := Option.filter_eq_some_iff.mp hid
    exact ⟨id, stats, hrow, hcurrent, rfl⟩
  case h_2 => exact Or.inr rfl

/-- What adding a call can do: nothing, if there is no row to book it on, or
change that row. -/
theorem addBooked_cases (m : UsageManager ρ) (booked : Option Int) (update : ρ → ρ) :
    ((∀ id, booked = some id → m.rows[id]? = none) ∧ m.addBooked booked update = m) ∨
    ∃ id stats, booked = some id ∧ m.rows[id]? = some stats ∧
      m.addBooked booked update = m.putRow id (update stats) := by
  cases booked with
  | none => exact Or.inl ⟨by simp, rfl⟩
  | some id =>
      simp only [addBooked, book, Option.some.injEq]
      split
      case h_1 hnone => exact Or.inl ⟨fun id' h => h ▸ hnone, rfl⟩
      case h_2 stats hsome => exact Or.inr ⟨id, stats, rfl, hsome, rfl⟩

theorem getCurrent_idsBounded {m : UsageManager ρ} (h : m.IdsBounded) (key : Int)
    (isCurrent : ρ → Bool) (createStats : Int → ρ) :
    (m.getCurrent key isCurrent createStats).2.IdsBounded := by
  rcases m.getCurrent_cases key isCurrent createStats with ⟨_, _, _, _, heq⟩ | heq
  · rw [heq]
    exact h
  · rw [heq]
    intro id hid
    have hlt : m.lastStatId + 1 < id := hid
    have hne : m.lastStatId + 1 ≠ id := by omega
    simp only [putRow, Ledger.put_rows, IntMap.getElem?_insert_of_ne _ hne]
    exact h id (by omega)

/-- Where rows are stored under their ids, so is the row that a lookup returns. -/
theorem getCurrent_row {m : UsageManager ρ} {id : ρ → Int} {key : Int} {isCurrent : ρ → Bool}
    {createStats : Int → ρ} (hids : ∀ (i : Int) (stats : ρ), m.rows[i]? = some stats → id stats = i)
    (hcreate : ∀ i, id (createStats i) = i) :
    (m.getCurrent key isCurrent createStats).2.rows[
      id (m.getCurrent key isCurrent createStats).1]? =
      some (m.getCurrent key isCurrent createStats).1 := by
  rcases m.getCurrent_cases key isCurrent createStats with ⟨i, stats, hrow, _, heq⟩ | heq
  · rw [heq, hids i stats hrow]
    exact hrow
  · rw [heq, hcreate]
    simp [putRow]

/-- A lookup changes no row that exists. -/
theorem getCurrent_mono {m : UsageManager ρ} (h : m.IdsBounded) {key : Int}
    {isCurrent : ρ → Bool} {createStats : Int → ρ} {id : Int} {stats : ρ}
    (hrow : m.rows[id]? = some stats) :
    (m.getCurrent key isCurrent createStats).2.rows[id]? = some stats := by
  rcases m.getCurrent_cases key isCurrent createStats with ⟨_, _, _, _, heq⟩ | heq
  · rw [heq]
    exact hrow
  · have hne : m.lastStatId + 1 ≠ id := by
      rintro rfl
      rw [h.next] at hrow
      exact absurd hrow (by simp)
    rw [heq]
    simp only [putRow, Ledger.put_rows, IntMap.getElem?_insert_of_ne _ hne]
    exact hrow

/-- After a row is put, a row is that one or was there before. -/
theorem of_putRow {m : UsageManager ρ} {id i : Int} {stats stats' : ρ}
    (h : (m.putRow id stats).rows[i]? = some stats') :
    (i = id ∧ stats' = stats) ∨ m.rows[i]? = some stats' := by
  simp only [putRow, Ledger.put_rows, IntMap.getElem?_insert] at h
  split at h
  case isTrue heq => exact Or.inl ⟨heq.symm, (Option.some.inj h).symm⟩
  case isFalse => exact Or.inr h

/-- Where a row is changed, every row was there before, changed or not. -/
theorem exists_of_putRow {m : UsageManager ρ} {id i : Int} {old new stats : ρ} {R : ρ → ρ → Prop}
    (hold : m.rows[id]? = some old) (hrefl : ∀ stats, R stats stats) (hchange : R old new)
    (h : (m.putRow id new).rows[i]? = some stats) :
    ∃ before, m.rows[i]? = some before ∧ R before stats := by
  rcases of_putRow h with ⟨rfl, rfl⟩ | hsame
  · exact ⟨old, hold, hchange⟩
  · exact ⟨stats, hsame, hrefl stats⟩

/-- Where a row is changed, every row stays there, changed or not. -/
theorem exists_putRow {m : UsageManager ρ} {id i : Int} {old new stats : ρ} {R : ρ → ρ → Prop}
    (hold : m.rows[id]? = some old) (hrefl : ∀ stats, R stats stats) (hchange : R old new)
    (h : m.rows[i]? = some stats) :
    ∃ after, (m.putRow id new).rows[i]? = some after ∧ R stats after := by
  simp only [putRow, Ledger.put_rows, IntMap.getElem?_insert]
  split
  case isTrue heq =>
    rw [← heq, hold, Option.some.injEq] at h
    exact ⟨new, rfl, h ▸ hchange⟩
  case isFalse => exact ⟨stats, h, hrefl stats⟩

section Rows

variable {m : UsageManager ρ} {key : Int} {isCurrent : ρ → Bool} {createStats : Int → ρ}

/-- After a lookup, a row is the one created, as none was current, or was there before. -/
theorem of_getCurrent {i : Int} {stats : ρ}
    (h : (m.getCurrent key isCurrent createStats).2.rows[i]? = some stats) :
    (m.findCurrent key isCurrent = none ∧ i = m.lastStatId + 1 ∧
      stats = createStats (m.lastStatId + 1)) ∨ m.rows[i]? = some stats := by
  cases hfind : m.findCurrent key isCurrent with
  | some found =>
      rw [getCurrent, hfind] at h
      exact Or.inr h
  | none =>
      rw [getCurrent, hfind] at h
      exact (of_putRow h).imp_left fun hnew => ⟨rfl, hnew⟩

/-- What holds of all rows and of a created one holds of all rows after a lookup. -/
theorem forall_getCurrent {P : Int → ρ → Prop}
    (h : ∀ (i : Int) (stats : ρ), m.rows[i]? = some stats → P i stats)
    (hcreate : P (m.lastStatId + 1) (createStats (m.lastStatId + 1))) (i : Int) (stats : ρ)
    (hrow : (m.getCurrent key isCurrent createStats).2.rows[i]? = some stats) : P i stats := by
  rcases of_getCurrent hrow with ⟨-, rfl, rfl⟩ | hold
  · exact hcreate
  · exact h i stats hold

/-- What holds of any two rows, and of a created one and those that were not current, holds of
any two rows after a lookup. -/
theorem pairwise_getCurrent {R : ρ → ρ → Prop} (hsymm : ∀ {stats stats'}, R stats stats' →
      R stats' stats)
    (h : ∀ (i j : Int) (stats stats' : ρ), m.rows[i]? = some stats → m.rows[j]? = some stats' →
      i ≠ j → R stats stats')
    (hcreate : m.findCurrent key isCurrent = none → ∀ (i : Int) (stats : ρ),
      m.rows[i]? = some stats → R (createStats (m.lastStatId + 1)) stats)
    (i j : Int) (stats stats' : ρ)
    (hrow : (m.getCurrent key isCurrent createStats).2.rows[i]? = some stats)
    (hrow' : (m.getCurrent key isCurrent createStats).2.rows[j]? = some stats') (hne : i ≠ j) :
    R stats stats' := by
  rcases of_getCurrent hrow with ⟨hfind, hi, rfl⟩ | hold
  · rcases of_getCurrent hrow' with ⟨-, hj, -⟩ | hold'
    · exact absurd (hi.trans hj.symm) hne
    · exact hcreate hfind j stats' hold'
  · rcases of_getCurrent hrow' with ⟨hfind, -, rfl⟩ | hold'
    · exact hsymm (hcreate hfind i stats hold)
    · exact h i j stats stats' hold hold' hne

end Rows

theorem addBooked_idsBounded {m : UsageManager ρ} (h : m.IdsBounded) (booked : Option Int)
    (update : ρ → ρ) : (m.addBooked booked update).IdsBounded := by
  rcases m.addBooked_cases booked update with ⟨-, heq⟩ | ⟨id, stats, -, hrow, heq⟩
  · rw [heq]
    exact h
  · rw [heq]
    exact h.putRow hrow _

theorem addBooked_writes (m : UsageManager ρ) (booked : Option Int) (update : ρ → ρ) :
    m.Writes (m.addBooked booked update).toLedger := by
  rcases m.addBooked_cases booked update with ⟨-, heq⟩ | ⟨id, stats, -, -, heq⟩
  · exact Or.inl (by rw [heq])
  · exact Or.inr ⟨id, update stats, by rw [heq, putRow]⟩

theorem getCurrent_writes (m : UsageManager ρ) (key : Int) (isCurrent : ρ → Bool)
    (createStats : Int → ρ) :
    m.Writes (m.getCurrent key isCurrent createStats).2.toLedger := by
  rcases m.getCurrent_cases key isCurrent createStats with ⟨_, _, _, _, heq⟩ | heq
  · exact Or.inl (by rw [heq])
  · exact Or.inr ⟨_, _, by rw [heq, putRow]⟩

end UsageManager

/-! ## Free minutes -/

abbrev StatsFreeminManager : Type := UsageManager StatsFreemin

namespace StatsFreeminManager

def createStatsFreemin (callInfo : CallInfo) (id : Int) : StatsFreemin :=
  { id := id
    serviceNumberId := callInfo.call.numberServiceId
    monthDt := callInfo.dt.month }

def getCurrent (m : StatsFreeminManager) (callInfo : CallInfo) :
    StatsFreemin × StatsFreeminManager :=
  UsageManager.getCurrent m callInfo.call.numberServiceId
    (fun stats => stats.monthDt == callInfo.dt.month) (createStatsFreemin callInfo)

def updateStatsFreemin (call : Call) (stats : StatsFreemin) : StatsFreemin :=
  { stats with
    usedSeconds := stats.usedSeconds + call.packageTime
    usedCredit := stats.usedCredit + call.packageCredit
    minCallId := if stats.minCallId = 0 then call.id else stats.minCallId
    maxCallId := call.id }

/-- The row a call is booked on; `service_package_id` 1 stands for free minutes. -/
def bookedRow (callInfo : CallInfo) : Option Int :=
  if callInfo.call.numberServiceId = 0 ∨ callInfo.call.servicePackageId ≠ 1 ∨
      callInfo.call.servicePackageStatsId = 0 then
    none
  else
    some callInfo.call.servicePackageStatsId

def add (m : StatsFreeminManager) (callInfo : CallInfo) : StatsFreeminManager :=
  UsageManager.addBooked m (bookedRow callInfo) (updateStatsFreemin callInfo.call)

end StatsFreeminManager

/-! ## Prepaid packages -/

abbrev StatsPackageManager : Type := UsageManager StatsPackage

namespace StatsPackageManager

/-- C's `round`: to the nearest integer, halves away from zero. -/
def cround (x : ℚ) : Int := if 0 ≤ x then ⌊x + 1 / 2⌋ else ⌈x - 1 / 2⌉

/-- A periodical package grants the share of a month that it is valid in. -/
def createStatsPackage (callInfo : CallInfo) (timezoneOffset : Int)
    (servicePackage : ServicePackage) (tariffPackage : TariffPackage) (id : Int) :
    StatsPackage :=
  if servicePackage.periodical then
    let monthStart := getTmonth callInfo.call.connectTime timezoneOffset
    let monthEnd := getTmonthEnd callInfo.call.connectTime timezoneOffset
    let monthSeconds : ℚ := (monthEnd + 1 - monthStart : Int)
    let activationDt :=
      if monthStart < servicePackage.activationDt then servicePackage.activationDt
      else monthStart
    let expireDt :=
      if monthEnd > servicePackage.expireDt then servicePackage.expireDt else monthEnd
    let packageSeconds : ℚ := (expireDt + 1 - activationDt : Int)
    { id := id
      packageId := servicePackage.id
      activationDt := activationDt
      expireDt := expireDt
      paidSeconds := cround (packageSeconds * tariffPackage.getPrepaidSeconds / monthSeconds) }
  else
    { id := id
      packageId := servicePackage.id
      activationDt := servicePackage.activationDt
      expireDt := servicePackage.expireDt
      paidSeconds := tariffPackage.getPrepaidSeconds }

def isCurrent (connectTime : Int) (stats : StatsPackage) : Bool :=
  !(decide (stats.activationDt > connectTime)) && !(decide (stats.expireDt < connectTime))

/-- `callInfo->account` is not null here: a leg reaches its packages only after
`setupAccount`. -/
def getCurrent (m : StatsPackageManager) (callInfo : CallInfo) (account : Client)
    (servicePackage : ServicePackage) (tariffPackage : TariffPackage) :
    StatsPackage × StatsPackageManager :=
  UsageManager.getCurrent m servicePackage.id (isCurrent callInfo.call.connectTime)
    (createStatsPackage callInfo account.timezoneOffset servicePackage tariffPackage)

def updateStatsPackage (call : Call) (stats : StatsPackage) : StatsPackage :=
  { stats with
    usedSeconds := stats.usedSeconds + call.packageTime
    usedCredit := stats.usedCredit + call.packageCredit
    minCallId := if stats.minCallId = 0 then call.id else stats.minCallId
    maxCallId := call.id }

def bookedRow (callInfo : CallInfo) : Option Int :=
  if callInfo.call.numberServiceId = 0 ∨ callInfo.call.servicePackageId ≤ 1 ∨
      callInfo.call.servicePackageStatsId = 0 ∨ callInfo.servicePackagePrepaid = none then
    none
  else
    some callInfo.call.servicePackageStatsId

def add (m : StatsPackageManager) (callInfo : CallInfo) : StatsPackageManager :=
  UsageManager.addBooked m (bookedRow callInfo) (updateStatsPackage callInfo.call)

end StatsPackageManager

/-! ## Trunk settings -/

abbrev StatsTrunkSettingsManager : Type := UsageManager StatsTrunkSettings

namespace StatsTrunkSettingsManager

def createStatsTrunkSettings (connectTime : Int) (account : Client)
    (trunkSettings : ServiceTrunkSettings) (id : Int) : StatsTrunkSettings :=
  { id := id
    trunkSettingsId := trunkSettings.id
    activationDt := getTmonth connectTime account.timezoneOffset
    expireDt := getTmonthEnd connectTime account.timezoneOffset }

def isCurrent (connectTime : Int) (stats : StatsTrunkSettings) : Bool :=
  !(decide (stats.activationDt > connectTime)) && !(decide (stats.expireDt < connectTime))

def getCurrent (m : StatsTrunkSettingsManager) (connectTime : Int) (account : Client)
    (trunkSettings : ServiceTrunkSettings) :
    StatsTrunkSettings × StatsTrunkSettingsManager :=
  UsageManager.getCurrent m trunkSettings.id (isCurrent connectTime)
    (createStatsTrunkSettings connectTime account trunkSettings)

def updateStatsTrunkSettings (call : Call) (stats : StatsTrunkSettings) :
    StatsTrunkSettings :=
  { stats with
    usedSeconds := stats.usedSeconds + call.billedTime
    usedCredit := stats.usedCredit + call.cost
    minCallId := if stats.minCallId = 0 then call.id else stats.minCallId
    maxCallId := call.id }

def bookedRow (callInfo : CallInfo) : Option Int :=
  if callInfo.call.trunkSettingsStatsId = 0 then none
  else some callInfo.call.trunkSettingsStatsId

def add (m : StatsTrunkSettingsManager) (callInfo : CallInfo) : StatsTrunkSettingsManager :=
  UsageManager.addBooked m (bookedRow callInfo) (updateStatsTrunkSettings callInfo.call)

end StatsTrunkSettingsManager

/-! ## Package minutes of version 5 tariffs -/

abbrev StatsNNPPackageMinuteManager : Type := UsageManager StatsNNPPackageMinute

namespace StatsNNPPackageMinuteManager

/-- The window is the validity of the connected tariff; `paid_seconds` stays zero. -/
def createStatsNNPPackageMinute (nnpPackageMinute : NNPPackageMinute)
    (light : NNPAccountTariffLight) (id : Int) : StatsNNPPackageMinute :=
  { id := id
    nnpPackageMinuteId := nnpPackageMinute.id
    nnpAccountTariffLightId := light.id
    activateFrom := light.activateFrom
    deactivateFrom := light.deactivateFrom }

def isCurrent (connectTime : Int) (stats : StatsNNPPackageMinute) : Bool :=
  !(decide (stats.activateFrom > connectTime)) &&
    !(decide (stats.deactivateFrom < connectTime))

def getCurrent (m : StatsNNPPackageMinuteManager) (connectTime : Int)
    (nnpPackageMinute : NNPPackageMinute) (light : NNPAccountTariffLight) :
    StatsNNPPackageMinute × StatsNNPPackageMinuteManager :=
  UsageManager.getCurrent m light.id (isCurrent connectTime)
    (createStatsNNPPackageMinute nnpPackageMinute light)

/-- Used seconds of the connected tariff; the package minute is not looked at. -/
def getUsedSeconds (m : StatsNNPPackageMinuteManager) (lightId : Int)
    (_nnpPackageMinuteId : Int) (connectTime : Int) : Int :=
  match m.findCurrent lightId (isCurrent connectTime) with
  | some stats => stats.usedSeconds
  | none => 0

def updateStatsNNPPackageMinute (call : Call) (stats : StatsNNPPackageMinute) :
    StatsNNPPackageMinute :=
  { stats with
    usedSeconds := stats.usedSeconds + call.packageTime
    usedCredit := stats.usedCredit + call.cost
    minCallId := if stats.minCallId = 0 then call.id else stats.minCallId
    maxCallId := call.id }

def bookedRow (callInfo : CallInfo) : Option Int :=
  if callInfo.call.statsNnpPackageMinuteId = 0 then none
  else some callInfo.call.statsNnpPackageMinuteId

def add (m : StatsNNPPackageMinuteManager) (callInfo : CallInfo) :
    StatsNNPPackageMinuteManager :=
  UsageManager.addBooked m (bookedRow callInfo) (updateStatsNNPPackageMinute callInfo.call)

end StatsNNPPackageMinuteManager

end VoipBill
