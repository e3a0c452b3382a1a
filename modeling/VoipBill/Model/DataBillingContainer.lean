import VoipBill.Model.CallsManager
import VoipBill.Model.StatsAccountManager
import VoipBill.Model.UsageManagers

/-!
# The billing container

`DataBillingContainer` owns the queue of calls and the five counter managers.
A call is added to all of them, and a partition is opened and removed in all of
them, under one lock, so each of these is one step.

`Aligned n` says that all six queues have `n` partitions.
-/

namespace VoipBill

open Lib

structure DataBillingContainer where
  calls : CallsManager
  statsAccount : StatsAccountManager
  statsFreemin : StatsFreeminManager
  statsPackage : StatsPackageManager
  statsTrunkSettings : StatsTrunkSettingsManager
  statsNNPPackageMinute : StatsNNPPackageMinuteManager

/-- The counter rows in memory. -/
structure Counters where
  statsAccount : IntMap StatsAccount
  statsFreemin : IntMap StatsFreemin
  statsPackage : IntMap StatsPackage
  statsTrunkSettings : IntMap StatsTrunkSettings
  statsNNPPackageMinute : IntMap StatsNNPPackageMinute

namespace DataBillingContainer

def counters (d : DataBillingContainer) : Counters where
  statsAccount := d.statsAccount.rows
  statsFreemin := d.statsFreemin.rows
  statsPackage := d.statsPackage.rows
  statsTrunkSettings := d.statsTrunkSettings.rows
  statsNNPPackageMinute := d.statsNNPPackageMinute.rows

/-- The container before anything is loaded. -/
def empty : DataBillingContainer where
  calls := CallsManager.clear
  statsAccount := StatsAccountManager.empty
  statsFreemin := UsageManager.empty
  statsPackage := UsageManager.empty
  statsTrunkSettings := UsageManager.empty
  statsNNPPackageMinute := UsageManager.empty

def createNewPartition (d : DataBillingContainer) : DataBillingContainer where
  calls := d.calls.createNewPartition
  statsAccount := d.statsAccount.createNewPartition
  statsFreemin := d.statsFreemin.createNewPartition
  statsPackage := d.statsPackage.createNewPartition
  statsTrunkSettings := d.statsTrunkSettings.createNewPartition
  statsNNPPackageMinute := d.statsNNPPackageMinute.createNewPartition

def removePartitionAfterSave (d : DataBillingContainer) : DataBillingContainer where
  calls := d.calls.removePartitionAfterSave
  statsAccount := d.statsAccount.removePartitionAfterSave
  statsFreemin := d.statsFreemin.removePartitionAfterSave
  statsPackage := d.statsPackage.removePartitionAfterSave
  statsTrunkSettings := d.statsTrunkSettings.removePartitionAfterSave
  statsNNPPackageMinute := d.statsNNPPackageMinute.removePartitionAfterSave

/-- A call goes to the counters and to the queue. -/
def enqueue (d : DataBillingContainer) (callInfo : CallInfo) : DataBillingContainer where
  calls := d.calls.add callInfo.call
  statsAccount := d.statsAccount.add callInfo
  statsFreemin := StatsFreeminManager.add d.statsFreemin callInfo
  statsPackage := StatsPackageManager.add d.statsPackage callInfo
  statsTrunkSettings := StatsTrunkSettingsManager.add d.statsTrunkSettings callInfo
  statsNNPPackageMinute := StatsNNPPackageMinuteManager.add d.statsNNPPackageMinute callInfo

/-- A full partition is closed right after the call that filled it. -/
def addCall (d : DataBillingContainer) (callInfo : CallInfo) : DataBillingContainer :=
  let d := d.enqueue callInfo
  if d.calls.isNeedCreatePartitionAfterAdd then d.createNewPartition else d

/-- The first locked section of `save`; `none` when there is nothing to save. -/
def saveStart (d : DataBillingContainer) : Option DataBillingContainer :=
  if d.calls.isNeedSave then
    some (if d.calls.isNeedCreatePartitionBeforeSave then d.createNewPartition else d)
  else
    none

/-! ## Six queues in lockstep -/

/-- All six queues have `n` partitions. -/
structure Aligned (d : DataBillingContainer) (n : Nat) : Prop where
  calls : d.calls.realtimeCallsParts.length = n
  statsAccount : d.statsAccount.parts.length = n
  statsFreemin : d.statsFreemin.parts.length = n
  statsPackage : d.statsPackage.parts.length = n
  statsTrunkSettings : d.statsTrunkSettings.parts.length = n
  statsNNPPackageMinute : d.statsNNPPackageMinute.parts.length = n

variable {d : DataBillingContainer} {n : Nat}

theorem Aligned.createNewPartition (h : d.Aligned n) : d.createNewPartition.Aligned (n + 1) where
  calls := by simp [DataBillingContainer.createNewPartition, h.calls]
  statsAccount := by
    simp [DataBillingContainer.createNewPartition, StatsAccountManager.createNewPartition,
      h.statsAccount]
  statsFreemin := by
    simp [DataBillingContainer.createNewPartition, UsageManager.createNewPartition,
      h.statsFreemin]
  statsPackage := by
    simp [DataBillingContainer.createNewPartition, UsageManager.createNewPartition,
      h.statsPackage]
  statsTrunkSettings := by
    simp [DataBillingContainer.createNewPartition, UsageManager.createNewPartition,
      h.statsTrunkSettings]
  statsNNPPackageMinute := by
    simp [DataBillingContainer.createNewPartition, UsageManager.createNewPartition,
      h.statsNNPPackageMinute]

theorem Aligned.removePartitionAfterSave (h : d.Aligned n) :
    d.removePartitionAfterSave.Aligned (n - 1) where
  calls := by simp [DataBillingContainer.removePartitionAfterSave, h.calls]
  statsAccount := by
    simp [DataBillingContainer.removePartitionAfterSave,
      StatsAccountManager.removePartitionAfterSave, h.statsAccount]
  statsFreemin := by
    simp [DataBillingContainer.removePartitionAfterSave,
      UsageManager.removePartitionAfterSave, h.statsFreemin]
  statsPackage := by
    simp [DataBillingContainer.removePartitionAfterSave,
      UsageManager.removePartitionAfterSave, h.statsPackage]
  statsTrunkSettings := by
    simp [DataBillingContainer.removePartitionAfterSave,
      UsageManager.removePartitionAfterSave, h.statsTrunkSettings]
  statsNNPPackageMinute := by
    simp [DataBillingContainer.removePartitionAfterSave,
      UsageManager.removePartitionAfterSave, h.statsNNPPackageMinute]

theorem Aligned.enqueue (h : d.Aligned n) (callInfo : CallInfo) :
    (d.enqueue callInfo).Aligned n where
  calls := by simp [DataBillingContainer.enqueue, h.calls]
  statsAccount := (StatsAccountManager.add_writes _ _).length_parts.trans h.statsAccount
  statsFreemin := (UsageManager.addBooked_writes _ _ _).length_parts.trans h.statsFreemin
  statsPackage := (UsageManager.addBooked_writes _ _ _).length_parts.trans h.statsPackage
  statsTrunkSettings :=
    (UsageManager.addBooked_writes _ _ _).length_parts.trans h.statsTrunkSettings
  statsNNPPackageMinute :=
    (UsageManager.addBooked_writes _ _ _).length_parts.trans h.statsNNPPackageMinute

/-- Adding a call keeps the partitions, or opens one in every queue. -/
theorem addCall_cases (d : DataBillingContainer) (callInfo : CallInfo) :
    d.addCall callInfo = d.enqueue callInfo ∨
      d.addCall callInfo = (d.enqueue callInfo).createNewPartition := by
  simp only [addCall]
  split
  · exact Or.inr rfl
  · exact Or.inl rfl

/-- Starting a save keeps the partitions, or opens one in every queue. -/
theorem saveStart_cases {d d' : DataBillingContainer} (h : d.saveStart = some d') :
    d.calls.isNeedSave = true ∧
      (d' = d ∧ d.calls.realtimeCallsParts.length ≠ 1 ∨
        d' = d.createNewPartition ∧ d.calls.realtimeCallsParts.length = 1) := by
  unfold saveStart at h
  split at h
  case isTrue hneed =>
    refine ⟨hneed, ?_⟩
    rw [Option.some.injEq] at h
    split at h
    case isTrue hone =>
      exact Or.inr ⟨h.symm, by simpa [CallsManager.isNeedCreatePartitionBeforeSave] using hone⟩
    case isFalse hone =>
      exact Or.inl ⟨h.symm, by simpa [CallsManager.isNeedCreatePartitionBeforeSave] using hone⟩
  case isFalse => exact absurd h (by simp)

end DataBillingContainer
end VoipBill
