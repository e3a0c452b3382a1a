import VoipBill.Model.DataBillingContainer

/-!
# The save thread

`DataBillingContainer::save` as a sequence of steps.  The thread takes the lock
once to start, six times to prepare the queries of partition 0, and once more to
remove that partition; in between it writes the queries in one transaction,
which commits or fails as a whole.  Other threads run between any two of these
steps.

The insert into a counter table is an upsert on the row's key, and the inserts
into `calls_raw` append to the table of a month.
-/

namespace VoipBill

open Lib

/-- The tables the save thread writes. -/
structure CallsDb where
  callsRaw : IntMap (List Call)
  statsAccount : IntMap StatsAccount
  statsFreemin : IntMap StatsFreemin
  statsPackage : IntMap StatsPackage
  statsTrunkSettings : IntMap StatsTrunkSettings
  statsNNPPackageMinute : IntMap StatsNNPPackageMinute

/-- Stored calls of one month, oldest first. -/
def CallsDb.callsOf (db : CallsDb) (month : Int) : List Call := db.callsRaw[month]?.getD []

/-- The rows a save is going to write. -/
@[ext] structure SaveQueries where
  callsPerMonth : IntMap (List Call)
  statsAccount : IntMap StatsAccount
  statsFreemin : IntMap StatsFreemin
  statsPackage : IntMap StatsPackage
  statsTrunkSettings : IntMap StatsTrunkSettings
  statsNNPPackageMinute : IntMap StatsNNPPackageMinute

namespace SaveQueries

/-- No query is prepared yet. -/
def empty : SaveQueries := ⟨∅, ∅, ∅, ∅, ∅, ∅⟩

/-- All queries for partition 0 of a container. -/
def ofContainer (d : DataBillingContainer) : SaveQueries where
  callsPerMonth := d.calls.prepareSaveQueries.1
  statsAccount := d.statsAccount.parts.headD ∅
  statsFreemin := d.statsFreemin.parts.headD ∅
  statsPackage := d.statsPackage.parts.headD ∅
  statsTrunkSettings := d.statsTrunkSettings.parts.headD ∅
  statsNNPPackageMinute := d.statsNNPPackageMinute.parts.headD ∅

/-- Each of the six locked sections prepares one query. -/
def prepare (q : SaveQueries) (d : DataBillingContainer) : Nat → SaveQueries
  | 0 => { q with callsPerMonth := (ofContainer d).callsPerMonth }
  | 1 => { q with statsAccount := (ofContainer d).statsAccount }
  | 2 => { q with statsFreemin := (ofContainer d).statsFreemin }
  | 3 => { q with statsPackage := (ofContainer d).statsPackage }
  | 4 => { q with statsTrunkSettings := (ofContainer d).statsTrunkSettings }
  | 5 => { q with statsNNPPackageMinute := (ofContainer d).statsNNPPackageMinute }
  | _ => q

/-- All queries executed and committed. -/
def execute (q : SaveQueries) (db : CallsDb) : CallsDb where
  callsRaw := IntMap.appendRows db.callsRaw q.callsPerMonth
  statsAccount := IntMap.upsert db.statsAccount q.statsAccount
  statsFreemin := IntMap.upsert db.statsFreemin q.statsFreemin
  statsPackage := IntMap.upsert db.statsPackage q.statsPackage
  statsTrunkSettings := IntMap.upsert db.statsTrunkSettings q.statsTrunkSettings
  statsNNPPackageMinute := IntMap.upsert db.statsNNPPackageMinute q.statsNNPPackageMinute

/-- The first `done` queries are those of the container. -/
structure Prepared (done : Nat) (q : SaveQueries) (d : DataBillingContainer) : Prop where
  callsPerMonth : 0 < done → q.callsPerMonth = (ofContainer d).callsPerMonth
  statsAccount : 1 < done → q.statsAccount = (ofContainer d).statsAccount
  statsFreemin : 2 < done → q.statsFreemin = (ofContainer d).statsFreemin
  statsPackage : 3 < done → q.statsPackage = (ofContainer d).statsPackage
  statsTrunkSettings : 4 < done → q.statsTrunkSettings = (ofContainer d).statsTrunkSettings
  statsNNPPackageMinute : 5 < done →
    q.statsNNPPackageMinute = (ofContainer d).statsNNPPackageMinute

theorem prepared_zero (q : SaveQueries) (d : DataBillingContainer) : Prepared 0 q d := by
  constructor <;> exact fun h => absurd h (by omega)

theorem Prepared.prepare {done : Nat} {q : SaveQueries} {d : DataBillingContainer}
    (h : Prepared done q d) (hdone : done < 6) :
    Prepared (done + 1) (q.prepare d done) d := by
  interval_cases done <;> constructor <;> intro hlt <;>
    first
      | rfl
      | exact absurd hlt (by omega)
      | exact h.callsPerMonth (by omega)
      | exact h.statsAccount (by omega)
      | exact h.statsFreemin (by omega)
      | exact h.statsPackage (by omega)
      | exact h.statsTrunkSettings (by omega)

theorem Prepared.congr {done : Nat} {q : SaveQueries} {d d' : DataBillingContainer}
    (h : Prepared done q d) (heq : ofContainer d' = ofContainer d) : Prepared done q d' := by
  constructor <;> intro hlt <;> rw [heq]
  · exact h.callsPerMonth hlt
  · exact h.statsAccount hlt
  · exact h.statsFreemin hlt
  · exact h.statsPackage hlt
  · exact h.statsTrunkSettings hlt
  · exact h.statsNNPPackageMinute hlt

/-- All six sections done: the queries are those of partition 0. -/
theorem Prepared.eq_ofContainer {q : SaveQueries} {d : DataBillingContainer}
    (h : Prepared 6 q d) : q = ofContainer d := by
  exact SaveQueries.ext (h.callsPerMonth (by omega)) (h.statsAccount (by omega))
    (h.statsFreemin (by omega)) (h.statsPackage (by omega)) (h.statsTrunkSettings (by omega))
    (h.statsNNPPackageMinute (by omega))

end SaveQueries

/-- Where the save thread is. -/
inductive Saver where
  | idle
  | preparing (done : Nat) (queries : SaveQueries)
  | committed

/-- Partition 0 is in the database but still queued. -/
def Saver.written : Saver → Bool
  | committed => true
  | _ => false

/-- Steps of the save thread. -/
inductive SaveAct where
  | start
  | prepare
  | commit
  | fail
  | remove

/-- The container, the database and the save thread. -/
structure BillingSys where
  data : DataBillingContainer
  db : CallsDb
  saver : Saver

def BillingSys.saveStep (s : BillingSys) : SaveAct → Option BillingSys
  | .start =>
      match s.saver with
      | .idle => s.data.saveStart.map fun d => { s with data := d, saver := .preparing 0 .empty }
      | _ => none
  | .prepare =>
      match s.saver with
      | .preparing done q =>
          if done < 6 then some { s with saver := .preparing (done + 1) (q.prepare s.data done) }
          else none
      | _ => none
  | .commit =>
      match s.saver with
      | .preparing done q =>
          if done = 6 then some { s with db := q.execute s.db, saver := .committed } else none
      | _ => none
  | .fail =>
      match s.saver with
      | .preparing _ _ => some { s with saver := .idle }
      | _ => none
  | .remove =>
      match s.saver with
      | .committed => some { s with data := s.data.removePartitionAfterSave, saver := .idle }
      | _ => none

/-- Everything a step of the save thread can do. -/
theorem BillingSys.saveStep_cases {s s' : BillingSys} {a : SaveAct}
    (h : s.saveStep a = some s') :
    (∃ d, a = .start ∧ s.saver = .idle ∧ s.data.saveStart = some d ∧
      s' = { s with data := d, saver := .preparing 0 .empty }) ∨
    (∃ done q, a = .prepare ∧ s.saver = .preparing done q ∧ done < 6 ∧
      s' = { s with saver := .preparing (done + 1) (q.prepare s.data done) }) ∨
    (∃ q, a = .commit ∧ s.saver = .preparing 6 q ∧
      s' = { s with db := q.execute s.db, saver := .committed }) ∨
    (∃ done q, a = .fail ∧ s.saver = .preparing done q ∧ s' = { s with saver := .idle }) ∨
    (a = .remove ∧ s.saver = .committed ∧
      s' = { s with data := s.data.removePartitionAfterSave, saver := .idle }) := by
  obtain ⟨data, db, saver⟩ := s
  cases a <;> cases saver <;>
    simp only [saveStep, reduceCtorEq, Option.map_eq_some_iff, Option.some.injEq] at h
  case start.idle =>
    obtain ⟨d, hd, rfl⟩ := h
    exact Or.inl ⟨d, rfl, rfl, hd, rfl⟩
  case prepare.preparing done q =>
    split at h
    case isTrue hdone =>
      rw [Option.some.injEq] at h
      exact Or.inr (Or.inl ⟨done, q, rfl, rfl, hdone, h.symm⟩)
    case isFalse => exact absurd h (by simp)
  case commit.preparing done q =>
    split at h
    case isTrue hdone =>
      rw [Option.some.injEq] at h
      subst hdone
      exact Or.inr (Or.inr (Or.inl ⟨q, rfl, rfl, h.symm⟩))
    case isFalse => exact absurd h (by simp)
  case fail.preparing done q =>
    exact Or.inr (Or.inr (Or.inr (Or.inl ⟨done, q, rfl, rfl, h.symm⟩)))
  case remove.committed => exact Or.inr (Or.inr (Or.inr (Or.inr ⟨rfl, rfl, h.symm⟩)))

/-- Lookups of the usage managers, which may create a row. -/
inductive Lookup where
  | freemin (callInfo : CallInfo)
  | package (callInfo : CallInfo) (account : Client) (servicePackage : ServicePackage)
      (tariffPackage : TariffPackage)
  | trunkSettings (connectTime : Int) (account : Client) (settings : ServiceTrunkSettings)
  | nnpPackageMinute (connectTime : Int) (minute : NNPPackageMinute)
      (light : NNPAccountTariffLight)

def DataBillingContainer.lookup (d : DataBillingContainer) : Lookup → DataBillingContainer
  | .freemin callInfo =>
      { d with statsFreemin := (StatsFreeminManager.getCurrent d.statsFreemin callInfo).2 }
  | .package callInfo account servicePackage tariffPackage =>
      { d with
        statsPackage := (StatsPackageManager.getCurrent d.statsPackage callInfo account
          servicePackage tariffPackage).2 }
  | .trunkSettings connectTime account settings =>
      { d with
        statsTrunkSettings := (StatsTrunkSettingsManager.getCurrent d.statsTrunkSettings
          connectTime account settings).2 }
  | .nnpPackageMinute connectTime minute light =>
      { d with
        statsNNPPackageMinute := (StatsNNPPackageMinuteManager.getCurrent
          d.statsNNPPackageMinute connectTime minute light).2 }

namespace DataBillingContainer

variable {d : DataBillingContainer} {n : Nat}

theorem Aligned.lookup (h : d.Aligned n) (l : Lookup) : (d.lookup l).Aligned n := by
  cases l with
  | freemin callInfo =>
      exact { h with
        statsFreemin :=
          (UsageManager.getCurrent_writes _ _ _ _).length_parts.trans h.statsFreemin }
  | package callInfo account servicePackage tariffPackage =>
      exact { h with
        statsPackage :=
          (UsageManager.getCurrent_writes _ _ _ _).length_parts.trans h.statsPackage }
  | trunkSettings connectTime account settings =>
      exact { h with
        statsTrunkSettings :=
          (UsageManager.getCurrent_writes _ _ _ _).length_parts.trans h.statsTrunkSettings }
  | nnpPackageMinute connectTime minute light =>
      exact { h with
        statsNNPPackageMinute :=
          (UsageManager.getCurrent_writes _ _ _ _).length_parts.trans h.statsNNPPackageMinute }

end DataBillingContainer

/-! ## Partition 0 does not change while it is being saved -/

namespace SaveQueries

variable {d : DataBillingContainer} {n : Nat}

theorem ofContainer_enqueue (h : d.Aligned n) (h2 : 2 ≤ n) (callInfo : CallInfo) :
    ofContainer (d.enqueue callInfo) = ofContainer d := by
  apply SaveQueries.ext
  case callsPerMonth =>
    simp only [ofContainer, DataBillingContainer.enqueue, CallsManager.prepareSaveQueries,
      CallsManager.add_parts, headD_modifyLast _ (show 2 ≤ d.calls.realtimeCallsParts.length by
        rw [h.calls]; exact h2)]
  case statsAccount =>
    exact (StatsAccountManager.add_writes _ _).headD_parts (by rw [h.statsAccount]; exact h2) _
  case statsFreemin =>
    exact (UsageManager.addBooked_writes _ _ _).headD_parts (by rw [h.statsFreemin]; exact h2) _
  case statsPackage =>
    exact (UsageManager.addBooked_writes _ _ _).headD_parts (by rw [h.statsPackage]; exact h2) _
  case statsTrunkSettings =>
    exact (UsageManager.addBooked_writes _ _ _).headD_parts
      (by rw [h.statsTrunkSettings]; exact h2) _
  case statsNNPPackageMinute =>
    exact (UsageManager.addBooked_writes _ _ _).headD_parts
      (by rw [h.statsNNPPackageMinute]; exact h2) _

theorem ofContainer_createNewPartition (h : d.Aligned n) (h1 : 1 ≤ n) :
    ofContainer d.createNewPartition = ofContainer d := by
  apply SaveQueries.ext
  case callsPerMonth =>
    simp only [ofContainer, DataBillingContainer.createNewPartition,
      CallsManager.prepareSaveQueries, CallsManager.createNewPartition_parts,
      headD_concat (show 1 ≤ d.calls.realtimeCallsParts.length by rw [h.calls]; exact h1)]
  case statsAccount => exact headD_concat (by rw [h.statsAccount]; exact h1) _ _
  case statsFreemin => exact headD_concat (by rw [h.statsFreemin]; exact h1) _ _
  case statsPackage => exact headD_concat (by rw [h.statsPackage]; exact h1) _ _
  case statsTrunkSettings => exact headD_concat (by rw [h.statsTrunkSettings]; exact h1) _ _
  case statsNNPPackageMinute =>
    exact headD_concat (by rw [h.statsNNPPackageMinute]; exact h1) _ _

theorem ofContainer_lookup (h : d.Aligned n) (h2 : 2 ≤ n) (l : Lookup) :
    ofContainer (d.lookup l) = ofContainer d := by
  cases l with
  | freemin callInfo =>
      refine SaveQueries.ext rfl rfl ?_ rfl rfl rfl
      exact (UsageManager.getCurrent_writes _ _ _ _).headD_parts
        (by rw [h.statsFreemin]; exact h2) _
  | package callInfo account servicePackage tariffPackage =>
      refine SaveQueries.ext rfl rfl rfl ?_ rfl rfl
      exact (UsageManager.getCurrent_writes _ _ _ _).headD_parts
        (by rw [h.statsPackage]; exact h2) _
  | trunkSettings connectTime account settings =>
      refine SaveQueries.ext rfl rfl rfl rfl ?_ rfl
      exact (UsageManager.getCurrent_writes _ _ _ _).headD_parts
        (by rw [h.statsTrunkSettings]; exact h2) _
  | nnpPackageMinute connectTime minute light =>
      refine SaveQueries.ext rfl rfl rfl rfl rfl ?_
      exact (UsageManager.getCurrent_writes _ _ _ _).headD_parts
        (by rw [h.statsNNPPackageMinute]; exact h2) _

end SaveQueries
end VoipBill
