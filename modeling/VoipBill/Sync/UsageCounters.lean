import VoipBill.Lib.Run
import VoipBill.Lib.StampedCopy
import VoipBill.Save.CallQueue

/-!
# Synchronising the usage counters

`sync` of the free-minutes, package, trunk-settings and package-minutes managers
reads the rows of the local database with a `max_call_id` above the greatest one in
the central table and writes them there.  `ThreadSyncCounters` calls it while calls
are added and saved.

The rows are stamped by `max_call_id`, so each table is an instance of
`Lib.StampedCopy`; the ids of added calls increase and partitions are written in
their order.
-/

namespace VoipBill

open Lib

/-- The usage counters of this server in the central database. -/
structure CentralCounters where
  statsFreemin : IntMap StatsFreemin
  statsPackage : IntMap StatsPackage
  statsTrunkSettings : IntMap StatsTrunkSettings
  statsNNPPackageMinute : IntMap StatsNNPPackageMinute

namespace UsageCounters

/-- `StatsFreeminManager::sync`, after a successful write. -/
def syncFreemin (db : CallsDb) (central : CentralCounters) : CentralCounters :=
  { central with
    statsFreemin := StampedCopy.sync StatsFreemin.maxCallId db.statsFreemin central.statsFreemin }

def syncPackage (db : CallsDb) (central : CentralCounters) : CentralCounters :=
  { central with
    statsPackage := StampedCopy.sync StatsPackage.maxCallId db.statsPackage central.statsPackage }

def syncTrunkSettings (db : CallsDb) (central : CentralCounters) : CentralCounters :=
  { central with
    statsTrunkSettings := StampedCopy.sync StatsTrunkSettings.maxCallId db.statsTrunkSettings
      central.statsTrunkSettings }

def syncNNPPackageMinute (db : CallsDb) (central : CentralCounters) : CentralCounters :=
  { central with
    statsNNPPackageMinute := StampedCopy.sync StatsNNPPackageMinute.maxCallId
      db.statsNNPPackageMinute central.statsNNPPackageMinute }

/-- The billing system, the central counters, and the id of the last added call. -/
structure CounterSys extends BillingSys where
  central : CentralCounters
  lastId : Int

/-- A synchronisation succeeds or fails as a whole. -/
inductive Act where
  | addCall (callInfo : CallInfo)
  | lookup (l : Lookup)
  | save (a : SaveAct)
  | syncFreemin (succeeds : Bool)
  | syncPackage (succeeds : Bool)
  | syncTrunkSettings (succeeds : Bool)
  | syncNNPPackageMinute (succeeds : Bool)

/-- A synchronisation step. -/
def synced (s : CounterSys) (succeeds : Bool)
    (sync : CallsDb → CentralCounters → CentralCounters) : CounterSys :=
  if succeeds then { s with central := sync s.db s.central } else s

def step (s : CounterSys) : Act → Option CounterSys
  | .addCall callInfo =>
      -- calls are added with increasing ids
      if s.lastId < callInfo.call.id then
        some { s with data := s.data.addCall callInfo, lastId := callInfo.call.id }
      else none
  | .lookup l => some { s with data := s.data.lookup l }
  | .save a => (s.toBillingSys.saveStep a).map fun sys => { s with toBillingSys := sys }
  | .syncFreemin succeeds => some (synced s succeeds syncFreemin)
  | .syncPackage succeeds => some (synced s succeeds syncPackage)
  | .syncTrunkSettings succeeds => some (synced s succeeds syncTrunkSettings)
  | .syncNNPPackageMinute succeeds => some (synced s succeeds syncNNPPackageMinute)

/-! ## One table -/

/-- A table, its queue and its copy: stored rows are in step with the copy, and the
stamps of the queued partitions ascend up to the last added call. -/
def TableInv {ρ : Type} (stamp : ρ → Int) (l : Ledger ρ) (written : Bool) (lastId : Int)
    (db central : IntMap ρ) : Prop :=
  ∃ lo, StampedCopy.InStep stamp lo db central ∧
    StampedCopy.Ascends stamp lo (l.pending written).parts lastId

namespace TableInv

variable {ρ : Type} {stamp : ρ → Int} {l l' : Ledger ρ} {m : UsageManager ρ} {written : Bool}
  {lastId id : Int} {db central : IntMap ρ}

/-- A row is put: a new one, or one stamped with the id of the call that is added. -/
theorem put (h : TableInv stamp l written lastId db central)
    (hlt : written.toNat < l.parts.length) (hle : lastId ≤ id) (k : Int) {r : ρ}
    (hr : stamp r = 0 ∨ lastId < stamp r ∧ stamp r ≤ id) :
    TableInv stamp (l.put k r) written id db central := by
  obtain ⟨lo, hstep, hasc⟩ := h
  refine ⟨lo, hstep, ?_⟩
  rw [Ledger.pending_put l k r hlt]
  exact hasc.modifyLast hle hr

theorem mono (h : TableInv stamp l written lastId db central) (hle : lastId ≤ id) :
    TableInv stamp l written id db central := by
  obtain ⟨lo, hstep, hasc⟩ := h
  exact ⟨lo, hstep, hasc.mono hle⟩

theorem openPart (h : TableInv stamp l written lastId db central)
    (hlt : written.toNat < l.parts.length) :
    TableInv stamp l.openPart written lastId db central := by
  obtain ⟨lo, hstep, hasc⟩ := h
  refine ⟨lo, hstep, ?_⟩
  rw [Ledger.pending_openPart l hlt]
  exact hasc.openPart

/-- A call is booked on a row, or on none. -/
theorem addBooked (h : TableInv stamp m.toLedger written lastId db central)
    (hlt : written.toNat < m.parts.length) (hid : lastId < id) (booked : Option Int)
    {update : ρ → ρ} (hupdate : ∀ r, stamp (update r) = id) :
    TableInv stamp (m.addBooked booked update).toLedger written id db central := by
  rcases m.addBooked_cases booked update with ⟨-, heq⟩ | ⟨k, stats, -, -, heq⟩
  · rw [heq]
    exact h.mono hid.le
  · rw [heq]
    refine h.put hlt hid.le k (Or.inr ?_)
    rw [hupdate]
    exact ⟨hid, le_rfl⟩

/-- A row is looked up, and created without a stamp if there is none. -/
theorem getCurrent (h : TableInv stamp m.toLedger written lastId db central)
    (hlt : written.toNat < m.parts.length) (k : Int) (isCurrent : ρ → Bool)
    {createStats : Int → ρ} (hcreate : ∀ id, stamp (createStats id) = 0) :
    TableInv stamp (m.getCurrent k isCurrent createStats).2.toLedger written lastId db
      central := by
  rcases m.getCurrent_cases k isCurrent createStats with ⟨_, _, _, _, heq⟩ | heq
  · rw [heq]
    exact h
  · rw [heq]
    exact h.put hlt le_rfl _ (Or.inl (hcreate _))

/-- Partition 0 is committed. -/
theorem commit (h : TableInv stamp l false lastId db central) (hne : l.parts ≠ []) :
    TableInv stamp l true lastId (IntMap.upsert db (l.parts.headD ∅)) central := by
  obtain ⟨lo, hstep, hasc⟩ := h
  obtain ⟨part, rest, hparts⟩ := List.exists_cons_of_ne_nil hne
  rw [Ledger.pending_false, hparts] at hasc
  obtain ⟨mid, hstep', hasc'⟩ := hstep.write hasc
  refine ⟨mid, ?_, ?_⟩
  · rw [hparts]
    exact hstep'
  · rw [Ledger.pending_true, Ledger.dropPart, hparts]
    exact hasc'

/-- The committed partition is removed. -/
theorem remove (h : TableInv stamp l true lastId db central) :
    TableInv stamp l.dropPart false lastId db central := h

theorem sync (h : TableInv stamp l written lastId db central) :
    TableInv stamp l written lastId db (StampedCopy.sync stamp db central) := by
  obtain ⟨lo, hstep, hasc⟩ := h
  exact ⟨lo, hstep.sync.1, hasc⟩

end TableInv

/-! ## The four tables -/

/-- Nothing is queued, and the central tables are in step with the stored ones: when
both are empty, and whenever an earlier run was stopped. -/
structure Start (s : CounterSys) : Prop extends s.toBillingSys.Idle where
  freeminInStep : StampedCopy.InStep StatsFreemin.maxCallId s.lastId s.db.statsFreemin
    s.central.statsFreemin
  packageInStep : StampedCopy.InStep StatsPackage.maxCallId s.lastId s.db.statsPackage
    s.central.statsPackage
  trunkSettingsInStep : StampedCopy.InStep StatsTrunkSettings.maxCallId s.lastId
    s.db.statsTrunkSettings s.central.statsTrunkSettings
  nnpPackageMinuteInStep : StampedCopy.InStep StatsNNPPackageMinute.maxCallId s.lastId
    s.db.statsNNPPackageMinute s.central.statsNNPPackageMinute

structure Inv (s : CounterSys) (n : Nat) : Prop extends SaveInv s.toBillingSys n where
  statsFreemin : TableInv StatsFreemin.maxCallId s.data.statsFreemin.toLedger s.saver.written
    s.lastId s.db.statsFreemin s.central.statsFreemin
  statsPackage : TableInv StatsPackage.maxCallId s.data.statsPackage.toLedger s.saver.written
    s.lastId s.db.statsPackage s.central.statsPackage
  statsTrunkSettings : TableInv StatsTrunkSettings.maxCallId
    s.data.statsTrunkSettings.toLedger s.saver.written s.lastId s.db.statsTrunkSettings
    s.central.statsTrunkSettings
  statsNNPPackageMinute : TableInv StatsNNPPackageMinute.maxCallId
    s.data.statsNNPPackageMinute.toLedger s.saver.written s.lastId s.db.statsNNPPackageMinute
    s.central.statsNNPPackageMinute

variable {s s' : CounterSys} {n : Nat}

theorem Inv.init (h : Start s) : Inv s 1 := by
  have hinit : ∀ {ρ : Type} {stamp : ρ → Int} {l : Ledger ρ} {db central : IntMap ρ},
      l.parts = [∅] → StampedCopy.InStep stamp s.lastId db central →
      TableInv stamp l s.saver.written s.lastId db central := by
    intro ρ stamp l db central hparts hstep
    refine ⟨s.lastId, hstep, ?_⟩
    rw [h.saver, show Saver.idle.written = false from rfl, Ledger.pending_false, hparts]
    exact ⟨s.lastId, le_rfl, StampedCopy.stampedIn_empty _ _, le_rfl⟩
  exact {
    toSaveInv := SaveInv.init h.toIdle
    statsFreemin := hinit h.statsFreemin h.freeminInStep
    statsPackage := hinit h.statsPackage h.packageInStep
    statsTrunkSettings := hinit h.statsTrunkSettings h.trunkSettingsInStep
    statsNNPPackageMinute := hinit h.statsNNPPackageMinute h.nnpPackageMinuteInStep }

/-- A call is booked on rows that get its id as their stamp. -/
theorem Inv.enqueue (h : Inv s n) {callInfo : CallInfo} (hid : s.lastId < callInfo.call.id) :
    Inv { s with data := s.data.enqueue callInfo, lastId := callInfo.call.id } n := by
  have hlt := h.written_lt
  constructor
  case toSaveInv => exact h.toSaveInv.enqueue callInfo
  case statsFreemin =>
    exact h.statsFreemin.addBooked (by rw [h.aligned.statsFreemin]; exact hlt) hid _
      (fun _ => rfl)
  case statsPackage =>
    exact h.statsPackage.addBooked (by rw [h.aligned.statsPackage]; exact hlt) hid _
      (fun _ => rfl)
  case statsTrunkSettings =>
    exact h.statsTrunkSettings.addBooked (by rw [h.aligned.statsTrunkSettings]; exact hlt) hid _
      (fun _ => rfl)
  case statsNNPPackageMinute =>
    exact h.statsNNPPackageMinute.addBooked (by rw [h.aligned.statsNNPPackageMinute]; exact hlt)
      hid _ (fun _ => rfl)

theorem Inv.createNewPartition (h : Inv s n) :
    Inv { s with data := s.data.createNewPartition } (n + 1) := by
  have hlt := h.written_lt
  constructor
  case toSaveInv => exact h.toSaveInv.createNewPartition
  case statsFreemin =>
    exact h.statsFreemin.openPart (by rw [h.aligned.statsFreemin]; exact hlt)
  case statsPackage =>
    exact h.statsPackage.openPart (by rw [h.aligned.statsPackage]; exact hlt)
  case statsTrunkSettings =>
    exact h.statsTrunkSettings.openPart (by rw [h.aligned.statsTrunkSettings]; exact hlt)
  case statsNNPPackageMinute =>
    exact h.statsNNPPackageMinute.openPart (by rw [h.aligned.statsNNPPackageMinute]; exact hlt)

theorem maxCallId_createStatsPackage (callInfo : CallInfo) (timezoneOffset : Int)
    (servicePackage : ServicePackage) (tariffPackage : TariffPackage) (id : Int) :
    (StatsPackageManager.createStatsPackage callInfo timezoneOffset servicePackage tariffPackage
      id).maxCallId = 0 := by
  unfold StatsPackageManager.createStatsPackage
  split
  · rfl
  · rfl

/-- Created rows have no stamp yet. -/
theorem Inv.lookup (h : Inv s n) (l : Lookup) : Inv { s with data := s.data.lookup l } n := by
  have hlt := h.written_lt
  have hsave := h.toSaveInv.lookup l
  cases l with
  | freemin callInfo =>
      exact { h with
        toSaveInv := hsave
        statsFreemin := h.statsFreemin.getCurrent (by rw [h.aligned.statsFreemin]; exact hlt) _ _
          (fun _ => rfl) }
  | package callInfo account servicePackage tariffPackage =>
      exact { h with
        toSaveInv := hsave
        statsPackage := h.statsPackage.getCurrent (by rw [h.aligned.statsPackage]; exact hlt) _ _
          (maxCallId_createStatsPackage _ _ _ _) }
  | trunkSettings connectTime account settings =>
      exact { h with
        toSaveInv := hsave
        statsTrunkSettings := h.statsTrunkSettings.getCurrent
          (by rw [h.aligned.statsTrunkSettings]; exact hlt) _ _ (fun _ => rfl) }
  | nnpPackageMinute connectTime minute light =>
      exact { h with
        toSaveInv := hsave
        statsNNPPackageMinute := h.statsNNPPackageMinute.getCurrent
          (by rw [h.aligned.statsNNPPackageMinute]; exact hlt) _ _ (fun _ => rfl) }

/-! ## Steps of the save thread -/

/-- Only the position of the save thread changes, outside of a commit. -/
theorem Inv.setSaver (h : Inv s n) (hwritten : s.saver.written = false) {saver : Saver}
    (hsaver : saver.written = false)
    (hprepared : ∀ done q, saver = .preparing done q → 2 ≤ n ∧ q.Prepared done s.data) :
    Inv { s with saver := saver } n := by
  have hsame : saver.written = s.saver.written := by rw [hwritten, hsaver]
  constructor
  case toSaveInv => exact h.toSaveInv.setSaver hwritten hsaver hprepared
  case statsFreemin => exact hsame ▸ h.statsFreemin
  case statsPackage => exact hsame ▸ h.statsPackage
  case statsTrunkSettings => exact hsame ▸ h.statsTrunkSettings
  case statsNNPPackageMinute => exact hsame ▸ h.statsNNPPackageMinute

theorem Inv.commit (h : Inv s n) {q : SaveQueries} (hsaver : s.saver = .preparing 6 q) :
    Inv { s with db := q.execute s.db, saver := .committed } n := by
  obtain ⟨h2, rfl⟩ := h.queries_eq hsaver
  have hwritten : s.saver.written = false := by rw [hsaver]; rfl
  have htable : ∀ {ρ : Type} {stamp : ρ → Int} {l : Ledger ρ} {db central : IntMap ρ},
      l.parts.length = n → TableInv stamp l s.saver.written s.lastId db central →
      TableInv stamp l true s.lastId (IntMap.upsert db (l.parts.headD ∅)) central := by
    intro ρ stamp l db central hlength ht
    rw [hwritten] at ht
    exact ht.commit (List.ne_nil_of_length_pos (by omega))
  constructor
  case toSaveInv => exact h.toSaveInv.commit hsaver
  case statsFreemin => exact htable h.aligned.statsFreemin h.statsFreemin
  case statsPackage => exact htable h.aligned.statsPackage h.statsPackage
  case statsTrunkSettings => exact htable h.aligned.statsTrunkSettings h.statsTrunkSettings
  case statsNNPPackageMinute =>
    exact htable h.aligned.statsNNPPackageMinute h.statsNNPPackageMinute

theorem Inv.remove (h : Inv s n) (hsaver : s.saver = .committed) :
    Inv { s with data := s.data.removePartitionAfterSave, saver := .idle } (n - 1) := by
  have htable : ∀ {ρ : Type} {stamp : ρ → Int} {l : Ledger ρ} {db central : IntMap ρ},
      TableInv stamp l s.saver.written s.lastId db central →
      TableInv stamp l.dropPart false s.lastId db central := by
    intro ρ stamp l db central ht
    rw [hsaver] at ht
    exact TableInv.remove ht
  constructor
  case toSaveInv => exact h.toSaveInv.remove hsaver
  case statsFreemin => exact htable h.statsFreemin
  case statsPackage => exact htable h.statsPackage
  case statsTrunkSettings => exact htable h.statsTrunkSettings
  case statsNNPPackageMinute => exact htable h.statsNNPPackageMinute

theorem Inv.saveStep (h : Inv s n) {a : SaveAct} {sys : BillingSys}
    (hsys : s.toBillingSys.saveStep a = some sys) :
    ∃ n', Inv { s with toBillingSys := sys } n' := by
  obtain ⟨saver, hwritten, hsaver, hprepared, rfl⟩ | ⟨saver, hwritten, hsaver, hprepared, rfl⟩ |
    ⟨q, hsaver, rfl⟩ | ⟨hsaver, rfl⟩ := h.toSaveInv.saveStep_cases hsys
  · exact ⟨n, h.setSaver hwritten hsaver hprepared⟩
  · exact ⟨n + 1, h.createNewPartition.setSaver hwritten hsaver hprepared⟩
  · exact ⟨n, h.commit hsaver⟩
  · exact ⟨n - 1, h.remove hsaver⟩

/-! ## Steps and runs -/

theorem Inv.addCall (h : Inv s n) {callInfo : CallInfo}
    (hs : step s (.addCall callInfo) = some s') : ∃ n', Inv s' n' := by
  rw [step] at hs
  split at hs
  case isTrue hid =>
    rw [Option.some.injEq] at hs
    have henqueue := h.enqueue hid
    rcases s.data.addCall_cases callInfo with heq | heq
    · exact ⟨n, by rw [← hs, heq]; exact henqueue⟩
    · exact ⟨n + 1, by rw [← hs, heq]; exact henqueue.createNewPartition⟩
  case isFalse => exact absurd hs (by simp)

theorem Inv.syncFreemin (h : Inv s n) :
    Inv { s with central := syncFreemin s.db s.central } n :=
  { h with statsFreemin := h.statsFreemin.sync }

theorem Inv.syncPackage (h : Inv s n) :
    Inv { s with central := syncPackage s.db s.central } n :=
  { h with statsPackage := h.statsPackage.sync }

theorem Inv.syncTrunkSettings (h : Inv s n) :
    Inv { s with central := syncTrunkSettings s.db s.central } n :=
  { h with statsTrunkSettings := h.statsTrunkSettings.sync }

theorem Inv.syncNNPPackageMinute (h : Inv s n) :
    Inv { s with central := syncNNPPackageMinute s.db s.central } n :=
  { h with statsNNPPackageMinute := h.statsNNPPackageMinute.sync }

theorem Inv.synced (h : Inv s n) (succeeds : Bool)
    {sync : CallsDb → CentralCounters → CentralCounters}
    (hsync : Inv { s with central := sync s.db s.central } n) : Inv (synced s succeeds sync) n := by
  cases succeeds with
  | true => exact hsync
  | false => exact h

theorem step_inv {a : Act} (h : ∃ n, Inv s n) (hs : step s a = some s') : ∃ n, Inv s' n := by
  obtain ⟨n, h⟩ := h
  cases a with
  | addCall callInfo => exact h.addCall hs
  | lookup l =>
      rw [step, Option.some.injEq] at hs
      exact ⟨n, hs ▸ h.lookup l⟩
  | save a =>
      rw [step, Option.map_eq_some_iff] at hs
      obtain ⟨sys, hsys, rfl⟩ := hs
      exact h.saveStep hsys
  | syncFreemin succeeds =>
      rw [step, Option.some.injEq] at hs
      exact ⟨n, hs ▸ h.synced succeeds h.syncFreemin⟩
  | syncPackage succeeds =>
      rw [step, Option.some.injEq] at hs
      exact ⟨n, hs ▸ h.synced succeeds h.syncPackage⟩
  | syncTrunkSettings succeeds =>
      rw [step, Option.some.injEq] at hs
      exact ⟨n, hs ▸ h.synced succeeds h.syncTrunkSettings⟩
  | syncNNPPackageMinute succeeds =>
      rw [step, Option.some.injEq] at hs
      exact ⟨n, hs ▸ h.synced succeeds h.syncNNPPackageMinute⟩

theorem run_inv {t : CounterSys} {as : List Act} (hs : Start s) (hrun : run step s as = some t) :
    ∃ n, Inv t n :=
  run_invariant (fun _ _ _ h hstep => step_inv h hstep) ⟨1, Inv.init hs⟩ hrun

/-- The copy holds every stored counter with a stored call, as it is stored. -/
def Complete {ρ : Type} (stamp : ρ → Int) (stored copied : IntMap ρ) : Prop :=
  ∀ (id : Int) (r : ρ), stored[id]? = some r → stamp r ≠ 0 → copied[id]? = some r

theorem TableInv.complete {ρ : Type} {stamp : ρ → Int} {l : Ledger ρ} {written : Bool}
    {lastId : Int} {db central : IntMap ρ} (h : TableInv stamp l written lastId db central) :
    Complete stamp db (StampedCopy.sync stamp db central) := by
  obtain ⟨lo, hstep, -⟩ := h
  exact hstep.sync.2

/-- **The usage counters are synchronised.**  In every run, right after a successful
`sync` of a manager, the central rows are the stored ones for all counters with a
stored call. -/
theorem usage_counters_synchronised {s t : CounterSys} {as : List Act} (hs : Start s)
    (hrun : run step s as = some t) :
    (∀ u, step t (.syncFreemin true) = some u →
      Complete StatsFreemin.maxCallId u.db.statsFreemin u.central.statsFreemin) ∧
    (∀ u, step t (.syncPackage true) = some u →
      Complete StatsPackage.maxCallId u.db.statsPackage u.central.statsPackage) ∧
    (∀ u, step t (.syncTrunkSettings true) = some u →
      Complete StatsTrunkSettings.maxCallId u.db.statsTrunkSettings
        u.central.statsTrunkSettings) ∧
    ∀ u, step t (.syncNNPPackageMinute true) = some u →
      Complete StatsNNPPackageMinute.maxCallId u.db.statsNNPPackageMinute
        u.central.statsNNPPackageMinute := by
  obtain ⟨n, h⟩ := run_inv hs hrun
  refine ⟨?_, ?_, ?_, ?_⟩
  · rintro u ⟨rfl⟩
    exact h.statsFreemin.complete
  · rintro u ⟨rfl⟩
    exact h.statsPackage.complete
  · rintro u ⟨rfl⟩
    exact h.statsTrunkSettings.complete
  · rintro u ⟨rfl⟩
    exact h.statsNNPPackageMinute.complete

/-- No rows anywhere, and no call added yet. -/
def start : CounterSys where
  data := DataBillingContainer.empty
  db := ⟨∅, ∅, ∅, ∅, ∅, ∅⟩
  saver := .idle
  central := ⟨∅, ∅, ∅, ∅⟩
  lastId := 0

/-- A save that commits. -/
def saved : List Act :=
  [.save .start, .save .prepare, .save .prepare, .save .prepare, .save .prepare, .save .prepare,
    .save .prepare, .save .commit, .save .remove]

/-- Two calls on one row of free minutes, each saved; the first is synchronised. -/
def twoFreeminCalls : List Act :=
  let call (id : Int) : CallInfo :=
    { call := { id := id, numberServiceId := 5, servicePackageId := 1, servicePackageStatsId := 1,
                packageTime := 60 } }
  [.lookup (.freemin (call 1)), .addCall (call 1)] ++ saved ++ [.syncFreemin true] ++
    [.addCall (call 2)] ++ saved

theorem second_freemin_call_synchronised :
    ∃ t u, run step start twoFreeminCalls = some t ∧ step t (.syncFreemin true) = some u ∧
      t.central.statsFreemin[(1 : Int)]?.map StatsFreemin.usedSeconds = some 60 ∧
      u.central.statsFreemin[(1 : Int)]?.map StatsFreemin.usedSeconds = some 120 := by
  have hstart : Start start := by
    constructor
    case toIdle => constructor <;> rfl
    all_goals exact StampedCopy.inStep_empty le_rfl
  have hstored : (run step start twoFreeminCalls).map (fun t =>
      (t.central.statsFreemin[(1 : Int)]?.map StatsFreemin.usedSeconds,
        t.db.statsFreemin[(1 : Int)]?)) =
      some (some 60, some { id := 1, serviceNumberId := 5, monthDt := 0, usedSeconds := 120,
                            minCallId := 1, maxCallId := 2 }) := by
    decide +kernel
  obtain ⟨t, hrun, ht⟩ := Option.map_eq_some_iff.mp hstored
  obtain ⟨hbefore, hrow⟩ := Prod.ext_iff.mp ht
  have hsynced := (usage_counters_synchronised hstart hrun).1 _ rfl 1 _ hrow (by decide)
  exact ⟨t, _, hrun, rfl, hbefore, by rw [hsynced]; rfl⟩

end UsageCounters
end VoipBill
