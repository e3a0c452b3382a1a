import VoipBill.Lib.Run
import VoipBill.Save.CallQueue

/-!
# Committed counters are the fold of the committed calls

The billing threads add calls and look up counters while the save thread works.
A ghost log remembers every added call with the counters right after it.  The
run theorem says that the database always holds a prefix of that log: the calls
of the prefix, and for every counter row the prefix touches the value the row
had after its last call.

The invariant `Inv` cuts the log at the partition boundaries; each of its five
`Tracks` fields is the library's account of one write-behind table.
-/

namespace VoipBill

open Lib

namespace CommittedCounters

/-- Added calls, each with the counters right after it. -/
abbrev CallLog : Type := List (CallInfo × Counters)

/-- The log as one counter table sees it. -/
def rowLog {ρ : Type} (table : Counters → IntMap ρ) (log : CallLog) : RowLog CallInfo ρ :=
  log.map fun e => (e.1, table e.2)

def loggedCalls (log : CallLog) : List Call := log.map fun e => e.1.call

structure LoggedSys extends BillingSys where
  log : CallLog

inductive Act where
  | addCall (callInfo : CallInfo)
  | lookup (l : Lookup)
  | save (a : SaveAct)

def step (s : LoggedSys) : Act → Option LoggedSys
  | .addCall callInfo =>
      let d := s.data.addCall callInfo
      some { s with data := d, log := s.log ++ [(callInfo, d.counters)] }
  | .lookup l => some { s with data := s.data.lookup l }
  | .save a => (s.toBillingSys.saveStep a).map fun sys => { s with toBillingSys := sys }

/-- The state `loadAll` leaves: rows are loaded, nothing is queued. -/
structure Loaded (s : LoggedSys) : Prop extends s.toBillingSys.Idle where
  freeminIds : s.data.statsFreemin.IdsBounded
  packageIds : s.data.statsPackage.IdsBounded
  trunkSettingsIds : s.data.statsTrunkSettings.IdsBounded
  nnpPackageMinuteIds : s.data.statsNNPPackageMinute.IdsBounded
  log : s.log = []

/-- The database holds the first `n` logged calls over the tables `db₀`, and the others are
queued. -/
structure CommittedPrefix (db₀ : CallsDb) (s : LoggedSys) (n : Nat) : Prop where
  le : n ≤ s.log.length
  queued : loggedCalls (s.log.drop n) = s.queuedCalls
  calls : ∀ month, s.db.callsOf month =
    db₀.callsOf month ++ CallsManager.callsOfMonth (loggedCalls (s.log.take n)) month
  statsAccount : Holds StatsAccountManager.bookedRow
    (rowLog Counters.statsAccount (s.log.take n)) s.db.statsAccount
  statsFreemin : Holds StatsFreeminManager.bookedRow
    (rowLog Counters.statsFreemin (s.log.take n)) s.db.statsFreemin
  statsPackage : Holds StatsPackageManager.bookedRow
    (rowLog Counters.statsPackage (s.log.take n)) s.db.statsPackage
  statsTrunkSettings : Holds StatsTrunkSettingsManager.bookedRow
    (rowLog Counters.statsTrunkSettings (s.log.take n)) s.db.statsTrunkSettings
  statsNNPPackageMinute : Holds StatsNNPPackageMinuteManager.bookedRow
    (rowLog Counters.statsNNPPackageMinute (s.log.take n)) s.db.statsNNPPackageMinute

/-! ## The invariant -/

/-- Numbers of calls in the partitions that are not written yet. -/
def pendingSizes (s : BillingSys) : List Nat :=
  (s.data.calls.realtimeCallsParts.drop s.saver.written.toNat).map List.length

/-- One write-behind table follows the log. -/
def TableInv {ρ : Type} (key : CallInfo → Option Int) (table : Counters → IntMap ρ)
    (s : LoggedSys) (base : Nat) (l : Ledger ρ) (db : IntMap ρ) : Prop :=
  Tracks key (rowLog table s.log) base (pendingSizes s.toBillingSys)
    (l.pending s.saver.written) db

structure Inv (db₀ : CallsDb) (s : LoggedSys) (n base : Nat) : Prop
    extends SaveInv s.toBillingSys n where
  base_le : base ≤ s.log.length
  queued : loggedCalls (s.log.drop base) = s.queuedCalls
  stored : ∀ month, s.db.callsOf month =
    db₀.callsOf month ++ CallsManager.callsOfMonth (loggedCalls (s.log.take base)) month
  freeminIds : s.data.statsFreemin.IdsBounded
  packageIds : s.data.statsPackage.IdsBounded
  trunkSettingsIds : s.data.statsTrunkSettings.IdsBounded
  nnpPackageMinuteIds : s.data.statsNNPPackageMinute.IdsBounded
  statsAccount : TableInv StatsAccountManager.bookedRow Counters.statsAccount s base
    s.data.statsAccount.toLedger s.db.statsAccount
  statsFreemin : TableInv StatsFreeminManager.bookedRow Counters.statsFreemin s base
    s.data.statsFreemin.toLedger s.db.statsFreemin
  statsPackage : TableInv StatsPackageManager.bookedRow Counters.statsPackage s base
    s.data.statsPackage.toLedger s.db.statsPackage
  statsTrunkSettings : TableInv StatsTrunkSettingsManager.bookedRow
    Counters.statsTrunkSettings s base s.data.statsTrunkSettings.toLedger
    s.db.statsTrunkSettings
  statsNNPPackageMinute : TableInv StatsNNPPackageMinuteManager.bookedRow
    Counters.statsNNPPackageMinute s base s.data.statsNNPPackageMinute.toLedger
    s.db.statsNNPPackageMinute

variable {db₀ : CallsDb} {s : LoggedSys} {n base : Nat}

theorem Inv.init (h : Loaded s) : Inv s.db s 1 0 := by
  have hinit : ∀ {ρ : Type} (key : CallInfo → Option Int) (table : Counters → IntMap ρ)
      (l : Ledger ρ) (t : IntMap ρ), l.parts = [∅] → TableInv key table s 0 l t := by
    intro ρ key table l t hl
    obtain ⟨rows, parts⟩ := l
    simp only at hl
    subst hl
    have := Tracks.init key rows t
    simpa [TableInv, pendingSizes, Saver.written, h.calls, h.saver, h.log, rowLog,
      Ledger.pending] using this
  exact {
    toSaveInv := SaveInv.init h.toIdle
    base_le := by simp
    queued := by simp [BillingSys.queuedCalls, h.calls, h.saver, h.log, loggedCalls, Saver.written]
    stored := by intro month; simp [loggedCalls, CallsManager.callsOfMonth]
    freeminIds := h.freeminIds
    packageIds := h.packageIds
    trunkSettingsIds := h.trunkSettingsIds
    nnpPackageMinuteIds := h.nnpPackageMinuteIds
    statsAccount := hinit _ _ _ _ h.statsAccount
    statsFreemin := hinit _ _ _ _ h.statsFreemin
    statsPackage := hinit _ _ _ _ h.statsPackage
    statsTrunkSettings := hinit _ _ _ _ h.statsTrunkSettings
    statsNNPPackageMinute := hinit _ _ _ _ h.statsNNPPackageMinute }

theorem length_pendingSizes (h : Inv db₀ s n base) :
    (pendingSizes s.toBillingSys).length = n - s.saver.written.toNat := by
  simp [pendingSizes, h.aligned.calls]

/-- The log is used up by what is stored and what is queued. -/
theorem sum_pendingSizes (h : Inv db₀ s n base) :
    base + (pendingSizes s.toBillingSys).sum = s.log.length := by
  have hlength := congrArg List.length h.queued
  have hle := h.base_le
  simp only [loggedCalls, BillingSys.queuedCalls, List.length_map, List.length_drop,
    List.length_flatten] at hlength
  simp only [pendingSizes]
  omega

/-! ## A call is queued -/

/-- The system after a call is queued and logged, before a full partition is closed. -/
def enqueue (s : LoggedSys) (callInfo : CallInfo) : LoggedSys :=
  { s with
    data := s.data.enqueue callInfo
    log := s.log ++ [(callInfo, (s.data.enqueue callInfo).counters)] }

theorem pendingSizes_enqueue (h : Inv db₀ s n base) (callInfo : CallInfo) :
    pendingSizes (enqueue s callInfo).toBillingSys =
      modifyLast (· + 1) (pendingSizes s.toBillingSys) := by
  simp only [pendingSizes, enqueue, DataBillingContainer.enqueue, CallsManager.add_parts]
  rw [drop_modifyLast _ h.written_lt_length, map_modifyLast _ _ (· + 1) (by simp)]

theorem TableInv.enqueue {ρ : Type} {key : CallInfo → Option Int} {table : Counters → IntMap ρ}
    {l l' : Ledger ρ} {db : IntMap ρ} (h : TableInv key table s base l db)
    (hinv : Inv db₀ s n base) (hl : l.parts.length = n) (callInfo : CallInfo)
    (hrows : table (s.data.enqueue callInfo).counters = l'.rows)
    (hstep : (l' = l ∧ ∀ k, key callInfo = some k → l.rows[k]? = none) ∨
      ∃ k r, key callInfo = some k ∧ l' = l.put k r) :
    TableInv key table (enqueue s callInfo) base l' db := by
  have hsizes := length_pendingSizes hinv
  have hsum := sum_pendingSizes hinv
  have hlt := hinv.written_lt
  have hlog : rowLog table (CommittedCounters.enqueue s callInfo).log =
      rowLog table s.log ++ [(callInfo, l'.rows)] := by
    simp [rowLog, CommittedCounters.enqueue, hrows]
  rw [TableInv, hlog, pendingSizes_enqueue hinv]
  exact h.pending_add (by omega) (by omega) (by simpa [rowLog] using hsum) hstep

/-- Booking a call on a usage table is a step of its ledger. -/
theorem addBooked_step {ρ : Type} (m : UsageManager ρ) (booked : Option Int) (update : ρ → ρ) :
    ((m.addBooked booked update).toLedger = m.toLedger ∧
      ∀ k, booked = some k → m.rows[k]? = none) ∨
    ∃ k r, booked = some k ∧ (m.addBooked booked update).toLedger = m.put k r := by
  rcases m.addBooked_cases booked update with ⟨hnone, heq⟩ | ⟨id, stats, hid, -, heq⟩
  · exact Or.inl ⟨by rw [heq], hnone⟩
  · exact Or.inr ⟨id, update stats, hid, by rw [heq, UsageManager.putRow]⟩

theorem Inv.enqueue (h : Inv db₀ s n base) (callInfo : CallInfo) :
    Inv db₀ (enqueue s callInfo) n base := by
  constructor
  case toSaveInv => exact h.toSaveInv.enqueue callInfo
  case base_le =>
    have hle := h.base_le
    simp only [CommittedCounters.enqueue, List.length_append]
    omega
  case queued =>
    simp only [CommittedCounters.enqueue]
    rw [BillingSys.queuedCalls_enqueue h.toSaveInv, ← h.queued,
      List.drop_append_of_le_length h.base_le]
    simp [loggedCalls]
  case stored =>
    intro month
    simp only [CommittedCounters.enqueue, List.take_append_of_le_length h.base_le]
    exact h.stored month
  case freeminIds => exact UsageManager.addBooked_idsBounded h.freeminIds _ _
  case packageIds => exact UsageManager.addBooked_idsBounded h.packageIds _ _
  case trunkSettingsIds => exact UsageManager.addBooked_idsBounded h.trunkSettingsIds _ _
  case nnpPackageMinuteIds => exact UsageManager.addBooked_idsBounded h.nnpPackageMinuteIds _ _
  case statsAccount =>
    refine h.statsAccount.enqueue h h.aligned.statsAccount callInfo rfl ?_
    rcases s.data.statsAccount.add_cases callInfo with ⟨hnone, heq⟩ | ⟨account, -, hsome, heq⟩
    · exact Or.inl ⟨congrArg _ heq, by simp [hnone]⟩
    · exact Or.inr ⟨_, _, hsome, heq⟩
  case statsFreemin =>
    exact h.statsFreemin.enqueue h h.aligned.statsFreemin callInfo rfl (addBooked_step _ _ _)
  case statsPackage =>
    exact h.statsPackage.enqueue h h.aligned.statsPackage callInfo rfl (addBooked_step _ _ _)
  case statsTrunkSettings =>
    exact h.statsTrunkSettings.enqueue h h.aligned.statsTrunkSettings callInfo rfl
      (addBooked_step _ _ _)
  case statsNNPPackageMinute =>
    exact h.statsNNPPackageMinute.enqueue h h.aligned.statsNNPPackageMinute callInfo rfl
      (addBooked_step _ _ _)

/-! ## A partition is opened -/

theorem pendingSizes_createNewPartition (h : Inv db₀ s n base) :
    pendingSizes { s.toBillingSys with data := s.data.createNewPartition } =
      pendingSizes s.toBillingSys ++ [0] := by
  simp only [pendingSizes, DataBillingContainer.createNewPartition,
    CallsManager.createNewPartition_parts]
  rw [List.drop_append_of_le_length h.written_lt_length.le]
  simp

theorem TableInv.createNewPartition {ρ : Type} {key : CallInfo → Option Int}
    {table : Counters → IntMap ρ} {l : Ledger ρ} {db : IntMap ρ}
    (h : TableInv key table s base l db) (hinv : Inv db₀ s n base) (hl : l.parts.length = n) :
    TableInv key table { s with data := s.data.createNewPartition } base l.openPart db := by
  have hsizes := length_pendingSizes hinv
  have hsum := sum_pendingSizes hinv
  have hlt := hinv.written_lt
  rw [TableInv, pendingSizes_createNewPartition hinv]
  exact h.pending_openPart (by omega) (by omega) (by simpa [rowLog] using hsum)

theorem Inv.createNewPartition (h : Inv db₀ s n base) :
    Inv db₀ { s with data := s.data.createNewPartition } (n + 1) base := by
  constructor
  case toSaveInv => exact h.toSaveInv.createNewPartition
  case base_le => exact h.base_le
  case queued => exact h.queued.trans (BillingSys.queuedCalls_createNewPartition h.toSaveInv).symm
  case stored => exact h.stored
  case freeminIds => exact h.freeminIds
  case packageIds => exact h.packageIds
  case trunkSettingsIds => exact h.trunkSettingsIds
  case nnpPackageMinuteIds => exact h.nnpPackageMinuteIds
  case statsAccount => exact h.statsAccount.createNewPartition h h.aligned.statsAccount
  case statsFreemin => exact h.statsFreemin.createNewPartition h h.aligned.statsFreemin
  case statsPackage => exact h.statsPackage.createNewPartition h h.aligned.statsPackage
  case statsTrunkSettings =>
    exact h.statsTrunkSettings.createNewPartition h h.aligned.statsTrunkSettings
  case statsNNPPackageMinute =>
    exact h.statsNNPPackageMinute.createNewPartition h h.aligned.statsNNPPackageMinute

/-! ## A counter is looked up -/

theorem TableInv.getCurrent {ρ : Type} {key : CallInfo → Option Int}
    {table : Counters → IntMap ρ} {m : UsageManager ρ} {db : IntMap ρ}
    (h : TableInv key table s base m.toLedger db) (hinv : Inv db₀ s n base)
    (hl : m.parts.length = n) (hids : m.IdsBounded) (k : Int) (isCurrent : ρ → Bool)
    (createStats : Int → ρ) :
    TableInv key table s base (m.getCurrent k isCurrent createStats).2.toLedger db := by
  rcases m.getCurrent_cases k isCurrent createStats with ⟨_, _, _, _, heq⟩ | heq
  · rw [heq]
    exact h
  · rw [heq]
    have hlt := hinv.written_lt
    exact h.pending_create (by omega) _ hids.next

theorem Inv.lookup (h : Inv db₀ s n base) (l : Lookup) :
    Inv db₀ { s with data := s.data.lookup l } n base := by
  have hsave := h.toSaveInv.lookup l
  cases l with
  | freemin callInfo =>
      exact { h with
        toSaveInv := hsave
        freeminIds := UsageManager.getCurrent_idsBounded h.freeminIds _ _ _
        statsFreemin :=
          h.statsFreemin.getCurrent h h.aligned.statsFreemin h.freeminIds _ _ _ }
  | package callInfo account servicePackage tariffPackage =>
      exact { h with
        toSaveInv := hsave
        packageIds := UsageManager.getCurrent_idsBounded h.packageIds _ _ _
        statsPackage :=
          h.statsPackage.getCurrent h h.aligned.statsPackage h.packageIds _ _ _ }
  | trunkSettings connectTime account settings =>
      exact { h with
        toSaveInv := hsave
        trunkSettingsIds := UsageManager.getCurrent_idsBounded h.trunkSettingsIds _ _ _
        statsTrunkSettings := h.statsTrunkSettings.getCurrent h h.aligned.statsTrunkSettings
          h.trunkSettingsIds _ _ _ }
  | nnpPackageMinute connectTime minute light =>
      exact { h with
        toSaveInv := hsave
        nnpPackageMinuteIds := UsageManager.getCurrent_idsBounded h.nnpPackageMinuteIds _ _ _
        statsNNPPackageMinute := h.statsNNPPackageMinute.getCurrent h
          h.aligned.statsNNPPackageMinute h.nnpPackageMinuteIds _ _ _ }

/-! ## Steps of the save thread -/

/-- Only the position of the save thread changes, outside of a commit. -/
theorem Inv.setSaver (h : Inv db₀ s n base) (hwritten : s.saver.written = false) {saver : Saver}
    (hsaver : saver.written = false)
    (hprepared : ∀ done q, saver = .preparing done q → 2 ≤ n ∧ q.Prepared done s.data) :
    Inv db₀ { s with saver := saver } n base := by
  have hsame : saver.written = s.saver.written := by rw [hwritten, hsaver]
  have htable : ∀ {ρ : Type} {key : CallInfo → Option Int} {table : Counters → IntMap ρ}
      {l : Ledger ρ} {db : IntMap ρ}, TableInv key table s base l db →
      TableInv key table { s with saver := saver } base l db := by
    intro ρ key table l db ht
    simpa only [TableInv, pendingSizes, hsame] using ht
  exact { h with
    toSaveInv := h.toSaveInv.setSaver hwritten hsaver hprepared
    queued := h.queued.trans (BillingSys.queuedCalls_setSaver hsame.symm).symm
    statsAccount := htable h.statsAccount
    statsFreemin := htable h.statsFreemin
    statsPackage := htable h.statsPackage
    statsTrunkSettings := htable h.statsTrunkSettings
    statsNNPPackageMinute := htable h.statsNNPPackageMinute }

theorem head?_eq_headD {ρ : Type} {parts : List (IntMap ρ)} (h : 1 ≤ parts.length) :
    parts.head? = some (parts.headD ∅) := by
  match parts, h with
  | part :: rest, _ => rfl

/-- The system after a commit. -/
def commit (s : LoggedSys) (q : SaveQueries) : LoggedSys :=
  { s with db := q.execute s.db, saver := .committed }

/-- The system after partition 0 is removed. -/
def remove (s : LoggedSys) : LoggedSys :=
  { s with data := s.data.removePartitionAfterSave, saver := .idle }

/-- **Commit.**  The calls of partition 0 and the rows queued with them are in
the database. -/
theorem Inv.commit (h : Inv db₀ s n base) {q : SaveQueries} (hsaver : s.saver = .preparing 6 q) :
    ∃ size, Inv db₀ (commit s q) n (base + size) := by
  obtain ⟨h2, rfl⟩ := h.queries_eq hsaver
  have hwritten : s.saver.written = false := by rw [hsaver]; rfl
  obtain ⟨part, rest, hparts⟩ : ∃ part rest,
      s.data.calls.realtimeCallsParts = part :: rest := by
    have hlength := h.aligned.calls
    cases hcalls : s.data.calls.realtimeCallsParts with
    | nil => rw [hcalls, List.length_nil] at hlength; omega
    | cons part rest => exact ⟨part, rest, rfl⟩
  have hqueued := h.queued.trans (BillingSys.queuedCalls_commit hwritten
    ((SaveQueries.ofContainer s.data).execute s.db))
  rw [hparts, List.headD_cons] at hqueued
  -- the first calls of the queue are those of partition 0
  have htake : loggedCalls ((s.log.drop base).take part.length) = part := by
    have := congrArg (List.take part.length) hqueued
    simpa [loggedCalls, List.map_take] using this
  have hdrop : loggedCalls (s.log.drop (base + part.length)) =
      (CommittedCounters.commit s (SaveQueries.ofContainer s.data)).queuedCalls := by
    have := congrArg (List.drop part.length) hqueued
    simpa [loggedCalls, CommittedCounters.commit, List.map_drop, List.drop_drop] using this
  have hlength : part.length ≤ (s.log.drop base).length := by
    have := congrArg List.length hqueued
    simp only [loggedCalls, List.length_map, List.length_append] at this
    omega
  have htable : ∀ {ρ : Type} {key : CallInfo → Option Int} {table : Counters → IntMap ρ}
      {l : Ledger ρ} {db : IntMap ρ}, l.parts.length = n → TableInv key table s base l db →
      TableInv key table (CommittedCounters.commit s (SaveQueries.ofContainer s.data))
        (base + part.length) l (IntMap.upsert db (l.parts.headD ∅)) := by
    intro ρ key table l db hl ht
    simp only [TableInv, pendingSizes, hwritten, hparts, Bool.toNat_false, List.drop_zero,
      List.map_cons] at ht
    have := ht.write (head?_eq_headD (by omega))
    simpa [TableInv, pendingSizes, CommittedCounters.commit, Saver.written, hparts] using this
  refine ⟨part.length, ?_⟩
  constructor
  case toSaveInv => exact h.toSaveInv.commit hsaver
  case base_le =>
    have hle := h.base_le
    rw [List.length_drop] at hlength
    simp only [CommittedCounters.commit]
    omega
  case queued => exact hdrop
  case stored =>
    intro month
    have hsplit : s.log.take (base + part.length) =
        s.log.take base ++ (s.log.drop base).take part.length := List.take_add
    have hextends : s.db.Extends ((SaveQueries.ofContainer s.data).execute s.db)
        (s.data.calls.realtimeCallsParts.headD []) := rfl
    rw [hparts, List.headD_cons] at hextends
    simp only [CommittedCounters.commit]
    rw [hextends.callsOf, h.stored, hsplit, List.append_assoc]
    simp only [loggedCalls, List.map_append, CallsManager.callsOfMonth_append] at htake ⊢
    rw [htake]
  case freeminIds => exact h.freeminIds
  case packageIds => exact h.packageIds
  case trunkSettingsIds => exact h.trunkSettingsIds
  case nnpPackageMinuteIds => exact h.nnpPackageMinuteIds
  case statsAccount => exact htable h.aligned.statsAccount h.statsAccount
  case statsFreemin => exact htable h.aligned.statsFreemin h.statsFreemin
  case statsPackage => exact htable h.aligned.statsPackage h.statsPackage
  case statsTrunkSettings => exact htable h.aligned.statsTrunkSettings h.statsTrunkSettings
  case statsNNPPackageMinute =>
    exact htable h.aligned.statsNNPPackageMinute h.statsNNPPackageMinute

/-- Removing partition 0 after the commit changes nothing that is pending. -/
theorem Inv.remove (h : Inv db₀ s n base) (hsaver : s.saver = .committed) :
    Inv db₀ (remove s) (n - 1) base := by
  have hwritten : s.saver.written = true := by rw [hsaver]; rfl
  have hparts : s.data.removePartitionAfterSave.calls.realtimeCallsParts =
      s.data.calls.realtimeCallsParts.drop 1 := by
    simp [DataBillingContainer.removePartitionAfterSave]
  have htable : ∀ {ρ : Type} {key : CallInfo → Option Int} {table : Counters → IntMap ρ}
      {l : Ledger ρ} {db : IntMap ρ}, TableInv key table s base l db →
      TableInv key table (CommittedCounters.remove s) base l.dropPart db := by
    intro ρ key table l db ht
    simp only [TableInv, pendingSizes, hwritten, Bool.toNat_true, Ledger.pending_true] at ht
    simpa only [TableInv, pendingSizes, CommittedCounters.remove, hparts, Saver.written,
      Bool.toNat_false, List.drop_zero, Ledger.pending_false] using ht
  constructor
  case toSaveInv => exact h.toSaveInv.remove hsaver
  case base_le => exact h.base_le
  case queued => exact h.queued.trans (BillingSys.queuedCalls_remove hsaver).symm
  case stored => exact h.stored
  case freeminIds => exact h.freeminIds
  case packageIds => exact h.packageIds
  case trunkSettingsIds => exact h.trunkSettingsIds
  case nnpPackageMinuteIds => exact h.nnpPackageMinuteIds
  case statsAccount => exact htable h.statsAccount
  case statsFreemin => exact htable h.statsFreemin
  case statsPackage => exact htable h.statsPackage
  case statsTrunkSettings => exact htable h.statsTrunkSettings
  case statsNNPPackageMinute => exact htable h.statsNNPPackageMinute

/-! ## Steps and runs -/

theorem Inv.addCall (h : Inv db₀ s n base) (callInfo : CallInfo) {s' : LoggedSys}
    (hs : step s (.addCall callInfo) = some s') : ∃ n', Inv db₀ s' n' base := by
  rw [step, Option.some.injEq] at hs
  have henqueue := h.enqueue callInfo
  rcases s.data.addCall_cases callInfo with heq | heq
  · exact ⟨n, by rw [← hs, heq]; exact henqueue⟩
  · exact ⟨n + 1, by rw [← hs, heq]; exact henqueue.createNewPartition⟩

theorem Inv.saveStep (h : Inv db₀ s n base) {a : SaveAct} {s' : LoggedSys}
    (hs : step s (.save a) = some s') : ∃ n' base', Inv db₀ s' n' base' := by
  rw [step, Option.map_eq_some_iff] at hs
  obtain ⟨sys, hsys, rfl⟩ := hs
  obtain ⟨saver, hwritten, hsaver, hprepared, rfl⟩ | ⟨saver, hwritten, hsaver, hprepared, rfl⟩ |
    ⟨q, hsaver, rfl⟩ | ⟨hsaver, rfl⟩ := h.toSaveInv.saveStep_cases hsys
  · exact ⟨n, base, h.setSaver hwritten hsaver hprepared⟩
  · exact ⟨n + 1, base, h.createNewPartition.setSaver hwritten hsaver hprepared⟩
  · obtain ⟨size, hcommit⟩ := h.commit hsaver
    exact ⟨n, base + size, hcommit⟩
  · exact ⟨n - 1, base, h.remove hsaver⟩

theorem step_inv {a : Act} {s' : LoggedSys} (h : ∃ n base, Inv db₀ s n base)
    (hs : step s a = some s') : ∃ n base, Inv db₀ s' n base := by
  obtain ⟨n, base, h⟩ := h
  cases a with
  | addCall callInfo =>
      obtain ⟨n', h'⟩ := h.addCall callInfo hs
      exact ⟨n', base, h'⟩
  | lookup l =>
      rw [step, Option.some.injEq] at hs
      exact ⟨n, base, hs ▸ h.lookup l⟩
  | save a => exact h.saveStep hs

theorem run_inv {t : LoggedSys} {as : List Act} (hs : Loaded s) (hrun : run step s as = some t) :
    ∃ n base, Inv s.db t n base :=
  run_invariant (fun _ _ _ h hstep => step_inv h hstep) ⟨1, 0, Inv.init hs⟩ hrun

theorem Inv.committedPrefix (h : Inv db₀ s n base) : CommittedPrefix db₀ s base := by
  have hlt := h.written_lt
  have hholds : ∀ {ρ : Type} {key : CallInfo → Option Int} {table : Counters → IntMap ρ}
      {l : Ledger ρ} {db : IntMap ρ}, l.parts.length = n → TableInv key table s base l db →
      Holds key (rowLog table (s.log.take base)) db := by
    intro ρ key table l db hl ht
    have hlength := l.length_parts_pending s.saver.written
    have hparts : (l.pending s.saver.written).parts ≠ [] :=
      List.ne_nil_of_length_pos (by omega)
    simpa only [rowLog, List.map_take] using ht.holds hparts
  exact {
    le := h.base_le
    queued := h.queued
    calls := h.stored
    statsAccount := hholds h.aligned.statsAccount h.statsAccount
    statsFreemin := hholds h.aligned.statsFreemin h.statsFreemin
    statsPackage := hholds h.aligned.statsPackage h.statsPackage
    statsTrunkSettings := hholds h.aligned.statsTrunkSettings h.statsTrunkSettings
    statsNNPPackageMinute := hholds h.aligned.statsNNPPackageMinute h.statsNNPPackageMinute }

/-! ## A failed save -/

def Act.isSave : Act → Bool
  | .save _ => true
  | _ => false

/-- While queries are prepared, the save thread is invisible to the others. -/
theorem run_without_preparing {mid : List Act} {s u : LoggedSys}
    (hmid : ∀ a ∈ mid, a.isSave = false ∨ a = .save .prepare)
    (hrun : run step s mid = some u) :
    run step { s with saver := .idle } (mid.filter fun a => !a.isSave) =
      some { u with saver := .idle } := by
  induction mid generalizing s with
  | nil =>
      rw [run_nil, Option.some.injEq] at hrun
      rw [List.filter_nil, run_nil, hrun]
  | cons a mid ih =>
      obtain ⟨s', hstep, hrest⟩ := run_cons_eq_some hrun
      have htail := ih (fun b hb => hmid b (List.mem_cons_of_mem a hb)) hrest
      cases a with
      | addCall callInfo =>
          rw [step, Option.some.injEq] at hstep
          subst hstep
          exact htail
      | lookup l =>
          rw [step, Option.some.injEq] at hstep
          subst hstep
          exact htail
      | save b =>
          have hb : b = .prepare := by
            simpa [Act.isSave] using hmid (.save b) List.mem_cons_self
          subst hb
          rw [step, Option.map_eq_some_iff] at hstep
          obtain ⟨sys, hsys, rfl⟩ := hstep
          obtain ⟨_, h, _⟩ | ⟨done, q, -, -, -, rfl⟩ | ⟨_, h, _⟩ | ⟨_, _, h, _⟩ | ⟨h, _⟩ :=
            BillingSys.saveStep_cases hsys
          · exact absurd h (by simp)
          · simpa [Act.isSave] using htail
          · exact absurd h (by simp)
          · exact absurd h (by simp)
          · exact absurd h (by simp)

/-- A save that fails leaves what the other threads would have left without it,
up to the partition it may have opened at its start. -/
theorem run_failed_save {mid : List Act} {s u : LoggedSys}
    (hmid : ∀ a ∈ mid, a.isSave = false ∨ a = .save .prepare)
    (hrun : run step s (.save .start :: mid ++ [.save .fail]) = some u) :
    ∃ d, (d = s.data ∨ d = s.data.createNewPartition) ∧
      run step { s with data := d } (mid.filter fun a => !a.isSave) = some u := by
  rw [List.cons_append] at hrun
  obtain ⟨s₁, hstart, hrest⟩ := run_cons_eq_some hrun
  rw [step, Option.map_eq_some_iff] at hstart
  obtain ⟨sys, hsys, rfl⟩ := hstart
  obtain ⟨d, -, hidle, hd, rfl⟩ | ⟨_, _, h, _⟩ | ⟨_, h, _⟩ | ⟨_, _, h, _⟩ | ⟨h, _⟩ :=
    BillingSys.saveStep_cases hsys
  case inl =>
    rw [run_append, Option.bind_eq_some_iff] at hrest
    obtain ⟨s₂, hmidrun, hfail⟩ := hrest
    obtain ⟨s₃, hstep, hnil⟩ := run_cons_eq_some hfail
    rw [run_nil, Option.some.injEq] at hnil
    subst hnil
    rw [step, Option.map_eq_some_iff] at hstep
    obtain ⟨sys, hsys', rfl⟩ := hstep
    obtain ⟨_, h, _⟩ | ⟨_, _, h, _⟩ | ⟨_, h, _⟩ | ⟨done, q, -, -, rfl⟩ | ⟨h, _⟩ :=
      BillingSys.saveStep_cases hsys'
    case inr.inr.inr.inl =>
      have hopened : d = s.data ∨ d = s.data.createNewPartition := by
        obtain ⟨-, ⟨h, -⟩ | ⟨h, -⟩⟩ := DataBillingContainer.saveStart_cases hd
        · exact Or.inl h
        · exact Or.inr h
      refine ⟨d, hopened, ?_⟩
      have hquiet := run_without_preparing hmid hmidrun
      obtain ⟨⟨data, db, saver⟩, log⟩ := s
      simp only at hidle
      subst hidle
      exact hquiet
    all_goals exact absurd h (by simp)
  all_goals exact absurd h (by simp)

/-- **Committed counters.**  In every state reached from a loaded one, the
database holds a prefix of the added calls, in order, and every counter row the
prefix touches as it was right after the prefix, and the other calls are queued in
their order; all six queues have the same number of partitions, at least one; and a
save that fails only may have opened a partition. -/
theorem committed_counters_of_run {s t : LoggedSys} {as : List Act} (hs : Loaded s)
    (hrun : run step s as = some t) :
    (∃ n, CommittedPrefix s.db t n) ∧
      (∃ n, 1 ≤ n ∧ t.data.Aligned n) ∧
      ∀ mid u, (∀ a ∈ mid, a.isSave = false ∨ a = .save .prepare) →
        run step t (.save .start :: mid ++ [.save .fail]) = some u →
        ∃ d, (d = t.data ∨ d = t.data.createNewPartition) ∧
          run step { t with data := d } (mid.filter fun a => !a.isSave) = some u := by
  obtain ⟨n, base, h⟩ := run_inv hs hrun
  refine ⟨⟨base, h.committedPrefix⟩, ⟨n, ?_, h.aligned⟩, fun mid u hmid => run_failed_save hmid⟩
  have hlt := h.written_lt
  omega

/-- A container without rows over an empty database. -/
def start : LoggedSys :=
  ⟨⟨DataBillingContainer.empty, ⟨∅, ∅, ∅, ∅, ∅, ∅⟩, .idle⟩, []⟩

/-- Two calls of account 7; the first is saved while the second is added. -/
def twoCalls : List Act :=
  let call (id : Int) : CallInfo :=
    { call := { id := id, accountId := 7, cost := -2 }, account := some { id := 7 } }
  [.addCall (call 1), .save .start, .save .prepare, .addCall (call 2), .save .prepare,
    .save .prepare, .save .prepare, .save .prepare, .save .prepare, .save .commit]

theorem committed_counters_of_twoCalls :
    ∃ t, run step start twoCalls = some t ∧
      t.db.statsAccount[(7 : Int)]?.map StatsAccount.sum = some (-2) ∧
      ∃ n, CommittedPrefix start.db t n := by
  have hloaded : Loaded start := by
    constructor
    case toIdle => constructor <;> rfl
    case freeminIds => exact fun _ _ => rfl
    case packageIds => exact fun _ _ => rfl
    case trunkSettingsIds => exact fun _ _ => rfl
    case nnpPackageMinuteIds => exact fun _ _ => rfl
    all_goals rfl
  have hsum : (run step start twoCalls).bind
      (fun t => t.db.statsAccount[(7 : Int)]?.map StatsAccount.sum) = some (-2) := by
    decide +kernel
  obtain ⟨t, hrun, ht⟩ := Option.bind_eq_some_iff.mp hsum
  exact ⟨t, hrun, ht, (committed_counters_of_run hloaded hrun).1⟩

end CommittedCounters
end VoipBill
