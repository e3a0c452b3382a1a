import VoipBill.Lib.Run
import VoipBill.Model.ClientLockCounter

/-!
# Synchronising client locks

`ThreadSyncLocks::save_client_locks` copies lock records to the central
database while `push` replaces them.  It lists the clients to write, reads their
records one by one, writes them, and then clears the request for a total
synchronisation and the marks it has seen.

A removal is only conveyed by the request.  If a record is removed while a total
synchronisation runs, the request is cleared although the removal was not
written; and a listed record that is removed before it is read comes back, as
reading creates it.  `central_eq_last_push` says that these are the only ways to
lose a lock or an unlock.
-/

namespace VoipBill

open Lib

namespace ClientLocks

/-- Where `save_client_locks` is. -/
inductive Phase where
  | idle
  | reading (marker : Nat) (total : Bool) (changes : List Int) (rows : IntMap LockFlags)
  | clearing (marker : Nat)
  | fixing (marker : Nat)

/-- The counter, the rows of the region in the central database, the sync thread
and the records of the last push. -/
structure LockSys where
  clientLock : ClientLockCounter
  central : IntMap LockFlags
  phase : Phase
  last : IntMap ClientLockObj

inductive Act where
  | push (clientLocks : IntMap ClientLockObj) (junk : Int)
  | getChanges
  | get
  | write
  | fail
  | clear
  | fix

def step (s : LockSys) : Act → Option LockSys
  | .push clientLocks junk =>
      some { s with clientLock := s.clientLock.push clientLocks junk, last := clientLocks }
  | .getChanges =>
      match s.phase with
      | .idle =>
          let (marker, changes, needTotalSync) := s.clientLock.getChanges
          some { s with phase := .reading marker needTotalSync changes ∅ }
      | _ => none
  | .get =>
      match s.phase with
      | .reading marker total (accountId :: changes) rows =>
          let (value, clientLock) := s.clientLock.get accountId
          some { s with
            clientLock := clientLock
            phase := .reading marker total changes (rows.insert accountId value.toLockFlags) }
      | _ => none
  | .write =>
      match s.phase with
      | .reading marker true [] rows => some { s with central := rows, phase := .clearing marker }
      | .reading marker false [] rows =>
          -- without a row nothing is written and no mark is cleared
          if rows.isEmpty then some { s with phase := .idle }
          else some { s with central := IntMap.upsert s.central rows, phase := .fixing marker }
      | _ => none
  | .fail =>
      match s.phase with
      | .reading _ _ [] _ => some { s with phase := .idle }
      | _ => none
  | .clear =>
      match s.phase with
      | .clearing marker =>
          some { s with
            clientLock := { s.clientLock with needTotalSync := false }
            phase := .fixing marker }
      | _ => none
  | .fix =>
      match s.phase with
      | .fixing marker =>
          some { s with clientLock := s.clientLock.fixChanges marker, phase := .idle }
      | _ => none

/-- Everything a step can do. -/
theorem step_cases {s s' : LockSys} {a : Act} (h : step s a = some s') :
    (∃ clientLocks junk, a = .push clientLocks junk ∧
      s' = { s with clientLock := s.clientLock.push clientLocks junk, last := clientLocks }) ∨
    (a = .getChanges ∧ s.phase = .idle ∧
      s' = { s with
        phase := .reading s.clientLock.marker s.clientLock.needTotalSync
          s.clientLock.getChanges.2.1 ∅ }) ∨
    (∃ marker total accountId changes rows, a = .get ∧
      s.phase = .reading marker total (accountId :: changes) rows ∧
      s' = { s with
        clientLock := (s.clientLock.get accountId).2
        phase := .reading marker total changes
          (rows.insert accountId (s.clientLock.get accountId).1.toLockFlags) }) ∨
    (∃ marker rows, a = .write ∧ s.phase = .reading marker true [] rows ∧
      s' = { s with central := rows, phase := .clearing marker }) ∨
    (∃ marker rows, a = .write ∧ s.phase = .reading marker false [] rows ∧
      (rows = ∅ ∧ s' = { s with phase := .idle } ∨
        s' = { s with central := IntMap.upsert s.central rows, phase := .fixing marker })) ∨
    (∃ marker total rows, a = .fail ∧ s.phase = .reading marker total [] rows ∧
      s' = { s with phase := .idle }) ∨
    (∃ marker, a = .clear ∧ s.phase = .clearing marker ∧
      s' = { s with
        clientLock := { s.clientLock with needTotalSync := false }
        phase := .fixing marker }) ∨
    (∃ marker, a = .fix ∧ s.phase = .fixing marker ∧
      s' = { s with clientLock := s.clientLock.fixChanges marker, phase := .idle }) := by
  obtain ⟨c, central, phase, last⟩ := s
  cases a with
  | push clientLocks junk =>
      rw [step, Option.some.injEq] at h
      exact Or.inl ⟨clientLocks, junk, rfl, h.symm⟩
  | getChanges =>
      right; left
      simp only [step] at h
      split at h
      case h_1 => exact ⟨rfl, rfl, (Option.some.inj h).symm⟩
      case h_2 => exact absurd h (by simp)
  | get =>
      right; right; left
      simp only [step] at h
      split at h
      case h_1 => exact ⟨_, _, _, _, _, rfl, rfl, (Option.some.inj h).symm⟩
      case h_2 => exact absurd h (by simp)
  | write =>
      simp only [step] at h
      split at h
      case h_1 =>
        right; right; right; left
        exact ⟨_, _, rfl, rfl, (Option.some.inj h).symm⟩
      case h_2 =>
        right; right; right; right; left
        refine ⟨_, _, rfl, rfl, ?_⟩
        split at h
        -- without changes nothing is written, and the marker stays
        case isTrue hempty =>
          exact Or.inl ⟨Std.ExtTreeMap.isEmpty_iff.mp hempty, (Option.some.inj h).symm⟩
        case isFalse => exact Or.inr (Option.some.inj h).symm
      case h_3 => exact absurd h (by simp)
  | fail =>
      right; right; right; right; right; left
      simp only [step] at h
      split at h
      case h_1 => exact ⟨_, _, _, rfl, rfl, (Option.some.inj h).symm⟩
      case h_2 => exact absurd h (by simp)
  | clear =>
      right; right; right; right; right; right; left
      simp only [step] at h
      split at h
      case h_1 => exact ⟨_, rfl, rfl, (Option.some.inj h).symm⟩
      case h_2 => exact absurd h (by simp)
  | fix =>
      right; right; right; right; right; right; right
      simp only [step] at h
      split at h
      case h_1 => exact ⟨_, rfl, rfl, (Option.some.inj h).symm⟩
      case h_2 => exact absurd h (by simp)

/-- A push removes no record while a total synchronisation has not cleared its
request, and none that a running synchronisation still has to read. -/
def PushOk (s : LockSys) : Act → Prop
  | .push clientLocks _ =>
      match s.phase with
      | .reading _ true _ _ | .clearing _ =>
          ∀ k : Int, s.clientLock.counter[k]? ≠ none → clientLocks[k]? ≠ none
      | .reading _ false changes _ => ∀ k ∈ changes, clientLocks[k]? ≠ none
      | .idle | .fixing _ => True
  | _ => True

/-- The process has just started; the database may hold anything. -/
structure Started (s : LockSys) : Prop where
  clientLock : s.clientLock = .empty
  phase : s.phase = .idle
  last : s.last = ∅

/-! ## The invariant -/

/-- The database is right up to the clients marked after `marker`. -/
structure SyncedSince (central : IntMap LockFlags) (c : ClientLockCounter) (marker : Nat) :
    Prop where
  present : ∀ k, c.Marked marker k → c.flags k ≠ none
  rows : ∀ k, ¬ c.Marked marker k → central[k]? = c.flags k

/-- `rows` will be right up to the clients still to be read and those marked
after `marker`. -/
def ReadSince (rows : IntMap LockFlags) (changes : List Int) (c : ClientLockCounter)
    (marker : Nat) : Prop :=
  ∀ k, ¬ c.Marked marker k → k ∉ changes → rows[k]? = c.flags k

/-- What holds at each position of the sync thread. -/
def PhaseInv (c : ClientLockCounter) (central : IntMap LockFlags) : Phase → Prop
  | .idle => c.needTotalSync = true ∨ SyncedSince central c 0
  | .reading marker true changes rows =>
      marker ≤ c.marker ∧ (∀ k ∈ changes, c.flags k ≠ none) ∧ c.needTotalSync = true ∧
        (∀ k, c.Marked marker k → c.flags k ≠ none) ∧ ReadSince rows changes c marker
  | .reading marker false changes rows =>
      marker ≤ c.marker ∧ (∀ k ∈ changes, c.flags k ≠ none) ∧
        (c.needTotalSync = true ∨
          SyncedSince central c 0 ∧ ReadSince (IntMap.upsert central rows) changes c marker)
  | .clearing marker =>
      marker ≤ c.marker ∧ c.needTotalSync = true ∧ SyncedSince central c marker
  | .fixing marker =>
      marker ≤ c.marker ∧ (c.needTotalSync = true ∨ SyncedSince central c marker)

structure Inv (s : LockSys) : Prop where
  records : ∀ k, s.clientLock.flags k = s.last[k]?.map ClientLockObj.toLockFlags
  bounded : s.clientLock.MarksBounded
  phase : PhaseInv s.clientLock s.central s.phase

theorem Inv.init {s : LockSys} (h : Started s) : Inv s where
  records := by
    intro k
    simp [h.clientLock, h.last, ClientLockCounter.empty, ClientLockCounter.flags]
  bounded := by
    intro k m hm
    simp [h.clientLock, ClientLockCounter.empty] at hm
  phase := by
    rw [h.clientLock, h.phase]
    exact Or.inl rfl

/-! ## A push -/

open ClientLockCounter in
/-- A push without a removal neither unmarks a client nor changes one silently. -/
theorem not_marked_of_advances {c c' : ClientLockCounter} (h : Advances c c') {marker : Nat}
    (hmarker : marker ≤ c.marker) {k : Int} (hk : ¬ c'.Marked marker k) :
    ¬ c.Marked marker k ∧ c'.flags k = c.flags k := by
  rcases h.marked k with ⟨hchanges, hflags⟩ | ⟨⟨m, hm, hlt⟩, -⟩
  · refine ⟨fun ⟨m, hm, hlt⟩ => hk ⟨m, hchanges.trans hm, hlt⟩, hflags⟩
  · exact absurd ⟨m, hm, hmarker.trans_lt hlt⟩ hk

open ClientLockCounter in
theorem present_of_advances {c c' : ClientLockCounter} (h : Advances c c') {marker : Nat}
    (hpresent : ∀ k, c.Marked marker k → c.flags k ≠ none) (k : Int)
    (hk : c'.Marked marker k) : c'.flags k ≠ none := by
  rcases h.marked k with ⟨hchanges, hflags⟩ | ⟨-, hsome⟩
  · obtain ⟨m, hm, hlt⟩ := hk
    rw [hflags]
    exact hpresent k ⟨m, hchanges.symm.trans hm, hlt⟩
  · exact hsome

open ClientLockCounter in
theorem SyncedSince.advances {central : IntMap LockFlags} {c c' : ClientLockCounter} {marker : Nat}
    (h : SyncedSince central c marker) (hadvances : Advances c c') (hmarker : marker ≤ c.marker) :
    SyncedSince central c' marker where
  present := present_of_advances hadvances h.present
  rows := by
    intro k hk
    obtain ⟨hk', hflags⟩ := not_marked_of_advances hadvances hmarker hk
    rw [hflags]
    exact h.rows k hk'

open ClientLockCounter in
theorem ReadSince.advances {rows : IntMap LockFlags} {changes : List Int}
    {c c' : ClientLockCounter} {marker : Nat} (h : ReadSince rows changes c marker)
    (hadvances : Advances c c') (hmarker : marker ≤ c.marker) :
    ReadSince rows changes c' marker := by
  intro k hk hchanges
  obtain ⟨hk', hflags⟩ := not_marked_of_advances hadvances hmarker hk
  rw [hflags]
  exact h k hk' hchanges

open ClientLockCounter in
/-- A push that removes nothing keeps what holds at every position. -/
theorem PhaseInv.advances {c c' : ClientLockCounter} {central : IntMap LockFlags} {phase : Phase}
    (h : PhaseInv c central phase) (hadvances : Advances c c') : PhaseInv c' central phase := by
  have htotal := hadvances.needTotalSync
  have hle := hadvances.marker_le
  match phase, h with
  | .idle, h =>
      exact h.imp (htotal.trans ·) (·.advances hadvances (Nat.zero_le _))
  | .reading marker true changes rows, ⟨hmarker, hchanges, hneed, hpresent, hread⟩ =>
      exact ⟨hmarker.trans hle, fun k hk => hadvances.present k (hchanges k hk),
        htotal.trans hneed, present_of_advances hadvances hpresent,
        hread.advances hadvances hmarker⟩
  | .reading marker false changes rows, ⟨hmarker, hchanges, h⟩ =>
      refine ⟨hmarker.trans hle, fun k hk => hadvances.present k (hchanges k hk), ?_⟩
      refine h.imp (htotal.trans ·) fun ⟨hsynced, hread⟩ => ?_
      exact ⟨hsynced.advances hadvances (Nat.zero_le _), hread.advances hadvances hmarker⟩
  | .clearing marker, ⟨hmarker, hneed, hsynced⟩ =>
      exact ⟨hmarker.trans hle, htotal.trans hneed, hsynced.advances hadvances hmarker⟩
  | .fixing marker, ⟨hmarker, h⟩ =>
      exact ⟨hmarker.trans hle, h.imp (htotal.trans ·) (·.advances hadvances hmarker)⟩

theorem Inv.push {s : LockSys} (h : Inv s) (clientLocks : IntMap ClientLockObj) (junk : Int)
    (hok : PushOk s (.push clientLocks junk)) :
    Inv { s with clientLock := s.clientLock.push clientLocks junk, last := clientLocks } := by
  obtain ⟨hrecords, hmarker, hbounded, hcases⟩ := s.clientLock.push_cases clientLocks junk
  refine ⟨hrecords, hbounded h.bounded, ?_⟩
  have hpresent : ∀ {k}, clientLocks[k]? ≠ none →
      (s.clientLock.push clientLocks junk).flags k ≠ none := by
    intro k hk
    simpa [hrecords k] using hk
  rcases hcases with ⟨⟨k, hflags, hmissing⟩, htotal⟩ | ⟨-, hadvances⟩
  · -- a record was removed: the position allows it and all records will be written
    have hphase := h.phase
    rw [Ne, ClientLockCounter.flags_eq_none] at hflags
    simp only [PushOk] at hok
    match hs : s.phase with
    | .idle => exact Or.inl htotal
    | .reading marker true changes rows =>
        rw [hs] at hok
        exact absurd hmissing (hok k hflags)
    | .reading marker false changes rows =>
        rw [hs] at hok hphase
        exact ⟨hphase.1.trans hmarker, fun k hk => hpresent (hok k hk), Or.inl htotal⟩
    | .clearing marker =>
        rw [hs] at hok
        exact absurd hmissing (hok k hflags)
    | .fixing marker =>
        rw [hs] at hphase
        exact ⟨hphase.1.trans hmarker, Or.inl htotal⟩
  · exact h.phase.advances hadvances

/-! ## Steps of the sync thread -/

theorem PhaseInv.getChanges {c : ClientLockCounter} {central : IntMap LockFlags}
    (h : PhaseInv c central .idle) (hbounded : c.MarksBounded) :
    PhaseInv c central (.reading c.marker c.needTotalSync c.getChanges.2.1 ∅) := by
  have hunmarked : ∀ k, ¬ c.Marked c.marker k := by
    rintro k ⟨m, hm, hlt⟩
    have := hbounded k m hm
    omega
  cases htotal : c.needTotalSync with
  | true =>
      have hchanges : c.getChanges.2.1 = c.counter.keys := by
        simp [ClientLockCounter.getChanges, htotal]
      rw [hchanges]
      refine ⟨le_rfl, fun k hk => ClientLockCounter.mem_keys_counter.mp hk, htotal,
        fun k hk => absurd hk (hunmarked k), fun k _ hk => ?_⟩
      rw [ClientLockCounter.mem_keys_counter, not_not] at hk
      simp [hk]
  | false =>
      have hchanges : c.getChanges.2.1 = c.changes.keys := by
        simp [ClientLockCounter.getChanges, htotal]
      have hkeys : ∀ k, k ∈ c.changes.keys ↔ c.Marked 0 k := by
        intro k
        rw [Std.ExtTreeMap.mem_keys, ← Std.ExtTreeMap.isSome_getElem?_iff_mem,
          Option.isSome_iff_exists]
        exact exists_congr fun m => ⟨fun hm => ⟨hm, (hbounded k m hm).1⟩, fun hm => hm.1⟩
      have hsynced : SyncedSince central c 0 := by simpa [PhaseInv, htotal] using h
      rw [hchanges]
      refine ⟨le_rfl, fun k hk => hsynced.present k ((hkeys k).mp hk), Or.inr ⟨hsynced, ?_⟩⟩
      intro k _ hk
      rw [IntMap.upsert_empty]
      exact hsynced.rows k fun hmarked => hk ((hkeys k).mpr hmarked)

/-- Reading a record that is there. -/
theorem ReadSince.insert {rows : IntMap LockFlags} {accountId : Int} {changes : List Int}
    {c : ClientLockCounter} {marker : Nat} (h : ReadSince rows (accountId :: changes) c marker)
    {value : LockFlags} (hvalue : some value = c.flags accountId) :
    ReadSince (rows.insert accountId value) changes c marker := by
  intro k hk hchanges
  rw [IntMap.getElem?_insert]
  split
  case isTrue heq => rw [hvalue, heq]
  case isFalse hne => exact h k hk (by simp [hchanges, Ne.symm hne])

theorem PhaseInv.get {c : ClientLockCounter} {central : IntMap LockFlags} {marker : Nat}
    {total : Bool} {accountId : Int} {changes : List Int} {rows : IntMap LockFlags}
    (h : PhaseInv c central (.reading marker total (accountId :: changes) rows)) :
    (c.get accountId).2 = c ∧
      PhaseInv c central (.reading marker total changes
        (rows.insert accountId (c.get accountId).1.toLockFlags)) := by
  cases total with
  | true =>
      obtain ⟨hmarker, hchanges, hneed, hpresent, hread⟩ := h
      obtain ⟨hsame, hvalue⟩ :=
        ClientLockCounter.get_of_flags (hchanges accountId List.mem_cons_self)
      exact ⟨hsame, hmarker, fun k hk => hchanges k (List.mem_cons_of_mem _ hk), hneed, hpresent,
        hread.insert hvalue⟩
  | false =>
      obtain ⟨hmarker, hchanges, h⟩ := h
      obtain ⟨hsame, hvalue⟩ :=
        ClientLockCounter.get_of_flags (hchanges accountId List.mem_cons_self)
      refine ⟨hsame, hmarker, fun k hk => hchanges k (List.mem_cons_of_mem _ hk), ?_⟩
      refine h.imp id fun ⟨hsynced, hread⟩ => ⟨hsynced, ?_⟩
      rw [IntMap.upsert_insert]
      exact hread.insert hvalue

/-- Clearing the marks up to `marker`. -/
theorem SyncedSince.fixChanges {central : IntMap LockFlags} {c : ClientLockCounter} {marker : Nat}
    (h : SyncedSince central c marker) : SyncedSince central (c.fixChanges marker) 0 := by
  have hmarked : ∀ k, (c.fixChanges marker).Marked 0 k ↔ c.Marked marker k := by
    intro k
    simp only [ClientLockCounter.Marked, ClientLockCounter.fixChanges,
      Std.ExtTreeMap.getElem?_filter', Option.filter_eq_some_iff, decide_eq_true_eq]
    exact exists_congr fun m => ⟨fun hm => ⟨hm.1.1, hm.1.2⟩, fun hm => ⟨⟨hm.1, hm.2⟩, by omega⟩⟩
  exact {
    present := fun k hk => h.present k ((hmarked k).mp hk)
    rows := fun k hk => h.rows k fun hk' => hk ((hmarked k).mpr hk') }

theorem marksBounded_fixChanges {c : ClientLockCounter} (h : c.MarksBounded) (marker : Nat) :
    (c.fixChanges marker).MarksBounded := by
  intro k m hm
  simp only [ClientLockCounter.fixChanges, Std.ExtTreeMap.getElem?_filter',
    Option.filter_eq_some_iff] at hm
  exact h k m hm.1

theorem step_inv {s s' : LockSys} {a : Act} (h : Inv s) (hok : PushOk s a)
    (hs : step s a = some s') : Inv s' := by
  have hphase := h.phase
  obtain ⟨clientLocks, junk, rfl, rfl⟩ | ⟨-, hidle, rfl⟩ |
    ⟨marker, total, accountId, changes, rows, -, hreading, rfl⟩ |
    ⟨marker, rows, -, hreading, rfl⟩ | ⟨marker, rows, -, hreading, hwrite⟩ |
    ⟨marker, total, rows, -, hreading, rfl⟩ | ⟨marker, -, hclearing, rfl⟩ |
    ⟨marker, -, hfixing, rfl⟩ := step_cases hs
  · exact h.push clientLocks junk hok
  · rw [hidle] at hphase
    exact { h with phase := hphase.getChanges h.bounded }
  · rw [hreading] at hphase
    obtain ⟨hsame, hphase⟩ := hphase.get
    simp only [hsame]
    exact { h with phase := hphase }
  · rw [hreading] at hphase
    obtain ⟨hmarker, -, hneed, hpresent, hread⟩ := hphase
    exact { h with phase := ⟨hmarker, hneed, hpresent, fun k hk => hread k hk (by simp)⟩ }
  · rw [hreading] at hphase
    obtain ⟨hmarker, -, hphase⟩ := hphase
    rcases hwrite with ⟨-, rfl⟩ | rfl
    · exact { h with phase := hphase.imp id (·.1) }
    · refine { h with phase := ⟨hmarker, hphase.imp id fun ⟨hsynced, hread⟩ => ?_⟩ }
      refine ⟨fun k ⟨m, hm, hlt⟩ => hsynced.present k ⟨m, hm, by omega⟩, fun k hk => ?_⟩
      exact hread k hk (by simp)
  · rw [hreading] at hphase
    refine { h with phase := ?_ }
    cases total with
    | true => exact Or.inl hphase.2.2.1
    | false => exact hphase.2.2.imp id (·.1)
  · rw [hclearing] at hphase
    exact { h with phase := ⟨hphase.1, Or.inr ⟨hphase.2.2.present, hphase.2.2.rows⟩⟩ }
  · rw [hfixing] at hphase
    exact {
      records := h.records
      bounded := marksBounded_fixChanges h.bounded marker
      phase := hphase.2.imp id SyncedSince.fixChanges }

/-! ## A synchronisation without a push -/

/-- No push has come since the first step of the synchronisation. -/
def Undisturbed (c : ClientLockCounter) (central : IntMap LockFlags) : Phase → Prop
  | .reading marker total _ _ => c.marker = marker ∧ c.needTotalSync = total
  | .clearing marker => c.marker = marker
  | .fixing marker => c.marker = marker ∧ c.needTotalSync = false
  | .idle => ∀ k, central[k]? = c.flags k

/-- Steps of a synchronisation that runs to its end. -/
def Act.continues : Act → Bool
  | .get | .write | .clear | .fix => true
  | .push _ _ | .getChanges | .fail => false

/-- The invariant of such a synchronisation. -/
structure SyncInv (s : LockSys) : Prop extends Inv s where
  undisturbed : Undisturbed s.clientLock s.central s.phase

theorem step_undisturbed {s s' : LockSys} {a : Act} (h : Inv s)
    (hs : Undisturbed s.clientLock s.central s.phase) (ha : a.continues = true)
    (hstep : step s a = some s') : Undisturbed s'.clientLock s'.central s'.phase := by
  have hphase := h.phase
  -- no mark is above the marker
  have hunmarked : ∀ k, ¬ s.clientLock.Marked s.clientLock.marker k := by
    rintro k ⟨m, hm, hlt⟩
    have := h.bounded k m hm
    omega
  obtain ⟨clientLocks, junk, rfl, rfl⟩ | ⟨rfl, hidle, rfl⟩ |
    ⟨marker, total, accountId, changes, rows, -, hreading, rfl⟩ |
    ⟨marker, rows, -, hreading, rfl⟩ | ⟨marker, rows, -, hreading, hwrite⟩ |
    ⟨marker, total, rows, rfl, hreading, rfl⟩ | ⟨marker, -, hclearing, rfl⟩ |
    ⟨marker, -, hfixing, rfl⟩ := step_cases hstep
  · exact absurd ha (by simp [Act.continues])
  · exact absurd ha (by simp [Act.continues])
  · rw [hreading] at hphase hs
    simp only [hphase.get.1]
    exact hs
  · rw [hreading] at hs
    exact hs.1
  · rw [hreading] at hphase hs
    obtain ⟨rfl, htotal⟩ := hs
    rcases hwrite with ⟨rfl, rfl⟩ | rfl
    · intro k
      -- without changes the central rows were read as they are
      obtain ⟨-, hread⟩ : SyncedSince s.central s.clientLock 0 ∧
          ReadSince (IntMap.upsert s.central ∅) [] s.clientLock s.clientLock.marker := by
        simpa [htotal] using hphase.2.2
      simpa using hread k (hunmarked k) (by simp)
    · exact ⟨rfl, htotal⟩
  · exact absurd ha (by simp [Act.continues])
  · rw [hclearing] at hs
    exact ⟨hs, rfl⟩
  · rw [hfixing] at hphase hs
    obtain ⟨rfl, htotal⟩ := hs
    have hsynced : SyncedSince s.central s.clientLock s.clientLock.marker := by
      simpa [htotal] using hphase.2
    intro k
    exact hsynced.rows k (hunmarked k)

/-- **Convergence.**  In every run whose pushes remove no record under a running
synchronisation as `PushOk` says, a synchronisation that runs to its end without
a push leaves exactly the records of the last push in the central database. -/
theorem central_eq_last_push {s t u : LockSys} {as sync : List Act} (hs : Started s)
    (hok : Meets step PushOk s as) (hrun : run step s as = some t)
    (hsync : run step t (.getChanges :: sync) = some u)
    (hcontinues : ∀ a ∈ sync, a.continues = true) (hdone : u.phase = .idle) :
    ∀ k : Int, u.central[k]? = u.last[k]?.map ClientLockObj.toLockFlags := by
  have hinv : Inv t :=
    run_invariant_of_meets (fun _ _ _ h hok hstep => step_inv h hok hstep) (Inv.init hs) hok hrun
  obtain ⟨t₁, hget, hrest⟩ := run_cons_eq_some hsync
  have hstart : SyncInv t₁ := by
    refine ⟨step_inv hinv (by exact trivial) hget, ?_⟩
    rw [step] at hget
    split at hget
    case h_1 =>
      rw [← Option.some.inj hget]
      exact ⟨rfl, rfl⟩
    case h_2 => exact absurd hget (by simp)
  have hmeets : Meets step (fun _ a => a.continues = true) t₁ sync :=
    meets_of_forall (fun a ha _ => hcontinues a ha) t₁
  have hend : SyncInv u := by
    refine run_invariant_of_meets ?_ hstart hmeets hrest
    intro s a s' h ha hstep
    have hok : PushOk s a := by
      cases a with
      | push clientLocks junk => exact absurd ha (by simp [Act.continues])
      | _ => trivial
    exact ⟨step_inv h.toInv hok hstep, step_undisturbed h.toInv h.undisturbed ha hstep⟩
  have hrows := hend.undisturbed
  rw [hdone] at hrows
  exact fun k => (hrows k).trans (hend.records k)

/-- Records of the clients 7 and 8, and of 8 alone. -/
def locks78 : IntMap ClientLockObj :=
  (({} : IntMap ClientLockObj).insert 7 { clientId := 7, disabledLocal := true }).insert 8
    { clientId := 8, disabledGlobal := true }

def locks8 : IntMap ClientLockObj :=
  ({} : IntMap ClientLockObj).insert 8 { clientId := 8, disabledGlobal := true }

def start : LockSys := ⟨.empty, ∅, .idle, ∅⟩

def Phase.isIdle : Phase → Bool
  | .idle => true
  | _ => false

theorem Phase.eq_idle {phase : Phase} (h : phase.isIdle = true) : phase = .idle := by
  cases phase with
  | idle => rfl
  | _ => exact absurd h (by simp [isIdle])

/-- The locks of both clients are pushed and synchronised. -/
def syncBoth : List Act := [.push locks78 0, .getChanges, .get, .get, .write, .clear, .fix]

/-- The lock of client 7 is removed between two synchronisations. -/
theorem central_eq_last_push_of_locks8 :
    ∃ t u, run step start (syncBoth ++ [.push locks8 0]) = some t ∧
      run step t [.getChanges, .get, .write, .clear, .fix] = some u ∧
      u.central[(7 : Int)]? = none ∧
      ∀ k : Int, u.central[k]? = u.last[k]?.map ClientLockObj.toLockFlags := by
  have hfirst : (run step start syncBoth).all (fun t => t.phase.isIdle) = true := by
    decide +kernel
  have hdone : ((run step start (syncBoth ++ [.push locks8 0])).bind fun t =>
      (run step t [.getChanges, .get, .write, .clear, .fix]).map fun u =>
        (u.phase.isIdle, u.central[(7 : Int)]?)) = some (true, none) := by
    decide +kernel
  have hok : Meets step PushOk start (syncBoth ++ [.push locks8 0]) := by
    refine meets_append ⟨trivial, fun s _ => meets_of_forall (by simp [PushOk]) s⟩ fun t ht => ?_
    rw [Option.all_eq_true] at hfirst
    refine ⟨?_, fun _ _ => trivial⟩
    simp only [PushOk, Phase.eq_idle (hfirst t ht)]
  obtain ⟨t, hrun, ht⟩ := Option.bind_eq_some_iff.mp hdone
  obtain ⟨u, hsync, hu⟩ := Option.map_eq_some_iff.mp ht
  rw [Prod.mk.injEq] at hu
  exact ⟨t, u, hrun, hsync, hu.2,
    central_eq_last_push ⟨rfl, rfl, rfl⟩ hok hrun hsync (by decide) (Phase.eq_idle hu.1)⟩

/-- The lock of client 7 is removed before a total synchronisation clears its
request: the row of client 7 stays. -/
theorem central_ne_last_push_of_locks8 :
    ∃ t u, run step start [.push locks78 0, .getChanges, .get, .get, .write, .push locks8 0,
        .clear, .fix] = some t ∧
      run step t [.getChanges, .get, .write, .fix] = some u ∧ u.phase = .idle ∧
      ¬ ∀ k : Int, u.central[k]? = u.last[k]?.map ClientLockObj.toLockFlags := by
  have hdone : ((run step start [.push locks78 0, .getChanges, .get, .get, .write,
      .push locks8 0, .clear, .fix]).bind fun t =>
        (run step t [.getChanges, .get, .write, .fix]).map fun u =>
          (u.phase.isIdle, u.central[(7 : Int)]?.isSome, u.last[(7 : Int)]?.isSome)) =
      some (true, true, false) := by
    decide +kernel
  obtain ⟨t, hrun, ht⟩ := Option.bind_eq_some_iff.mp hdone
  obtain ⟨u, hsync, hu⟩ := Option.map_eq_some_iff.mp ht
  simp only [Prod.mk.injEq] at hu
  obtain ⟨hphase, hcentral, hlast⟩ := hu
  refine ⟨t, u, hrun, hsync, Phase.eq_idle hphase, fun hall => ?_⟩
  have h7 := congrArg Option.isSome (hall 7)
  rw [hcentral, Option.isSome_map, hlast] at h7
  exact absurd h7 (by decide)

end ClientLocks
end VoipBill
