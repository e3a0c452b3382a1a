import VoipBill.Lib.ChangeSet
import VoipBill.Save.ReloadSum

/-!
# Synchronising the account counters

`StatsAccountManager::sync` takes the changed accounts under the lock, writes
their rows to the central database without it, and gives the set back when the
write fails.  Calls are added, balances reloaded and full clears requested while
a synchronisation runs.

The central row of an account is what is written for its row in memory; `written`
stands for the text of a row as the central database reads it.

`no_account_update_lost` is the result for every interleaving, through the change
sets of `Lib.ChangeSet`.
-/

namespace VoipBill

open Lib

namespace StatsAccountManager

/-- One turn of the loop of `getChanges` over `forSync`; `statsAccount[id]` makes a row
for an id without one. -/
def takeRow (taken : IntMap StatsAccount × IntMap StatsAccount) (id : Int) :
    IntMap StatsAccount × IntMap StatsAccount :=
  let stats := taken.1[id]?.getD {}
  (taken.1.insert id stats, taken.2.insert id stats)

/-- `getChanges`: the manager, the changes and the flag. -/
def getChanges (m : StatsAccountManager) : StatsAccountManager × IntMap StatsAccount × Bool :=
  if m.needClear then
    ({ m with needClear := false, forSync := ∅ }, m.rows, true)
  else
    let taken := m.forSync.toList.foldl takeRow (m.rows, ∅)
    ({ m with rows := taken.1, forSync := ∅ }, taken.2, false)

def addChanges (m : StatsAccountManager) (changes : IntMap StatsAccount) (needClear : Bool) :
    StatsAccountManager :=
  { m with
    forSync := changes.toList.foldl (fun ids entry => ids.insert entry.1) m.forSync
    needClear := m.needClear || needClear }

end StatsAccountManager

namespace AccountCounters

open StatsAccountManager

/-- A synchronisation between `getChanges` and its end.  After a failed write the set
is still to be given back. -/
structure RunningSync where
  changes : IntMap StatsAccount
  needClear : Bool
  failed : Bool

structure AccountSync where
  manager : StatsAccountManager
  central : IntMap StatsAccount
  running : Option RunningSync

inductive Act where
  | add (callInfo : CallInfo)
  | reloadSum (res : List SumRow)
  | setNeedClear
  | getChanges
  | writeSucceeds
  | writeFails
  | addChanges

section Code

variable (written : StatsAccount → StatsAccount)

/-- The central table after a successful write.  Without changes nothing is sent. -/
def write (central changes : IntMap StatsAccount) (needClear : Bool) : IntMap StatsAccount :=
  if changes.isEmpty then central
  else if needClear then changes.map fun _ stats => written stats
  else IntMap.upsert central (changes.map fun _ stats => written stats)

def step (s : AccountSync) : Act → Option AccountSync
  | .add callInfo => some { s with manager := s.manager.add callInfo }
  | .reloadSum res => some { s with manager := s.manager.reloadSum res }
  | .setNeedClear => some { s with manager := { s.manager with needClear := true } }
  | .getChanges =>
      match s.running with
      | some _ => none
      | none =>
          let taken := s.manager.getChanges
          some { s with manager := taken.1, running := some ⟨taken.2.1, taken.2.2, false⟩ }
  | .writeSucceeds =>
      match s.running with
      | some ⟨changes, needClear, false⟩ =>
          some { s with central := write written s.central changes needClear, running := none }
      | _ => none
  | .writeFails =>
      match s.running with
      | some ⟨changes, needClear, false⟩ =>
          if changes.isEmpty then none
          else some { s with running := some ⟨changes, needClear, true⟩ }
      | _ => none
  | .addChanges =>
      match s.running with
      | some ⟨changes, needClear, true⟩ =>
          some { s with manager := s.manager.addChanges changes needClear, running := none }
      | _ => none

end Code

/-- The change set behind the counters. -/
def view (s : AccountSync) : ChangeSet.State Int StatsAccount StatsAccount where
  rows := fun id => s.manager.rows[id]?
  changed := { id | id ∈ s.manager.forSync }
  clear := s.manager.needClear = true
  remote := fun id => s.central[id]?
  taken := s.running.map fun r => ⟨fun id => r.changes[id]?, r.needClear = true⟩

/-! ## What the operations do to a row -/

/-- Rows are changed: the accounts concerned are marked and no row is removed. -/
structure Touches (m m' : StatsAccountManager) : Prop where
  rows : ∀ id, id ∉ m'.forSync → m'.rows[id]? = m.rows[id]?
  kept : ∀ id : Int, m'.rows[id]? = none → m.rows[id]? = none
  marked : ∀ id, id ∈ m.forSync → id ∈ m'.forSync
  needClear : m'.needClear = m.needClear

theorem Touches.refl (m : StatsAccountManager) : Touches m m :=
  ⟨fun _ _ => rfl, fun _ h => h, fun _ h => h, rfl⟩

theorem Touches.trans {m m' m'' : StatsAccountManager} (h : Touches m m')
    (h' : Touches m' m'') : Touches m m'' where
  rows := fun id hid =>
    (h'.rows id hid).trans (h.rows id fun hmark => hid (h'.marked id hmark))
  kept := fun id hid => h.kept id (h'.kept id hid)
  marked := fun id hid => h'.marked id (h.marked id hid)
  needClear := h'.needClear.trans h.needClear

/-- One row is written and marked. -/
theorem touches_insert {m m' : StatsAccountManager} {id : Int} {stats : StatsAccount}
    (hrows : m'.rows = m.rows.insert id stats) (hmarked : m'.forSync = m.forSync.insert id)
    (hneed : m'.needClear = m.needClear) : Touches m m' where
  rows := by
    intro id' hid
    rw [hmarked, Std.ExtTreeSet.mem_insert, not_or] at hid
    rw [hrows, IntMap.getElem?_insert_of_ne]
    simpa using hid.1
  kept := by
    intro id' hid
    rw [hrows, IntMap.getElem?_insert] at hid
    split at hid
    · simp at hid
    · exact hid
  marked := by
    intro id' hid
    rw [hmarked, Std.ExtTreeSet.mem_insert]
    exact Or.inr hid
  needClear := hneed

theorem touches_add (m : StatsAccountManager) (callInfo : CallInfo) :
    Touches m (m.add callInfo) := by
  unfold StatsAccountManager.add
  split
  · exact Touches.refl m
  · split
    · exact Touches.refl m
    · exact touches_insert rfl rfl rfl

theorem touches_reloadSum (m : StatsAccountManager) (res : List SumRow) :
    Touches m (m.reloadSum res) := by
  induction res generalizing m with
  | nil => exact Touches.refl m
  | cons row res ih =>
      have hrow : Touches m (m.reloadRow row) := touches_insert rfl rfl rfl
      exact hrow.trans (ih (m.reloadRow row))

/-- The loop of `getChanges`: the rows of the marked accounts are taken as they are. -/
theorem foldl_takeRow (ids : List Int) (rows changes : IntMap StatsAccount) (id : Int) :
    (ids.foldl takeRow (rows, changes)).1[id]? =
        (if id ∈ ids then some (rows[id]?.getD {}) else rows[id]?) ∧
      (ids.foldl takeRow (rows, changes)).2[id]? =
        if id ∈ ids then some (rows[id]?.getD {}) else changes[id]? := by
  induction ids generalizing rows changes with
  | nil => simp
  | cons first ids ih =>
      obtain ⟨hrows, hchanges⟩ := ih (rows.insert first (rows[first]?.getD {}))
        (changes.insert first (rows[first]?.getD {}))
      have hsame : (rows.insert first (rows[first]?.getD {}))[id]?.getD {} =
          rows[id]?.getD {} := by
        rw [IntMap.getElem?_insert]
        by_cases hfirst : first = id
        · rw [if_pos hfirst, hfirst, Option.getD_some]
        · rw [if_neg hfirst]
      rw [List.foldl_cons]
      refine ⟨hrows.trans ?_, hchanges.trans ?_⟩
      all_goals
        rw [hsame, IntMap.getElem?_insert]
        by_cases hfirst : first = id
        · simp [hfirst]
        · simp [hfirst, Ne.symm hfirst]

theorem mem_foldl_insert (entries : List (Int × StatsAccount)) (ids : Std.ExtTreeSet Int)
    (id : Int) :
    id ∈ entries.foldl (fun ids entry => ids.insert entry.1) ids ↔
      id ∈ ids ∨ ∃ stats, (id, stats) ∈ entries := by
  induction entries generalizing ids with
  | nil => simp
  | cons entry entries ih =>
      rw [List.foldl_cons, ih, Std.ExtTreeSet.mem_insert]
      simp only [Std.compare_eq_iff_eq, List.mem_cons]
      constructor
      · rintro ((rfl | hin) | ⟨stats, hin⟩)
        · exact Or.inr ⟨entry.2, Or.inl rfl⟩
        · exact Or.inl hin
        · exact Or.inr ⟨stats, Or.inr hin⟩
      · rintro (hin | ⟨stats, rfl | hin⟩)
        · exact Or.inl (Or.inr hin)
        · exact Or.inl (Or.inl rfl)
        · exact Or.inr ⟨stats, hin⟩

theorem mem_forSync_addChanges {m : StatsAccountManager} {changes : IntMap StatsAccount}
    {needClear : Bool} {id : Int} :
    id ∈ (m.addChanges changes needClear).forSync ↔ id ∈ m.forSync ∨ changes[id]? ≠ none := by
  rw [StatsAccountManager.addChanges]
  show id ∈ changes.toList.foldl _ _ ↔ _
  rw [mem_foldl_insert]
  simp only [Std.ExtTreeMap.mem_toList_iff_getElem?_eq_some, Option.ne_none_iff_exists']

/-! ## Every step keeps the change set -/

section Invariant

variable {written : StatsAccount → StatsAccount} {s s' : AccountSync}

theorem covered_touch {m : StatsAccountManager} (h : ChangeSet.Covered written (view s))
    (htouch : Touches s.manager m) :
    ChangeSet.Covered written (view { s with manager := m }) :=
  h.touch htouch.rows htouch.kept htouch.marked
    (fun hclear => htouch.needClear.trans hclear) rfl rfl

theorem covered_getChanges (h : ChangeSet.Covered written (view s)) (hidle : s.running = none) :
    ChangeSet.Covered written
      (view { s with
        manager := s.manager.getChanges.1
        running := some ⟨s.manager.getChanges.2.1, s.manager.getChanges.2.2, false⟩ }) := by
  have htaken : (view s).taken = none := by rw [view, hidle]; rfl
  -- a clearing synchronisation takes all rows, another one those that have changed
  by_cases hclear : s.manager.needClear = true
  · have hget : s.manager.getChanges =
        ({ s.manager with needClear := false, forSync := ∅ }, s.manager.rows, true) := by
      rw [StatsAccountManager.getChanges, if_pos hclear]
    rw [hget]
    exact h.take htaken (fun _ _ => rfl) (fun _ hnone => hnone) rfl rfl (fun _ => rfl)
      (fun hnot => absurd rfl hnot) (fun _ => rfl) (fun _ _ hrow => hrow)
  · have hget : s.manager.getChanges =
        ({ s.manager with
            rows := (s.manager.forSync.toList.foldl takeRow (s.manager.rows, ∅)).1
            forSync := ∅ },
          (s.manager.forSync.toList.foldl takeRow (s.manager.rows, ∅)).2, false) := by
      rw [StatsAccountManager.getChanges, if_neg hclear]
    have hfold := foldl_takeRow s.manager.forSync.toList s.manager.rows ∅
    simp only [Std.ExtTreeSet.mem_toList, Std.ExtTreeMap.getElem?_empty] at hfold
    -- from here on only what the fold does to each id matters
    generalize s.manager.forSync.toList.foldl takeRow (s.manager.rows, ∅) = taken at hfold hget
    rw [hget]
    apply h.take (t := ⟨fun id => taken.2[id]?, False⟩) htaken
    case hrows => exact fun id hid => (hfold id).1.trans (if_neg hid)
    case hkept =>
      intro id hnone
      have hnone' : taken.1[id]? = none := hnone
      rw [(hfold id).1] at hnone'
      split at hnone'
      · simp at hnone'
      · exact hnone'
    case hremote => rfl
    case htaken' => simp [view]
    case hclears => exact fun hpending => absurd hpending hclear
    case hunclear =>
      intro _ id hid
      show taken.2[id]? ≠ none
      rw [(hfold id).2, if_pos (show id ∈ s.manager.forSync from hid)]
      simp
    case hwhole => exact fun hno => hno.elim
    case hcurrent =>
      intro id stats hrow
      have hrow' : taken.2[id]? = some stats := hrow
      show taken.1[id]? = some stats
      rw [(hfold id).2] at hrow'
      rw [(hfold id).1]
      split at hrow'
      · rename_i hid
        rw [if_pos hid]
        exact hrow'
      · simp at hrow'

/-- The central row of an account that is not among the changes. -/
theorem getElem?_write_of_none {central changes : IntMap StatsAccount} {needClear : Bool} {id : Int}
    (h : changes[id]? = none) :
    (write written central changes needClear)[id]? = central[id]? ∨
      needClear = true ∧ (write written central changes needClear)[id]? = none := by
  unfold write
  split
  · exact Or.inl rfl
  · cases needClear with
    | true => exact Or.inr ⟨rfl, by simp [Std.ExtTreeMap.getElem?_map, h]⟩
    | false => exact Or.inl (by simp [Std.ExtTreeMap.getElem?_map, h])

theorem getElem?_write_of_some {central changes : IntMap StatsAccount} {needClear : Bool} {id : Int}
    {stats : StatsAccount} (h : changes[id]? = some stats) :
    (write written central changes needClear)[id]? = some (written stats) := by
  have hne : changes.isEmpty = false := by
    by_contra hempty
    rw [Bool.not_eq_false, Std.ExtTreeMap.isEmpty_iff] at hempty
    rw [hempty] at h
    simp at h
  rw [write, hne, if_neg (by simp)]
  cases needClear with
  | true => simp [Std.ExtTreeMap.getElem?_map, h]
  | false => simp [Std.ExtTreeMap.getElem?_map, h]

theorem covered_write {changes : IntMap StatsAccount} {needClear : Bool}
    (h : ChangeSet.Covered written (view s)) (hrunning : s.running = some ⟨changes, needClear, false⟩) :
    ChangeSet.Covered written
      (view { s with central := write written s.central changes needClear, running := none }) := by
  have htaken : (view s).taken = some ⟨fun id => changes[id]?, needClear = true⟩ := by
    rw [view, hrunning]
    rfl
  exact h.commit htaken rfl rfl id rfl (fun _ _ hrow => getElem?_write_of_some hrow)
    fun _ hnone => getElem?_write_of_none hnone

theorem covered_addChanges {changes : IntMap StatsAccount} {needClear : Bool}
    (h : ChangeSet.Covered written (view s)) (hrunning : s.running = some ⟨changes, needClear, true⟩) :
    ChangeSet.Covered written
      (view { s with manager := s.manager.addChanges changes needClear, running := none }) := by
  have htaken : (view s).taken = some ⟨fun id => changes[id]?, needClear = true⟩ := by
    rw [view, hrunning]
    rfl
  refine h.restore htaken rfl rfl (fun _ hid => mem_forSync_addChanges.mpr hid) ?_ rfl
  intro hclear
  have hneed : s.manager.needClear = true := hclear
  show (s.manager.needClear || needClear) = true
  rw [hneed, Bool.true_or]

theorem covered_step {a : Act} (h : ChangeSet.Covered written (view s))
    (hstep : step written s a = some s') : ChangeSet.Covered written (view s') := by
  cases a with
  | add callInfo =>
      obtain rfl : _ = s' := by simpa [step] using hstep
      exact covered_touch h (touches_add s.manager callInfo)
  | reloadSum res =>
      obtain rfl : _ = s' := by simpa [step] using hstep
      exact covered_touch h (touches_reloadSum s.manager res)
  | setNeedClear =>
      obtain rfl : _ = s' := by simpa [step] using hstep
      exact h.touch (fun _ _ => rfl) (fun _ hnone => hnone) (fun _ hid => hid) (fun _ => rfl)
        rfl rfl
  | getChanges =>
      cases hrunning : s.running with
      | some r => simp [step, hrunning] at hstep
      | none =>
          obtain rfl : _ = s' := by simpa [step, hrunning] using hstep
          exact covered_getChanges h hrunning
  | writeSucceeds =>
      rw [step] at hstep
      split at hstep
      · rename_i changes needClear hrunning
        obtain rfl : _ = s' := by simpa using hstep
        exact covered_write h hrunning
      · simp at hstep
  | writeFails =>
      rw [step] at hstep
      split at hstep
      · rename_i changes needClear hrunning
        split at hstep
        · simp at hstep
        · obtain rfl : _ = s' := by simpa using hstep
          -- the set is still taken
          have hview : view { s with running := some ⟨changes, needClear, true⟩ } = view s := by
            simp [view, hrunning]
          rw [hview]
          exact h
      · simp at hstep
  | addChanges =>
      rw [step] at hstep
      split at hstep
      · rename_i changes needClear hrunning
        obtain rfl : _ = s' := by simpa using hstep
        exact covered_addChanges h hrunning
      · simp at hstep

end Invariant

/-! ## Whole runs -/

/-- Both tables agree and no synchronisation runs. -/
def Agrees (written : StatsAccount → StatsAccount) (s : AccountSync) : Prop :=
  s.running = none ∧ ∀ id : Int, s.central[id]? = s.manager.rows[id]?.map written

/-- The account is in the set taken by the running synchronisation. -/
def IsTaken (s : AccountSync) (id : Int) : Prop := ∃ r ∈ s.running, r.changes[id]? ≠ none

/-- Actions that change no row and request nothing. -/
def Act.quiet : Act → Bool
  | .add callInfo => bookedRow callInfo = none
  | .reloadSum res => res = []
  | _ => false

section Runs

variable {written : StatsAccount → StatsAccount} {s t : AccountSync}

theorem step_quiet {a : Act} (hquiet : a.quiet = true) (hstep : step written s a = some t) :
    t = s := by
  cases a with
  | add callInfo =>
      have hadd : s.manager.add callInfo = s.manager := by
        rcases s.manager.add_cases callInfo with ⟨-, heq⟩ | ⟨_, -, hbooked, -⟩
        · exact heq
        · simp [Act.quiet, hbooked] at hquiet
      simp only [step, hadd, Option.some.injEq] at hstep
      exact hstep.symm
  | reloadSum res =>
      have hres : res = [] := by simpa [Act.quiet] using hquiet
      subst hres
      simp only [step, Option.some.injEq] at hstep
      exact hstep.symm
  | setNeedClear => simp [Act.quiet] at hquiet
  | getChanges => simp [Act.quiet] at hquiet
  | writeSucceeds => simp [Act.quiet] at hquiet
  | writeFails => simp [Act.quiet] at hquiet
  | addChanges => simp [Act.quiet] at hquiet

theorem run_quiet {as : List Act} (hquiet : ∀ a ∈ as, a.quiet = true)
    (hrun : run (step written) s as = some t) : t = s := by
  induction as generalizing s with
  | nil => simpa using hrun.symm
  | cons a as ih =>
      obtain ⟨s', hstep, hrest⟩ := run_cons_eq_some hrun
      obtain rfl := step_quiet (hquiet a List.mem_cons_self) hstep
      exact ih (fun b hb => hquiet b (List.mem_cons_of_mem a hb)) hrest

/-- `getChanges` leaves nothing marked and no clear pending. -/
theorem unmarked_of_getChanges (hstep : step written s .getChanges = some t) :
    (∀ id, id ∉ t.manager.forSync) ∧ t.manager.needClear = false := by
  cases hrunning : s.running with
  | some r => simp [step, hrunning] at hstep
  | none =>
      obtain rfl : _ = t := by simpa [step, hrunning] using hstep
      show (∀ id, id ∉ s.manager.getChanges.1.forSync) ∧
        s.manager.getChanges.1.needClear = false
      unfold StatsAccountManager.getChanges
      split
      · simp
      · rename_i hclear
        simpa using hclear

theorem covered_run (hstart : Agrees written s) {as : List Act}
    (hrun : run (step written) s as = some t) : ChangeSet.Covered written (view t) := by
  have hcovered : ChangeSet.Covered written (view s) :=
    ChangeSet.Covered.of_synced hstart.2 (by rw [view, hstart.1]; rfl)
  exact run_invariant (fun s a s' h hstep => covered_step h hstep) hcovered hrun

end Runs

/-- **No update of an account counter is lost.**  Whatever is interleaved with the
synchronisations, an account whose central row is not the one written for its counter
is in `forSync`, or taken by the running synchronisation, or a full clear is pending;
and a synchronisation that succeeds without a change since its `getChanges` leaves the
central row of every account equal to the local one. -/
theorem no_account_update_lost (written : StatsAccount → StatsAccount) (s t : AccountSync)
    (as : List Act) (hstart : Agrees written s) (hrun : run (step written) s as = some t) :
    (∀ id : Int, t.central[id]? ≠ t.manager.rows[id]?.map written →
      id ∈ t.manager.forSync ∨ IsTaken t id ∨ t.manager.needClear = true) ∧
    ∀ (bs : List Act) (u v : AccountSync), (∀ b ∈ bs, b.quiet = true) →
      run (step written) t (.getChanges :: bs) = some u →
      step written u .writeSucceeds = some v →
      ∀ id : Int, v.central[id]? = v.manager.rows[id]?.map written := by
  constructor
  · intro id hid
    rcases (covered_run hstart hrun).marked id hid with hmark | ⟨taken, htaken, hrow⟩ | hclear
    · exact Or.inl hmark
    · obtain ⟨r, hr, rfl⟩ := Option.map_eq_some_iff.mp htaken
      exact Or.inr (Or.inl ⟨r, hr, hrow⟩)
    · exact Or.inr (Or.inr hclear)
  · intro bs u v hquiet hruns hwrite id
    by_contra hid
    obtain ⟨taken, hget, hbs⟩ := run_cons_eq_some hruns
    obtain rfl := run_quiet hquiet hbs
    have hcovered : ChangeSet.Covered written (view v) :=
      covered_step (covered_step (covered_run hstart hrun) hget) hwrite
    -- a successful write changes neither the manager nor what is marked in it
    have hmanager : v.manager = u.manager ∧ v.running = none := by
      rw [step] at hwrite
      split at hwrite
      · obtain rfl : _ = v := by simpa using hwrite
        exact ⟨rfl, rfl⟩
      · simp at hwrite
    obtain ⟨hmarks, hclear⟩ := unmarked_of_getChanges hget
    rcases hcovered.marked id hid with hmark | ⟨taken, htaken, -⟩ | hpending
    · exact hmarks id (hmanager.1 ▸ hmark)
    · rw [view, hmanager.2] at htaken
      simp at htaken
    · have hneed : v.manager.needClear = true := hpending
      rw [hmanager.1, hclear] at hneed
      simp at hneed

/-- A manager without rows and an empty central table. -/
def start : AccountSync := ⟨.empty, ∅, none⟩

/-- A call of account 7. -/
def call7 : CallInfo :=
  { call := { id := 1, accountId := 7, cost := -2 }, account := some { id := 7 } }

/-- A write that fails while another call of the account is added. -/
theorem update_kept_after_failure :
    ∃ t, run (step id) start [.add call7, .getChanges, .writeFails, .add call7, .addChanges] =
        some t ∧
      (t.central[(7 : Int)]? ≠ t.manager.rows[(7 : Int)]?.map id → (7 : Int) ∈ t.manager.forSync ∨
        IsTaken t 7 ∨ t.manager.needClear = true) := by
  have hdefined : (run (step id) start
      [.add call7, .getChanges, .writeFails, .add call7, .addChanges]).isSome = true := by
    decide +kernel
  obtain ⟨t, ht⟩ := Option.isSome_iff_exists.mp hdefined
  have hstart : Agrees id start := ⟨rfl, fun key => by simp [start, StatsAccountManager.empty]⟩
  exact ⟨t, ht, (no_account_update_lost id start t _ hstart ht).1 7⟩

end AccountCounters
end VoipBill
