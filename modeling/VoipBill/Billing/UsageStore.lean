import VoipBill.Billing.UsageBooks
import VoipBill.Lib.Run
import VoipBill.Model.UsageTables

/-!
# A usage manager over its table

A usage manager with the table it is saved to and the calls that are saved with
it.  The transitions are those of the manager: looking up a counter, adding a
call, opening a partition, saving the first partition, and loading, with or
without a recalculation before it.

Saving the partitions one after another takes the table through a sequence of
states; `UsageSys.saved` and `UsageSys.savedCalls` name them, and `Prefixes`
says that something holds of all of them.  `Consistent` is what every run keeps:

* the index lists the rows of each key;
* rows are stored under their own ids, up to the last one given out;
* what is in memory is stored or queued.
-/

namespace VoipBill

open Lib

/-! ## What `load` finds -/

namespace UsageKind

variable {ρ : Type} (kind : UsageKind ρ)

theorem foldl_loadRow_lastStatId (m : UsageManager ρ) (res : List ρ) :
    (res.foldl kind.loadRow m).lastStatId = m.lastStatId := by
  induction res generalizing m with
  | nil => rfl
  | cons row res ih => exact ih (kind.loadRow m row)

theorem foldl_loadRow_parts (m : UsageManager ρ) (res : List ρ) :
    (res.foldl kind.loadRow m).parts = m.parts := by
  induction res generalizing m with
  | nil => rfl
  | cons row res ih => exact ih (kind.loadRow m row)

/-- The ids of a key, the last row of the answer first. -/
theorem foldl_loadRow_index (m : UsageManager ρ) (res : List ρ) (k : Int) :
    (res.foldl kind.loadRow m).statsByKey[k]?.getD [] =
      ((res.filter fun r => kind.key r = k).reverse.map kind.id) ++
        m.statsByKey[k]?.getD [] := by
  induction res generalizing m with
  | nil => rfl
  | cons row res ih =>
      rw [List.foldl_cons, ih]
      by_cases hk : kind.key row = k
      · simp [loadRow, hk]
      · simp [loadRow, hk]

theorem foldl_loadRow_of_notMem (m : UsageManager ρ) {res : List ρ} {i : Int}
    (h : i ∉ res.map kind.id) : (res.foldl kind.loadRow m).rows[i]? = m.rows[i]? := by
  induction res generalizing m with
  | nil => rfl
  | cons row res ih =>
      rw [List.map_cons, List.mem_cons, not_or] at h
      rw [List.foldl_cons, ih _ h.2]
      exact IntMap.getElem?_insert_of_ne _ (Ne.symm h.1) _

theorem foldl_loadRow_of_mem (m : UsageManager ρ) {res : List ρ} {row : ρ}
    (hnodup : (res.map kind.id).Nodup) (hrow : row ∈ res) :
    (res.foldl kind.loadRow m).rows[kind.id row]? = some row := by
  induction res generalizing m with
  | nil => exact absurd hrow List.not_mem_nil
  | cons first res ih =>
      rw [List.map_cons, List.nodup_cons] at hnodup
      rw [List.foldl_cons]
      rcases List.mem_cons.mp hrow with rfl | hrow
      · rw [kind.foldl_loadRow_of_notMem _ hnodup.1]
        exact IntMap.getElem?_insert_self _ _ _
      · exact ih _ hnodup.2 hrow

/-- Walking over the ids of stored rows is walking over the rows. -/
theorem findSome?_ids {rows : IntMap ρ} {isCurrent : ρ → Bool} {l : List ρ}
    (h : ∀ r ∈ l, rows[kind.id r]? = some r) :
    ((l.map kind.id).findSome? fun i => rows[i]?.filter isCurrent) = l.find? isCurrent := by
  induction l with
  | nil => rfl
  | cons r l ih =>
      have hrest := ih fun r' hr' => h r' (List.mem_cons_of_mem r hr')
      rw [List.map_cons, List.findSome?_cons, h r List.mem_cons_self, List.find?_cons, hrest]
      cases hr : isCurrent r with
      | true => simp [Option.filter, hr]
      | false => simp [Option.filter, hr]

/-- After `load`, the last row of the answer that has the key and is current is
found. -/
theorem load_findCurrent (table : IntMap ρ) {res : List ρ} (hnodup : (res.map kind.id).Nodup)
    (k : Int) (isCurrent : ρ → Bool) :
    (kind.load table res).findCurrent k isCurrent =
      res.reverse.find? fun r => decide (kind.key r = k) && isCurrent r := by
  have hindex : (kind.load table res).statsByKey[k]?.getD [] =
      (res.filter fun r => kind.key r = k).reverse.map kind.id := by
    rw [load, foldl_loadRow_index]
    simp [UsageManager.empty]
  have hrows : ∀ r ∈ (res.filter fun r => kind.key r = k).reverse,
      (kind.load table res).rows[kind.id r]? = some r := by
    intro r hr
    have hmem : r ∈ res := List.mem_of_mem_filter (List.mem_reverse.mp hr)
    exact kind.foldl_loadRow_of_mem _ hnodup hmem
  rw [UsageManager.findCurrent, hindex, kind.findSome?_ids hrows, ← List.filter_reverse,
    List.find?_filter]
  simp only [Bool.decide_and, Bool.decide_eq_true]

/-! ## Tables keyed by the ids of their rows -/

/-- Rows are stored under their own ids, which are among those given out. -/
def Keyed (lastStatId : Int) (table : IntMap ρ) : Prop :=
  ∀ i r, table[i]? = some r → kind.id r = i ∧ 0 < i ∧ i ≤ lastStatId

variable {kind} {table : IntMap ρ} {lastStatId : Int} {res : List ρ} {lastSaveCallTime : Int}

theorem Keyed.mono {lastStatId' : Int} (h : kind.Keyed lastStatId table)
    (hle : lastStatId ≤ lastStatId') : kind.Keyed lastStatId' table := by
  intro i r hr
  obtain ⟨hid, hpos, hlast⟩ := h i r hr
  exact ⟨hid, hpos, hlast.trans hle⟩

theorem Keyed.insert {i : Int} {r : ρ} (h : kind.Keyed lastStatId table) (hid : kind.id r = i)
    (hpos : 0 < i) (hlast : i ≤ lastStatId) : kind.Keyed lastStatId (table.insert i r) := by
  intro i' r' hr'
  rw [IntMap.getElem?_insert] at hr'
  by_cases hi : i = i'
  · rw [if_pos hi, Option.some.injEq] at hr'
    subst hr' hi
    exact ⟨hid, hpos, hlast⟩
  · rw [if_neg hi] at hr'
    exact h i' r' hr'

/-- `max(id)` bounds the ids of the table. -/
theorem Keyed.maxId (h : kind.Keyed lastStatId table) : kind.Keyed (kind.maxId table) table := by
  intro i r hr
  obtain ⟨hid, hpos, -⟩ := h i r hr
  have hmem : i ∈ table.toList.map fun entry => kind.id entry.2 :=
    List.mem_map.mpr ⟨(i, r), Std.ExtTreeMap.mem_toList_iff_getElem?_eq_some.mpr hr, hid⟩
  refine ⟨hid, hpos, ?_⟩
  cases hmax : (table.toList.map fun entry => kind.id entry.2).max? with
  | none =>
      rw [List.max?_eq_none_iff] at hmax
      rw [hmax] at hmem
      exact absurd hmem List.not_mem_nil
  | some a =>
      have hle := (List.max?_eq_some_iff.mp hmax).2 i hmem
      simpa [UsageKind.maxId, hmax] using hle

theorem Keyed.maxId_nonneg (h : kind.Keyed lastStatId table) : 0 ≤ kind.maxId table := by
  cases hmax : (table.toList.map fun entry => kind.id entry.2).max? with
  | none => simp [UsageKind.maxId, hmax]
  | some a =>
      obtain ⟨⟨i, r⟩, hmem, hid⟩ := List.mem_map.mp (List.max?_eq_some_iff.mp hmax).1
      obtain ⟨hid', hpos, -⟩ := h i r (Std.ExtTreeMap.mem_toList_iff_getElem?_eq_some.mp hmem)
      have hid : kind.id r = a := hid
      simp only [UsageKind.maxId, hmax, Option.getD_some]
      omega

/-- The rows of an answer are the rows of the table that the query selects. -/
theorem Answers.mem_iff (h : kind.Answers table lastSaveCallTime res) (r : ρ) :
    r ∈ res ↔ (∃ i : Int, table[i]? = some r) ∧ kind.loads lastSaveCallTime r = true := by
  rw [h.1.mem_iff, List.mem_filter, List.mem_map]
  refine and_congr_left fun _ => ⟨?_, ?_⟩
  · rintro ⟨⟨i, r'⟩, hmem, rfl⟩
    exact ⟨i, Std.ExtTreeMap.mem_toList_iff_getElem?_eq_some.mp hmem⟩
  · rintro ⟨i, hi⟩
    exact ⟨(i, r), Std.ExtTreeMap.mem_toList_iff_getElem?_eq_some.mpr hi, rfl⟩

/-- No two rows of an answer have the same id. -/
theorem Answers.nodup (h : kind.Answers table lastSaveCallTime res)
    (hkeyed : kind.Keyed lastStatId table) : (res.map kind.id).Nodup := by
  have hkeys : table.toList.map (fun entry => kind.id entry.2) = table.toList.map Prod.fst := by
    refine List.map_congr_left fun entry hentry => ?_
    exact (hkeyed entry.1 entry.2 (Std.ExtTreeMap.mem_toList_iff_getElem?_eq_some.mp hentry)).1
  have hall : ((table.toList.map Prod.snd).map kind.id).Nodup := by
    rw [List.map_map]
    show (table.toList.map fun entry => kind.id entry.2).Nodup
    rw [hkeys]
    refine List.pairwise_map.mpr (Std.ExtTreeMap.distinct_keys_toList.imp ?_)
    intro a b hab heq
    exact hab (by simp [heq])
  refine (h.1.map kind.id).nodup_iff.mpr ?_
  exact hall.sublist (List.filter_sublist.map kind.id)

/-- A row of the answer is in memory after `load`, and nothing else is. -/
theorem load_rows (h : kind.Answers table lastSaveCallTime res)
    (hkeyed : kind.Keyed lastStatId table) {i : Int} {r : ρ} :
    (kind.load table res).rows[i]? = some r ↔ r ∈ res ∧ kind.id r = i := by
  have hnodup := h.nodup hkeyed
  constructor
  · intro hr
    by_cases hi : i ∈ res.map kind.id
    · obtain ⟨r', hr', rfl⟩ := List.mem_map.mp hi
      rw [load, kind.foldl_loadRow_of_mem _ hnodup hr', Option.some.injEq] at hr
      exact hr ▸ ⟨hr', rfl⟩
    · rw [load, kind.foldl_loadRow_of_notMem _ hi] at hr
      exact absurd hr (by simp [UsageManager.empty])
  · rintro ⟨hr, rfl⟩
    exact kind.foldl_loadRow_of_mem _ hnodup hr

/-- Loading builds the index. -/
theorem load_indexed (h : kind.Answers table lastSaveCallTime res)
    (hkeyed : kind.Keyed lastStatId table) :
    Indexed kind.id kind.key (kind.load table res) where
  ids := by
    intro i hi
    by_contra hne
    obtain ⟨r, hr⟩ := Option.ne_none_iff_exists'.mp hne
    obtain ⟨hmem, hid⟩ := (load_rows h hkeyed).mp hr
    obtain ⟨⟨i', hi'⟩, -⟩ := (h.mem_iff r).mp hmem
    obtain ⟨hid', -, hle⟩ := hkeyed.maxId i' r hi'
    have hlast : (kind.load table res).lastStatId = kind.maxId table :=
      kind.foldl_loadRow_lastStatId _ res
    omega
  row := by
    intro i r hr
    obtain ⟨hmem, hid⟩ := (load_rows h hkeyed).mp hr
    refine ⟨hid, ?_⟩
    rw [load, foldl_loadRow_index, List.mem_append, List.mem_map]
    exact Or.inl ⟨r, by simpa using hmem, hid⟩
  listed := by
    intro k i hi
    rw [load, foldl_loadRow_index, List.mem_append, List.mem_map] at hi
    rcases hi with ⟨r, hr, hid⟩ | hi
    · simp only [List.mem_reverse, List.mem_filter, decide_eq_true_eq] at hr
      exact ⟨r, (load_rows h hkeyed).mpr ⟨hr.1, hid⟩, hr.2⟩
    · exact absurd hi (by simp [UsageManager.empty])

/-! ## What `recalc` keeps -/

theorem Keyed.filter (h : kind.Keyed lastStatId table) (p : Int → ρ → Bool) :
    kind.Keyed lastStatId (table.filter p) := by
  intro i r hr
  rw [Std.ExtTreeMap.getElem?_filter'] at hr
  exact h i r (Option.filter_eq_some_iff.mp hr).1

theorem Keyed.map (h : kind.Keyed lastStatId table) {f : ρ → ρ}
    (hf : ∀ r, kind.id (f r) = kind.id r) :
    kind.Keyed lastStatId (table.map fun _ r => f r) := by
  intro i r hr
  rw [Std.ExtTreeMap.getElem?_map, Option.map_eq_some_iff] at hr
  obtain ⟨r₀, hr₀, rfl⟩ := hr
  obtain ⟨hid, hbounds⟩ := h i r₀ hr₀
  exact ⟨(hf r₀).trans hid, hbounds⟩

theorem id_markRow (storedLastId : Int) (r : ρ) :
    kind.id (kind.markRow storedLastId r) = kind.id r := by
  unfold markRow
  split
  · exact kind.id_withTotals _ r
  · rfl

theorem id_resumRow (column : Call → Option Int) (calls : List Call)
    (storedLastId minCallId : Int) (r : ρ) :
    kind.id (kind.resumRow column calls storedLastId minCallId r) = kind.id r := by
  unfold resumRow
  split
  · split
    · rfl
    · exact kind.id_withTotals _ r
  · rfl

/-- The rows that are left after `recalc` are stored under their own ids. -/
theorem Keyed.recalc (h : kind.Keyed lastStatId table) (calls : List Call) (storedLastId : Int) :
    kind.Keyed lastStatId (kind.recalc calls storedLastId table).1 := by
  have hkept : kind.Keyed lastStatId (kind.deleteLater storedLastId table) := h.filter _
  simp only [UsageKind.recalc]
  split
  · cases hcolumn : kind.recalcQuery.column with
    | none => exact hkept
    | some column => exact ((hkept.map (id_markRow storedLastId)).map (id_resumRow _ _ _ _)).filter _
  · exact hkept

end UsageKind

/-! ## The system -/

/-- A manager, the calls queued beside its partitions, and what is stored.  Of a
stored call only `call.stored` is in the database; `calls` keeps the `CallInfo` to say
which calls the manager counted, and with what credit. -/
structure UsageSys (ρ : Type) where
  manager : UsageManager ρ
  queue : List (List CallInfo)
  table : IntMap ρ
  calls : List CallInfo

inductive UsageAct (ρ Query : Type) where
  | lookup (q : Query)
  | add (callInfo : CallInfo)
  | createNewPartition
  | save
  | load (lastSaveCallTime : Int) (res : List ρ)
  | recalc (fromId lastSaveCallTime : Int) (res : List ρ)

namespace UsageSys

variable {ρ : Type}

/-- An empty database, loaded. -/
def init : UsageSys ρ where
  manager := UsageManager.empty
  queue := [[]]
  table := ∅
  calls := []

/-- `MAX(id)` of the stored calls, NULL if there are none. -/
def storedLastId (calls : List CallInfo) : Int :=
  ((calls.map fun callInfo => callInfo.call.id).max?).getD 0

/-- The first partition is written and dropped. -/
def save (kind : UsageKind ρ) (s : UsageSys ρ) : UsageSys ρ where
  manager := s.manager.removePartitionAfterSave
  queue := s.queue.tail
  table := IntMap.upsert s.table (kind.storedPart (s.manager.parts.headD ∅))
  calls := s.calls ++ s.queue.headD []

/-- Everything that was in memory is dropped. -/
def load (kind : UsageKind ρ) (s : UsageSys ρ) (res : List ρ) : UsageSys ρ :=
  { s with manager := kind.load s.table res, queue := [[]] }

/-- `delete from calls_raw where id >= fromId`. -/
def remaining (fromId : Int) (calls : List CallInfo) : List CallInfo :=
  calls.filter fun callInfo => decide (callInfo.call.id < fromId)

/-- What `TaskRecalc` does to the database: the calls from an id on are deleted,
and the counters recalculated for the greatest id that remains. -/
def recalc (kind : UsageKind ρ) (s : UsageSys ρ) (fromId : Int) : UsageSys ρ × Bool :=
  let calls := remaining fromId s.calls
  let result := kind.recalc (calls.map (·.call.stored)) (storedLastId calls) s.table
  ({ s with table := result.1, calls := calls }, result.2)

def step [DecidableEq ρ] (kind : UsageKind ρ) (s : UsageSys ρ) :
    UsageAct ρ kind.Query → Option (UsageSys ρ)
  | .lookup q => some { s with manager := (kind.getCurrent s.manager q).2 }
  | .add callInfo =>
      some { s with
        manager := kind.add s.manager callInfo
        queue := modifyLast (fun part => part ++ [callInfo]) s.queue }
  | .createNewPartition =>
      some { s with manager := s.manager.createNewPartition, queue := s.queue ++ [[]] }
  | .save => if 2 ≤ s.manager.parts.length then some (s.save kind) else none
  | .load lastSaveCallTime res =>
      if kind.Answers s.table lastSaveCallTime res then some (s.load kind res) else none
  | .recalc fromId lastSaveCallTime res =>
      let result := s.recalc kind fromId
      if result.2 = true ∧ kind.Answers result.1.table lastSaveCallTime res then
        some (result.1.load kind res)
      else
        none

/-! ## The states that saving goes through -/

/-- The table after the first `j` partitions have been saved. -/
def saved (kind : UsageKind ρ) (s : UsageSys ρ) (j : Nat) : IntMap ρ :=
  flush s.table ((s.manager.parts.map kind.storedPart).take j)

def savedCalls (s : UsageSys ρ) (j : Nat) : List CallInfo := s.calls ++ (s.queue.take j).flatten

/-- The table and the calls after everything has been saved. -/
def allSaved (kind : UsageKind ρ) (s : UsageSys ρ) : IntMap ρ := s.saved kind s.manager.parts.length

def allCalls (s : UsageSys ρ) : List CallInfo := s.savedCalls s.queue.length

/-- `P` holds however many partitions are saved. -/
def Prefixes (kind : UsageKind ρ) (P : IntMap ρ → List CallInfo → Prop) (s : UsageSys ρ) : Prop :=
  ∀ j ≤ s.manager.parts.length, P (s.saved kind j) (s.savedCalls j)

section Prefixes

variable {kind : UsageKind ρ} {s s' : UsageSys ρ} {P : IntMap ρ → List CallInfo → Prop}

@[simp] theorem saved_zero : s.saved kind 0 = s.table := rfl

@[simp] theorem savedCalls_zero : s.savedCalls 0 = s.calls := by
  simp [savedCalls]

theorem Prefixes.stored (h : s.Prefixes kind P) : P s.table s.calls := by
  simpa using h 0 (Nat.zero_le _)

theorem storedPart_insert (part : IntMap ρ) (i : Int) (r : ρ) :
    kind.storedPart (part.insert i r) = (kind.storedPart part).insert i (kind.stored r) := by
  apply Std.ExtTreeMap.ext_getElem?
  intro a
  simp only [UsageKind.storedPart, Std.ExtTreeMap.getElem?_map, IntMap.getElem?_insert]
  split <;> simp

@[simp] theorem storedPart_empty : kind.storedPart (∅ : IntMap ρ) = ∅ := by
  apply Std.ExtTreeMap.ext_getElem?
  simp [UsageKind.storedPart]

/-- If nothing is queued, everything is saved. -/
theorem allSaved_eq_table (s : UsageSys ρ) (h : ∀ part ∈ s.manager.parts, part = ∅) :
    s.allSaved kind = s.table := by
  have hempty : ∀ parts : List (IntMap ρ), (∀ part ∈ parts, part = ∅) →
      flush s.table (parts.map kind.storedPart) = s.table := by
    intro parts hparts
    induction parts with
    | nil => rfl
    | cons part parts ih =>
        rw [hparts part List.mem_cons_self, List.map_cons, storedPart_empty, flush_cons,
          IntMap.upsert_empty]
        exact ih fun part' h' => hparts part' (List.mem_cons_of_mem _ h')
  rw [allSaved, saved, List.take_of_length_le (by simp)]
  exact hempty _ h

/-- Queueing a row in the last partition changes the last of the states. -/
theorem allSaved_put {i : Int} {r : ρ} (hne : s.manager.parts ≠ []) (htable : s'.table = s.table)
    (hparts : s'.manager.parts = (s.manager.put i r).parts) :
    s'.allSaved kind = (s.allSaved kind).insert i (kind.stored r) := by
  have hlen : ∀ t : UsageSys ρ, t.allSaved kind =
      flush t.table (t.manager.parts.map kind.storedPart) := by
    intro t
    rw [allSaved, saved, List.take_of_length_le (by simp)]
  have hmap : s'.manager.parts.map kind.storedPart =
      ((⟨∅, s.manager.parts.map kind.storedPart⟩ : Ledger ρ).put i (kind.stored r)).parts := by
    rw [hparts]
    exact map_modifyLast kind.storedPart _ _ (fun part => storedPart_insert part i r) _
  rw [hlen, hlen, htable, hmap, flush_put]
  simpa using hne

/-- The states before stay. -/
theorem saved_put {i : Int} {r : ρ} {j : Nat} (hj : j < s.manager.parts.length)
    (htable : s'.table = s.table) (hparts : s'.manager.parts = (s.manager.put i r).parts) :
    s'.saved kind j = s.saved kind j := by
  rw [saved, saved, htable, hparts, ← List.map_take, ← List.map_take]
  rw [Ledger.put, take_modifyLast _ _ hj]

theorem allCalls_add {callInfo : CallInfo} (hne : s.queue ≠ []) (hcalls : s'.calls = s.calls)
    (hqueue : s'.queue = modifyLast (fun part => part ++ [callInfo]) s.queue) :
    s'.allCalls = s.allCalls ++ [callInfo] := by
  rw [allCalls, allCalls, savedCalls, savedCalls, hcalls, List.take_length, List.take_length,
    hqueue, flatten_modifyLast_append callInfo hne, List.append_assoc]

theorem savedCalls_add {callInfo : CallInfo} {j : Nat} (hj : j < s.queue.length)
    (hcalls : s'.calls = s.calls)
    (hqueue : s'.queue = modifyLast (fun part => part ++ [callInfo]) s.queue) :
    s'.savedCalls j = s.savedCalls j := by
  rw [savedCalls, savedCalls, hcalls, hqueue, take_modifyLast _ _ hj]

/-- If only the last state changes, only the last state is to be checked. -/
theorem Prefixes.last {P' : IntMap ρ → List CallInfo → Prop} (h : s.Prefixes kind P)
    (haligned : s.queue.length = s.manager.parts.length)
    (hlength : s'.manager.parts.length = s.manager.parts.length)
    (hqueue : s'.queue.length = s.queue.length)
    (hmono : ∀ table calls, P table calls → P' table calls)
    (hsaved : ∀ j < s.manager.parts.length,
      s'.saved kind j = s.saved kind j ∧ s'.savedCalls j = s.savedCalls j)
    (hlast : P' (s'.allSaved kind) s'.allCalls) : s'.Prefixes kind P' := by
  intro j hj
  rcases Nat.lt_or_eq_of_le (hlength ▸ hj) with hlt | heq
  · obtain ⟨htable, hcalls⟩ := hsaved j hlt
    rw [htable, hcalls]
    exact hmono _ _ (h j hlt.le)
  · rw [allSaved, hlength, allCalls, hqueue, haligned] at hlast
    rw [heq]
    exact hlast

theorem Prefixes.createNewPartition (h : s.Prefixes kind P)
    (haligned : s.queue.length = s.manager.parts.length) :
    Prefixes kind P
      { s with manager := s.manager.createNewPartition, queue := s.queue ++ [[]] } := by
  intro j hj
  have hparts : (s.manager.createNewPartition).parts = s.manager.parts ++ [∅] := rfl
  simp only [hparts, List.length_append, List.length_singleton] at hj
  rcases Nat.lt_or_ge s.manager.parts.length j with hlt | hle
  · have hfull := h s.manager.parts.length le_rfl
    rw [saved, savedCalls, List.take_of_length_le (by simp [hparts]; omega),
      List.take_of_length_le (by simp [haligned]; omega)]
    rw [saved, savedCalls, List.take_of_length_le (by simp),
      List.take_of_length_le (by omega)] at hfull
    simp only [hparts, List.map_append, List.map_cons, List.map_nil, storedPart_empty,
      flush_concat, IntMap.upsert_empty, List.flatten_append, List.flatten_cons, List.flatten_nil,
      List.append_nil]
    exact hfull
  · have hprefix := h j hle
    rw [saved, savedCalls] at hprefix ⊢
    simp only [hparts, List.map_append]
    rw [List.take_append_of_le_length (by simpa using hle),
      List.take_append_of_le_length (by omega)]
    exact hprefix

theorem saved_save {j : Nat} (hne : s.manager.parts ≠ []) :
    (s.save kind).saved kind j = s.saved kind (j + 1) := by
  obtain ⟨part, parts, heq⟩ := List.exists_cons_of_ne_nil hne
  have htail : (s.save kind).manager.parts = s.manager.parts.tail := rfl
  rw [saved, saved, htail, heq]
  simp [save, heq]

theorem savedCalls_save {j : Nat} (hne : s.queue ≠ []) :
    (s.save kind).savedCalls j = s.savedCalls (j + 1) := by
  obtain ⟨part, parts, heq⟩ := List.exists_cons_of_ne_nil hne
  simp [savedCalls, save, heq]

theorem Prefixes.save (h : s.Prefixes kind P) (hne : s.manager.parts ≠ [])
    (haligned : s.queue.length = s.manager.parts.length) : (s.save kind).Prefixes kind P := by
  intro j hj
  have hlength : (s.save kind).manager.parts.length = s.manager.parts.length - 1 :=
    List.length_tail
  have hpos : 0 < s.manager.parts.length := List.length_pos_of_ne_nil hne
  rw [saved_save hne, savedCalls_save (List.ne_nil_of_length_pos (by omega))]
  exact h (j + 1) (by omega)

theorem Prefixes.load {res : List ρ} (h : P s.table s.calls) : (s.load kind res).Prefixes kind P := by
  intro j _
  have hparts : (s.load kind res).manager.parts = [∅] := kind.foldl_loadRow_parts _ res
  have hsaved : (s.load kind res).saved kind j = s.table := by
    rw [saved, hparts]
    cases j with
    | zero => rfl
    | succ j => simp [UsageSys.load]
  have hcalls : (s.load kind res).savedCalls j = s.calls := by
    cases j with
    | zero => simp [UsageSys.load]
    | succ j => simp [savedCalls, UsageSys.load]
  rw [hsaved, hcalls]
  exact h

end Prefixes

/-! ## What every run keeps -/

structure Consistent (kind : UsageKind ρ) (s : UsageSys ρ) : Prop where
  index : Indexed kind.id kind.key s.manager
  parts : s.manager.parts ≠ []
  aligned : s.queue.length = s.manager.parts.length
  last : 0 ≤ s.manager.lastStatId
  keyed : s.Prefixes kind fun table _ => kind.Keyed s.manager.lastStatId table
  covered : ∀ (i : Int) (stats : ρ), s.manager.rows[i]? = some stats →
    ∃ r, (s.allSaved kind)[i]? = some r ∧ (r = stats ∨ r = kind.stored stats)

namespace Consistent

variable {kind : UsageKind ρ} {s s' : UsageSys ρ}

theorem init : Consistent kind (UsageSys.init : UsageSys ρ) where
  index := Indexed.empty
  parts := by simp [UsageSys.init, UsageManager.empty]
  aligned := rfl
  last := le_refl 0
  keyed := by
    intro j _ i r hr
    have hempty : (UsageSys.init : UsageSys ρ).saved kind j = ∅ := by
      cases j with
      | zero => rfl
      | succ j => simp [saved, UsageSys.init, UsageManager.empty]
    rw [hempty] at hr
    exact absurd hr (by simp)
  covered := fun i stats hrow => absurd hrow (by simp [UsageSys.init, UsageManager.empty])

theorem queue_ne (h : Consistent kind s) : s.queue ≠ [] := by
  have hpos := List.length_pos_of_ne_nil h.parts
  have haligned := h.aligned
  exact List.ne_nil_of_length_pos (by omega)

/-- Rows in memory have ids that were given out. -/
theorem row_bounds (h : Consistent kind s) {i : Int} {stats : ρ}
    (hrow : s.manager.rows[i]? = some stats) : 0 < i ∧ i ≤ s.manager.lastStatId := by
  obtain ⟨r, hr, -⟩ := h.covered i stats hrow
  exact (h.keyed _ le_rfl i r hr).2

/-- A row is set in memory and queued, under an id that was given out. -/
theorem put (h : Consistent kind s) {i : Int} {r : ρ} (htable : s'.table = s.table)
    (hcalls : s'.calls = s.calls)
    (hparts : s'.manager.parts = (s.manager.put i r).parts)
    (hrows : s'.manager.rows = s.manager.rows.insert i r)
    (hqueue : s'.queue = s.queue ∨
      ∃ callInfo, s'.queue = modifyLast (fun part => part ++ [callInfo]) s.queue)
    (hindex : Indexed kind.id kind.key s'.manager)
    (hlast : s.manager.lastStatId ≤ s'.manager.lastStatId)
    (hid : kind.id r = i) (hpos : 0 < i) (hle : i ≤ s'.manager.lastStatId) :
    Consistent kind s' := by
  have hlength : s'.manager.parts.length = s.manager.parts.length := by
    rw [hparts]
    exact Ledger.length_parts_put _ _ _
  have hqlength : s'.queue.length = s.queue.length := by
    rcases hqueue with hqueue | ⟨callInfo, hqueue⟩
    · rw [hqueue]
    · rw [hqueue, length_modifyLast]
  -- the parts but for the last one stay
  have hqcalls : ∀ j < s.manager.parts.length, s'.savedCalls j = s.savedCalls j := by
    intro j hj
    rcases hqueue with hqueue | ⟨callInfo, hqueue⟩
    · rw [savedCalls, savedCalls, hqueue, hcalls]
    · exact savedCalls_add (h.aligned ▸ hj) hcalls hqueue
  have hsaved : s'.allSaved kind = (s.allSaved kind).insert i (kind.stored r) :=
    allSaved_put h.parts htable hparts
  refine ⟨hindex, ?_, ?_, h.last.trans hlast, ?_, ?_⟩
  · exact List.ne_nil_of_length_pos (hlength ▸ List.length_pos_of_ne_nil h.parts)
  · rw [hqlength, hlength, h.aligned]
  · refine h.keyed.last h.aligned hlength hqlength (fun _ _ hk => hk.mono hlast) ?_ ?_
    · exact fun j hj => ⟨saved_put hj htable hparts, hqcalls j hj⟩
    · rw [hsaved]
      exact ((h.keyed _ le_rfl).mono hlast).insert (by simp [hid]) hpos hle
  · intro i' stats hrow
    rw [hsaved]
    rw [hrows] at hrow
    rw [IntMap.getElem?_insert] at hrow ⊢
    by_cases hi : i = i'
    · rw [if_pos hi, Option.some.injEq] at hrow
      rw [if_pos hi, hrow]
      exact ⟨_, rfl, Or.inr rfl⟩
    · rw [if_neg hi] at hrow
      rw [if_neg hi]
      exact h.covered i' stats hrow

theorem lookup (h : Consistent kind s) (q : kind.Query) :
    Consistent kind { s with manager := (kind.getCurrent s.manager q).2 } := by
  have hindex : Indexed kind.id kind.key (kind.getCurrent s.manager q).2 :=
    h.index.getCurrent fun i => ⟨kind.id_createStats q i, kind.key_createStats q i⟩
  have hlast := h.last
  rcases s.manager.getCurrent_cases (kind.queryKey q) (kind.isCurrent q) (kind.createStats q) with
    ⟨_, _, _, _, heq⟩ | heq
  · have hsame : (kind.getCurrent s.manager q).2 = s.manager := congrArg Prod.snd heq
    rw [hsame]
    exact h
  · have hnew : (kind.getCurrent s.manager q).2 = _ := congrArg Prod.snd heq
    rw [hnew] at hindex ⊢
    refine h.put rfl rfl rfl rfl (Or.inl rfl) hindex ?_ (kind.id_createStats q _) ?_ ?_
    · show s.manager.lastStatId ≤ s.manager.lastStatId + 1
      omega
    · omega
    · exact le_refl _

/-- A call that is booked nowhere is only queued. -/
theorem log (h : Consistent kind s) (callInfo : CallInfo) :
    Consistent kind
      { s with queue := modifyLast (fun part => part ++ [callInfo]) s.queue } := by
  have hlength : (modifyLast (fun part => part ++ [callInfo]) s.queue).length = s.queue.length :=
    length_modifyLast _ _
  refine ⟨h.index, h.parts, hlength.trans h.aligned, h.last, ?_, h.covered⟩
  refine h.keyed.last h.aligned rfl hlength (fun _ _ hk => hk) ?_ (h.keyed _ le_rfl)
  exact fun j hj => ⟨rfl, savedCalls_add (h.aligned ▸ hj) rfl rfl⟩

theorem add (h : Consistent kind s) (callInfo : CallInfo) :
    Consistent kind
      { s with
        manager := kind.add s.manager callInfo
        queue := modifyLast (fun part => part ++ [callInfo]) s.queue } := by
  have hindex : Indexed kind.id kind.key (kind.add s.manager callInfo) :=
    h.index.addBooked _ (fun stats => kind.id_withTotals _ stats)
      (fun stats => kind.key_withTotals _ stats)
  rcases s.manager.addBooked_cases (kind.bookedRow callInfo) (kind.update callInfo.call) with
    ⟨-, heq⟩ | ⟨i, stats, -, hrow, heq⟩
  · have hsame : kind.add s.manager callInfo = s.manager := heq
    rw [hsame]
    exact h.log callInfo
  · have hput : kind.add s.manager callInfo = s.manager.putRow i (kind.update callInfo.call stats) :=
      heq
    rw [hput] at hindex ⊢
    obtain ⟨hpos, hle⟩ := h.row_bounds hrow
    have hid : kind.id (kind.update callInfo.call stats) = i :=
      (kind.id_withTotals _ stats).trans (h.index.row i stats hrow).1
    exact h.put rfl rfl rfl rfl (Or.inr ⟨_, rfl⟩) hindex le_rfl hid hpos hle

theorem createNewPartition (h : Consistent kind s) :
    Consistent kind
      { s with manager := s.manager.createNewPartition, queue := s.queue ++ [[]] } := by
  have hparts : s.manager.createNewPartition.parts = s.manager.parts ++ [∅] := rfl
  refine ⟨h.index.congr rfl rfl rfl, ?_, ?_, h.last, ?_, ?_⟩
  · simp [hparts]
  · simp [hparts, h.aligned]
  · exact h.keyed.createNewPartition h.aligned
  · intro i stats hrow
    obtain ⟨r, hr, hcases⟩ := h.covered i stats hrow
    refine ⟨r, ?_, hcases⟩
    rw [allSaved, saved, List.take_of_length_le (by simp)] at hr ⊢
    simpa [hparts, flush_concat] using hr

theorem save (h : Consistent kind s) (h2 : 2 ≤ s.manager.parts.length) :
    Consistent kind (s.save kind) := by
  have hlength : (s.save kind).manager.parts.length = s.manager.parts.length - 1 :=
    List.length_tail
  have hqlength : (s.save kind).queue.length = s.queue.length - 1 := List.length_tail
  have haligned := h.aligned
  refine ⟨h.index.congr rfl rfl rfl, ?_, ?_, h.last, h.keyed.save h.parts h.aligned, ?_⟩
  · exact List.ne_nil_of_length_pos (by omega)
  · omega
  · intro i stats hrow
    have hfull : (s.save kind).allSaved kind = s.allSaved kind := by
      rw [allSaved, saved_save h.parts, hlength, Nat.sub_add_cancel (by omega)]
      rfl
    rw [hfull]
    exact h.covered i stats hrow

theorem load {lastSaveCallTime : Int} {res : List ρ} (hkeyed : kind.Keyed s.manager.lastStatId s.table)
    (h : kind.Answers s.table lastSaveCallTime res) : Consistent kind (s.load kind res) := by
  have hparts : (s.load kind res).manager.parts = [∅] := kind.foldl_loadRow_parts _ res
  have hlast : (s.load kind res).manager.lastStatId = kind.maxId s.table :=
    kind.foldl_loadRow_lastStatId _ res
  refine ⟨UsageKind.load_indexed h hkeyed, by simp [hparts], ?_, ?_, ?_, ?_⟩
  · rw [hparts]
    rfl
  · rw [hlast]
    exact hkeyed.maxId_nonneg
  · refine Prefixes.load ?_
    show kind.Keyed (s.load kind res).manager.lastStatId s.table
    rw [hlast]
    exact hkeyed.maxId
  · intro i stats hrow
    obtain ⟨hmem, hid⟩ := (UsageKind.load_rows h hkeyed).mp hrow
    obtain ⟨⟨i', hi'⟩, -⟩ := (h.mem_iff stats).mp hmem
    have heq : i' = i := (hkeyed i' stats hi').1.symm.trans hid
    refine ⟨stats, ?_, Or.inl rfl⟩
    rw [allSaved, saved, hparts]
    simpa [UsageSys.load, heq] using hi'

/-- **What one step keeps.** -/
theorem step [DecidableEq ρ] {a : UsageAct ρ kind.Query} (h : Consistent kind s)
    (hstep : s.step kind a = some s') : Consistent kind s' := by
  cases a with
  | lookup q =>
      rw [← Option.some.inj hstep]
      exact h.lookup q
  | add callInfo =>
      rw [← Option.some.inj hstep]
      exact h.add callInfo
  | createNewPartition =>
      rw [← Option.some.inj hstep]
      exact h.createNewPartition
  | save =>
      obtain ⟨h2, heq⟩ := Option.ite_none_right_eq_some.mp hstep
      rw [← Option.some.inj heq]
      exact h.save h2
  | load lastSaveCallTime res =>
      obtain ⟨hanswers, heq⟩ := Option.ite_none_right_eq_some.mp hstep
      rw [← Option.some.inj heq]
      exact Consistent.load h.keyed.stored hanswers
  | recalc fromId lastSaveCallTime res =>
      obtain ⟨⟨-, hanswers⟩, heq⟩ := Option.ite_none_right_eq_some.mp hstep
      rw [← Option.some.inj heq]
      -- `recalc` keeps the manager, whose last id still bounds the table it leaves
      refine Consistent.load (s := (s.recalc kind fromId).1) ?_ hanswers
      exact UsageKind.Keyed.recalc h.keyed.stored _ _

/-- **What every run keeps.** -/
theorem run [DecidableEq ρ] {as : List (UsageAct ρ kind.Query)}
    (hrun : Lib.run (UsageSys.step kind) UsageSys.init as = some s) : Consistent kind s :=
  run_invariant (fun _ _ _ h hstep => h.step hstep) Consistent.init hrun

end Consistent
end UsageSys
end VoipBill
