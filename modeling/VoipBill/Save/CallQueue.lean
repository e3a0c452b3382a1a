import VoipBill.Save.SaveThread

/-!
# From the queue to the tables of the months

What the steps of the billing and the save thread do to the calls alone.

* `SaveInv` is what every step keeps: the six queues are aligned, and a save in
  progress has prepared the queries of partition 0.
* `queuedCalls` are the added calls that no commit has written.
* `SaveInv.addCall` and `SaveInv.saveStep` are the only facts about the steps
  that the results on stored and queued calls use: adding appends to the queue,
  and a step of the save thread moves a part from its front to the database.
-/

namespace VoipBill

open Lib

/-- Calls that are added and not written, oldest first. -/
def BillingSys.queuedCalls (s : BillingSys) : List Call :=
  (s.data.calls.realtimeCallsParts.drop s.saver.written.toNat).flatten

/-- All stored calls, month by month. -/
def CallsDb.storedCalls (db : CallsDb) : List Call := IntMap.allRows db.callsRaw

/-- `db'` has the calls of `part` on top of those of `db`. -/
def CallsDb.Extends (db db' : CallsDb) (part : List Call) : Prop :=
  db'.callsRaw = IntMap.appendRows db.callsRaw (CallsManager.prepareCalls part).1

namespace CallsDb

variable {db db' : CallsDb} {part : List Call}

theorem extends_nil (db : CallsDb) : db.Extends db [] := by
  simp [Extends, CallsManager.prepareCalls, IntMap.appendRows_empty]

/-- Each call is in the table of its month. -/
theorem Extends.callsOf (h : db.Extends db' part) (month : Int) :
    db'.callsOf month = db.callsOf month ++ CallsManager.callsOfMonth part month := by
  rw [CallsDb.callsOf, h, IntMap.getElem?_appendRows, CallsManager.getD_prepareCalls,
    CallsDb.callsOf]

theorem Extends.storedCalls (h : db.Extends db' part) :
    db'.storedCalls.Perm (db.storedCalls ++ part) := by
  rw [CallsDb.storedCalls, h]
  exact (IntMap.perm_allRows_appendRows _ _).trans
    ((CallsManager.perm_prepareCalls part).append_left _)

end CallsDb

/-! ## What every step keeps -/

structure SaveInv (s : BillingSys) (n : Nat) : Prop where
  aligned : s.data.Aligned n
  written_lt : s.saver.written.toNat < n
  prepared : ∀ done q, s.saver = .preparing done q → 2 ≤ n ∧ q.Prepared done s.data

/-- Nothing is queued and no save is in progress. -/
structure BillingSys.Idle (s : BillingSys) : Prop where
  calls : s.data.calls.realtimeCallsParts = [[]]
  statsAccount : s.data.statsAccount.parts = [∅]
  statsFreemin : s.data.statsFreemin.parts = [∅]
  statsPackage : s.data.statsPackage.parts = [∅]
  statsTrunkSettings : s.data.statsTrunkSettings.parts = [∅]
  statsNNPPackageMinute : s.data.statsNNPPackageMinute.parts = [∅]
  saver : s.saver = .idle

namespace SaveInv

variable {s : BillingSys} {n : Nat}

theorem init (h : s.Idle) : SaveInv s 1 where
  aligned := ⟨by simp [h.calls], by simp [h.statsAccount], by simp [h.statsFreemin],
    by simp [h.statsPackage], by simp [h.statsTrunkSettings], by simp [h.statsNNPPackageMinute]⟩
  written_lt := by simp [h.saver, Saver.written]
  prepared := by
    intro done q hsaver
    rw [h.saver] at hsaver
    exact absurd hsaver (by simp)

theorem written_lt_length (h : SaveInv s n) :
    s.saver.written.toNat < s.data.calls.realtimeCallsParts.length := by
  rw [h.aligned.calls]
  exact h.written_lt

theorem enqueue (h : SaveInv s n) (callInfo : CallInfo) :
    SaveInv { s with data := s.data.enqueue callInfo } n where
  aligned := h.aligned.enqueue callInfo
  written_lt := h.written_lt
  prepared := by
    intro done q hsaver
    obtain ⟨h2, hq⟩ := h.prepared done q hsaver
    exact ⟨h2, hq.congr (SaveQueries.ofContainer_enqueue h.aligned h2 callInfo)⟩

theorem createNewPartition (h : SaveInv s n) :
    SaveInv { s with data := s.data.createNewPartition } (n + 1) where
  aligned := h.aligned.createNewPartition
  written_lt := h.written_lt.trans (Nat.lt_succ_self n)
  prepared := by
    intro done q hsaver
    obtain ⟨h2, hq⟩ := h.prepared done q hsaver
    exact ⟨by omega, hq.congr (SaveQueries.ofContainer_createNewPartition h.aligned (by omega))⟩

theorem lookup (h : SaveInv s n) (l : Lookup) :
    SaveInv { s with data := s.data.lookup l } n where
  aligned := h.aligned.lookup l
  written_lt := h.written_lt
  prepared := by
    intro done q hsaver
    obtain ⟨h2, hq⟩ := h.prepared done q hsaver
    exact ⟨h2, hq.congr (SaveQueries.ofContainer_lookup h.aligned h2 l)⟩

/-- Only the position of the save thread changes, outside of a commit. -/
theorem setSaver (h : SaveInv s n) (hwritten : s.saver.written = false) {saver : Saver}
    (hsaver : saver.written = false)
    (hprepared : ∀ done q, saver = .preparing done q → 2 ≤ n ∧ q.Prepared done s.data) :
    SaveInv { s with saver := saver } n where
  aligned := h.aligned
  written_lt := by simpa only [hsaver, hwritten] using h.written_lt
  prepared := hprepared

/-- The queries of a commit are those of partition 0. -/
theorem queries_eq (h : SaveInv s n) {q : SaveQueries} (hsaver : s.saver = .preparing 6 q) :
    2 ≤ n ∧ q = SaveQueries.ofContainer s.data := by
  obtain ⟨h2, hq⟩ := h.prepared 6 q hsaver
  exact ⟨h2, hq.eq_ofContainer⟩

theorem commit (h : SaveInv s n) {q : SaveQueries} (hsaver : s.saver = .preparing 6 q) :
    SaveInv { s with db := q.execute s.db, saver := .committed } n where
  aligned := h.aligned
  written_lt := (h.queries_eq hsaver).1
  prepared := by
    intro done q hq
    exact absurd hq (by simp)

theorem remove (h : SaveInv s n) (hsaver : s.saver = .committed) :
    SaveInv { s with data := s.data.removePartitionAfterSave, saver := .idle } (n - 1) where
  aligned := h.aligned.removePartitionAfterSave
  written_lt := by
    have hlt := h.written_lt
    simp only [hsaver, Saver.written, Bool.toNat_false, Bool.toNat_true] at hlt ⊢
    omega
  prepared := by
    intro done q hq
    exact absurd hq (by simp)

/-- What a step of the save thread does to an aligned state: it moves on outside of a commit,
possibly with a partition opened, or commits, or removes the committed partition. -/
theorem saveStep_cases (h : SaveInv s n) {s' : BillingSys} {a : SaveAct}
    (hs : s.saveStep a = some s') :
    (∃ saver, s.saver.written = false ∧ saver.written = false ∧
      (∀ done q, saver = .preparing done q → 2 ≤ n ∧ q.Prepared done s.data) ∧
      s' = { s with saver := saver }) ∨
    (∃ saver, s.saver.written = false ∧ saver.written = false ∧
      (∀ done q, saver = .preparing done q →
        2 ≤ n + 1 ∧ q.Prepared done s.data.createNewPartition) ∧
      s' = { s with data := s.data.createNewPartition, saver := saver }) ∨
    (∃ q, s.saver = .preparing 6 q ∧ s' = { s with db := q.execute s.db, saver := .committed }) ∨
    (s.saver = .committed ∧
      s' = { s with data := s.data.removePartitionAfterSave, saver := .idle }) := by
  obtain ⟨d, -, hidle, hstart, rfl⟩ | ⟨done, q, -, hsaver, hdone, rfl⟩ | ⟨q, -, hsaver, rfl⟩ |
    ⟨done, q, -, hsaver, rfl⟩ | ⟨-, hsaver, rfl⟩ := BillingSys.saveStep_cases hs
  · -- start: afterwards at least two partitions are open
    have hwritten : s.saver.written = false := by rw [hidle]; rfl
    have hlt := h.written_lt
    have hcalls := h.aligned.calls
    obtain ⟨-, ⟨rfl, hone⟩ | ⟨rfl, hone⟩⟩ := DataBillingContainer.saveStart_cases hstart
    · refine Or.inl ⟨_, hwritten, rfl, ?_, rfl⟩
      rintro done q ⟨rfl, rfl⟩
      exact ⟨by omega, SaveQueries.prepared_zero _ _⟩
    · refine Or.inr (Or.inl ⟨_, hwritten, rfl, ?_, rfl⟩)
      rintro done q ⟨rfl, rfl⟩
      exact ⟨by omega, SaveQueries.prepared_zero _ _⟩
  · obtain ⟨h2, hq⟩ := h.prepared done q hsaver
    refine Or.inl ⟨_, by rw [hsaver]; rfl, rfl, ?_, rfl⟩
    rintro done' q' ⟨rfl, rfl⟩
    exact ⟨h2, hq.prepare hdone⟩
  · exact Or.inr (Or.inr (Or.inl ⟨q, hsaver, rfl⟩))
  · exact Or.inl ⟨_, by rw [hsaver]; rfl, rfl, by simp, rfl⟩
  · exact Or.inr (Or.inr (Or.inr ⟨hsaver, rfl⟩))

end SaveInv

/-! ## The queue -/

namespace BillingSys

variable {s : BillingSys} {n : Nat}

theorem queuedCalls_enqueue (h : SaveInv s n) (callInfo : CallInfo) :
    queuedCalls { s with data := s.data.enqueue callInfo } = s.queuedCalls ++ [callInfo.call] := by
  have hlt := h.written_lt_length
  have hne : s.data.calls.realtimeCallsParts.drop s.saver.written.toNat ≠ [] := by
    simpa using hlt
  simp only [queuedCalls, DataBillingContainer.enqueue, CallsManager.add_parts]
  rw [drop_modifyLast _ hlt, flatten_modifyLast_append _ hne]

theorem queuedCalls_createNewPartition (h : SaveInv s n) :
    queuedCalls { s with data := s.data.createNewPartition } = s.queuedCalls := by
  simp only [queuedCalls, DataBillingContainer.createNewPartition,
    CallsManager.createNewPartition_parts]
  rw [List.drop_append_of_le_length h.written_lt_length.le]
  simp

theorem queuedCalls_lookup (s : BillingSys) (l : Lookup) :
    queuedCalls { s with data := s.data.lookup l } = s.queuedCalls := by
  cases l <;> rfl

theorem queuedCalls_setSaver {saver : Saver} (h : s.saver.written = saver.written) :
    queuedCalls { s with saver := saver } = s.queuedCalls := by
  simp only [queuedCalls, h]

/-- A commit takes partition 0 off the queue. -/
theorem queuedCalls_commit (h : s.saver.written = false) (db : CallsDb) :
    s.queuedCalls = s.data.calls.realtimeCallsParts.headD [] ++
      queuedCalls { s with db := db, saver := .committed } := by
  have hwritten : Saver.committed.written = true := rfl
  simp only [queuedCalls, h, hwritten, Bool.toNat_false, Bool.toNat_true, List.drop_zero]
  cases s.data.calls.realtimeCallsParts with
  | nil => rfl
  | cons part rest => rfl

theorem queuedCalls_remove (h : s.saver = .committed) :
    queuedCalls { s with data := s.data.removePartitionAfterSave, saver := .idle } =
      s.queuedCalls := by
  simp [queuedCalls, h, Saver.written, DataBillingContainer.removePartitionAfterSave]

/-- The state after a call is added. -/
def addCall (s : BillingSys) (callInfo : CallInfo) : BillingSys :=
  { s with data := s.data.addCall callInfo }

end BillingSys

/-- Adding a call appends it to the queue. -/
theorem SaveInv.addCall {s : BillingSys} {n : Nat} (h : SaveInv s n) (callInfo : CallInfo) :
    (∃ n', SaveInv (s.addCall callInfo) n') ∧
      (s.addCall callInfo).queuedCalls = s.queuedCalls ++ [callInfo.call] := by
  have henqueue := h.enqueue callInfo
  have hqueued := BillingSys.queuedCalls_enqueue h callInfo
  rcases s.data.addCall_cases callInfo with heq | heq
  · rw [BillingSys.addCall, heq]
    exact ⟨⟨n, henqueue⟩, hqueued⟩
  · rw [BillingSys.addCall, heq]
    exact ⟨⟨n + 1, henqueue.createNewPartition⟩,
      (BillingSys.queuedCalls_createNewPartition henqueue).trans hqueued⟩

/-- A step of the save thread moves calls from the front of the queue to the
database. -/
theorem SaveInv.saveStep {s s' : BillingSys} {n : Nat} {a : SaveAct} (h : SaveInv s n)
    (hs : s.saveStep a = some s') :
    ∃ n' part, SaveInv s' n' ∧ s.queuedCalls = part ++ s'.queuedCalls ∧
      s.db.Extends s'.db part := by
  obtain ⟨saver, hwritten, hsaver, hprepared, rfl⟩ | ⟨saver, hwritten, hsaver, hprepared, rfl⟩ |
    ⟨q, hsaver, rfl⟩ | ⟨hsaver, rfl⟩ := h.saveStep_cases hs
  · refine ⟨n, [], h.setSaver hwritten hsaver hprepared, ?_, CallsDb.extends_nil _⟩
    exact (BillingSys.queuedCalls_setSaver (hwritten.trans hsaver.symm)).symm
  · refine ⟨n + 1, [], h.createNewPartition.setSaver hwritten hsaver hprepared, ?_,
      CallsDb.extends_nil _⟩
    have hsame : s.saver.written = saver.written := hwritten.trans hsaver.symm
    rw [List.nil_append, ← BillingSys.queuedCalls_createNewPartition h]
    exact (@BillingSys.queuedCalls_setSaver { s with data := s.data.createNewPartition } saver
      hsame).symm
  · obtain ⟨-, rfl⟩ := h.queries_eq hsaver
    refine ⟨n, s.data.calls.realtimeCallsParts.headD [], h.commit hsaver, ?_, rfl⟩
    exact BillingSys.queuedCalls_commit (by rw [hsaver]; rfl) _
  · exact ⟨n - 1, [], h.remove hsaver, (BillingSys.queuedCalls_remove hsaver).symm,
      CallsDb.extends_nil _⟩

end VoipBill
