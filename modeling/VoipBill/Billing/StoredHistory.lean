import VoipBill.Billing.Recalc

/-!
# Stored histories

A history is a run without recalculations in which every call is priced.  When its
calls are all stored, every counter exists twice: as the manager goes on with it
(`UsageSys.runtimeRow`), and in the table, where its credit has been rounded.

* `Settled`: a row of which no call waits to be saved is saved as it is;
* `Rounded`: a table that was only written by saves holds credits of six digits;
* `Stored.row`: the two forms of a counter differ by the rounding of the credit.
-/

namespace VoipBill

open Lib

/-- Credits of six digits. -/
def UsageKind.Rounded {ρ : Type} (kind : UsageKind ρ) (table : IntMap ρ) : Prop :=
  ∀ (i : Int) (r : ρ), table[i]? = some r → HasDigits streamDigits (kind.totals r).usedCredit

theorem UsageKind.Rounded.insert {ρ : Type} {kind : UsageKind ρ} {table : IntMap ρ}
    (h : kind.Rounded table) (i : Int) (r : ρ) :
    kind.Rounded (table.insert i (kind.stored r)) := by
  intro i' r' hr'
  rw [IntMap.getElem?_insert] at hr'
  by_cases hi : i = i'
  · rw [if_pos hi, Option.some.injEq] at hr'
    rw [← hr', kind.totals_stored, UsageTotals.stored_usedCredit]
    exact hasDigits_toSignificant (by decide) _
  · rw [if_neg hi] at hr'
    exact h i' r' hr'

namespace UsageSys

variable {ρ : Type} {kind : UsageKind ρ} {s s' : UsageSys ρ}

/-- The counter a manager goes on with: the row in memory; a row that `load` leaves out
is only in the table. -/
def runtimeRow (s : UsageSys ρ) (i : Int) : Option ρ := s.manager.rows[i]? <|> s.table[i]?

/-- However many partitions are saved: a row that has counted calls, none of which waits
in the other partitions, does not wait there either. -/
def Settled (kind : UsageKind ρ) (s : UsageSys ρ) : Prop :=
  ∀ j ≤ s.manager.parts.length, ∀ i, kind.counted i (s.savedCalls j) ≠ [] →
    (∀ c ∈ (s.queue.drop j).flatten, kind.bookedRow c ≠ some i) →
    (s.saved kind j)[i]? = (s.allSaved kind)[i]?

namespace Settled

/-- Without anything queued there is one state only. -/
theorem of_constant (h : ∀ j ≤ s.manager.parts.length, s.saved kind j = s.table) :
    s.Settled kind := by
  intro j hj i _ _
  rw [h j hj, allSaved, h _ le_rfl]

/-- A queued call leaves the states before it as they are. -/
theorem log (h : s.Settled kind) (haligned : s.queue.length = s.manager.parts.length)
    (callInfo : CallInfo) :
    Settled kind { s with queue := modifyLast (fun part => part ++ [callInfo]) s.queue } := by
  intro j hj i hcounted hwaiting
  rcases Nat.lt_or_eq_of_le hj with hlt | rfl
  · have hqueue : j < s.queue.length := haligned ▸ hlt
    refine h j hj i ?_ ?_
    · have hsame : UsageSys.savedCalls
          { s with queue := modifyLast (fun part => part ++ [callInfo]) s.queue } j =
            s.savedCalls j := savedCalls_add hqueue rfl rfl
      exact hsame ▸ hcounted
    · intro c hc
      refine hwaiting c ?_
      show c ∈ ((modifyLast (fun part => part ++ [callInfo]) s.queue).drop j).flatten
      rw [drop_modifyLast _ hqueue, flatten_modifyLast_append _ (by simpa using hqueue)]
      exact List.mem_append_left _ hc
  · rfl

/-- A row is queued: a new one, or one that has counted a call queued with it. -/
theorem put {i : Int} {r : ρ} (h : s.Settled kind) (hne : s.manager.parts ≠ [])
    (hcalls : ∀ j < s.manager.parts.length, s'.savedCalls j = s.savedCalls j)
    (hqueue : ∀ j < s.manager.parts.length, ∀ c ∈ (s.queue.drop j).flatten,
      c ∈ (s'.queue.drop j).flatten)
    (htable : s'.table = s.table) (hparts : s'.manager.parts = (s.manager.put i r).parts)
    (hrow : ∀ j < s.manager.parts.length, kind.counted i (s.savedCalls j) ≠ [] →
      ∃ c ∈ (s'.queue.drop j).flatten, kind.bookedRow c = some i) :
    s'.Settled kind := by
  have hlength : s'.manager.parts.length = s.manager.parts.length := by
    rw [hparts]
    exact Ledger.length_parts_put _ _ _
  intro j hj i' hcounted hwaiting
  rcases Nat.lt_or_eq_of_le hj with hlt | rfl
  · rw [hlength] at hlt
    rw [hcalls j hlt] at hcounted
    rw [saved_put hlt htable hparts, allSaved_put hne htable hparts]
    by_cases hi : i = i'
    · obtain ⟨c, hc, hbooked⟩ := hrow j hlt (hi ▸ hcounted)
      exact absurd (hi ▸ hbooked) (hwaiting c hc)
    · rw [IntMap.getElem?_insert_of_ne _ hi]
      exact h j hlt.le i' hcounted fun c hc => hwaiting c (hqueue j hlt c hc)
  · rfl

theorem createNewPartition (h : s.Settled kind)
    (haligned : s.queue.length = s.manager.parts.length) :
    Settled kind
      { s with manager := s.manager.createNewPartition, queue := s.queue ++ [[]] } := by
  intro j hj i hcounted hwaiting
  have hparts : (s.manager.createNewPartition).parts = s.manager.parts ++ [∅] := rfl
  rcases Nat.lt_or_eq_of_le hj with hlt | rfl
  · have hle : j ≤ s.manager.parts.length := by
      rw [hparts, List.length_append, List.length_singleton] at hlt
      omega
    have hsame : ∀ j ≤ s.manager.parts.length,
        UsageSys.saved kind { s with
          manager := s.manager.createNewPartition, queue := s.queue ++ [[]] } j =
            s.saved kind j := by
      intro j hj
      simp only [saved, hparts, List.map_append]
      rw [List.take_append_of_le_length (by simpa using hj)]
    have hall : UsageSys.allSaved kind { s with
        manager := s.manager.createNewPartition, queue := s.queue ++ [[]] } =
          s.allSaved kind := by
      rw [allSaved, allSaved, saved, saved, List.take_of_length_le (by simp [hparts]),
        List.take_of_length_le (by simp), hparts]
      simp [flush_concat]
    rw [hsame j hle, hall]
    refine h j hle i ?_ ?_
    · rw [savedCalls] at hcounted ⊢
      rwa [List.take_append_of_le_length (by omega)] at hcounted
    · intro c hc
      refine hwaiting c ?_
      show c ∈ ((s.queue ++ [[]]).drop j).flatten
      rw [List.drop_append_of_le_length (by omega), List.flatten_append]
      exact List.mem_append_left _ hc
  · rfl

theorem save (h : s.Settled kind) (hne : s.manager.parts ≠ [])
    (haligned : s.queue.length = s.manager.parts.length) : (s.save kind).Settled kind := by
  have hlength : (s.save kind).manager.parts.length = s.manager.parts.length - 1 :=
    List.length_tail
  have hpos : 0 < s.manager.parts.length := List.length_pos_of_ne_nil hne
  have hall : (s.save kind).allSaved kind = s.allSaved kind := by
    rw [allSaved, saved_save hne, hlength, Nat.sub_add_cancel hpos]
    rfl
  intro j hj i hcounted hwaiting
  have hqueue : s.queue ≠ [] := List.ne_nil_of_length_pos (by omega)
  rw [saved_save hne, hall]
  rw [savedCalls_save hqueue] at hcounted
  refine h (j + 1) (by omega) i hcounted ?_
  intro c hc
  refine hwaiting c ?_
  show c ∈ (s.queue.tail.drop j).flatten
  rw [← List.drop_one, List.drop_drop, Nat.add_comm]
  exact hc

theorem load (res : List ρ) : (s.load kind res).Settled kind := by
  refine of_constant fun j _ => ?_
  have hparts : (s.load kind res).manager.parts = [∅] := kind.foldl_loadRow_parts _ res
  rw [saved, hparts]
  cases j with
  | zero => rfl
  | succ j => simp [UsageSys.load]

end Settled

/-! ## What every history keeps -/

/-- The steps of a history: no recalculation, and calls that are priced. -/
def Adding (kind : UsageKind ρ) (s : UsageSys ρ) : UsageAct ρ kind.Query → Prop
  | .add callInfo => s.Priced kind callInfo
  | .recalc _ _ _ => False
  | _ => True

structure HistorySys (kind : UsageKind ρ) (s : UsageSys ρ) : Prop where
  books : CountedSys kind (fun _ => True) s
  rounded : s.Prefixes kind fun table _ => kind.Rounded table
  settled : s.Settled kind

namespace HistorySys

theorem init : HistorySys kind (UsageSys.init : UsageSys ρ) where
  books := CountedSys.init
  rounded := by
    intro j _ i r hr
    have hempty : (UsageSys.init : UsageSys ρ).saved kind j = ∅ := by
      cases j with
      | zero => rfl
      | succ j => simp [saved, UsageSys.init, UsageManager.empty]
    rw [hempty] at hr
    exact absurd hr (by simp)
  settled := Settled.of_constant fun j _ => by
    cases j with
    | zero => rfl
    | succ j => simp [saved, UsageSys.init, UsageManager.empty]

/-- A new row has counted nothing, however many partitions are saved. -/
theorem counted_new (h : HistorySys kind s) {j : Nat} (hj : j ≤ s.manager.parts.length) :
    kind.counted (s.manager.lastStatId + 1) (s.savedCalls j) = [] := by
  by_contra hne
  obtain ⟨c, hc⟩ := List.exists_mem_of_ne_nil _ hne
  obtain ⟨hcalls, hbooked⟩ := UsageKind.mem_counted.mp hc
  obtain ⟨r, hr⟩ := (h.books.counted j hj).booked c hcalls _ hbooked
  have hle := (h.books.consistent.keyed j hj _ r hr).2.2
  omega

theorem rounded_put {i : Int} {r : ρ} (h : HistorySys kind s)
    (htable : s'.table = s.table) (hparts : s'.manager.parts = (s.manager.put i r).parts) :
    s'.Prefixes kind fun table _ => kind.Rounded table := by
  have hlength : s'.manager.parts.length = s.manager.parts.length := by
    rw [hparts]
    exact Ledger.length_parts_put _ _ _
  intro j hj
  rcases Nat.lt_or_eq_of_le hj with hlt | rfl
  · rw [saved_put (hlength ▸ hlt) htable hparts]
    exact h.rounded j (hlength ▸ hj)
  · show kind.Rounded (s'.allSaved kind)
    rw [allSaved_put h.books.consistent.parts htable hparts]
    exact UsageKind.Rounded.insert (h.rounded _ le_rfl) i r

theorem lookup (h : HistorySys kind s) (q : kind.Query) :
    HistorySys kind { s with manager := (kind.getCurrent s.manager q).2 } := by
  have hbooks := h.books.lookup q
  rcases s.manager.getCurrent_cases (kind.queryKey q) (kind.isCurrent q) (kind.createStats q) with
    ⟨_, _, _, _, heq⟩ | heq
  · have hsame : (kind.getCurrent s.manager q).2 = s.manager := congrArg Prod.snd heq
    rw [hsame]
    exact h
  · have hnew : (kind.getCurrent s.manager q).2 = _ := congrArg Prod.snd heq
    rw [hnew] at hbooks ⊢
    refine ⟨hbooks, h.rounded_put rfl rfl, ?_⟩
    refine h.settled.put h.books.consistent.parts (fun _ _ => rfl) (fun _ _ _ hc => hc) rfl rfl ?_
    exact fun j hj hcounted => absurd (h.counted_new hj.le) hcounted

theorem add {callInfo : CallInfo} (h : HistorySys kind s) (hpriced : s.Priced kind callInfo) :
    HistorySys kind
      { s with
        manager := kind.add s.manager callInfo
        queue := modifyLast (fun part => part ++ [callInfo]) s.queue } := by
  have hbooks := h.books.add trivial hpriced
  have hlog := h.settled.log h.books.consistent.aligned callInfo
  rcases s.manager.addBooked_cases (kind.bookedRow callInfo) (kind.update callInfo.call) with
    ⟨-, heq⟩ | ⟨i, stats, hbooked, -, heq⟩
  · have hsame : kind.add s.manager callInfo = s.manager := heq
    rw [hsame] at hbooks ⊢
    exact ⟨hbooks, h.rounded, hlog⟩
  · have hput : kind.add s.manager callInfo =
        s.manager.putRow i (kind.update callInfo.call stats) := heq
    rw [hput] at hbooks ⊢
    have hqueued : ∀ j < s.manager.parts.length,
        ((modifyLast (fun part => part ++ [callInfo]) s.queue).drop j).flatten =
          (s.queue.drop j).flatten ++ [callInfo] := by
      intro j hj
      have hqueue : j < s.queue.length := h.books.consistent.aligned ▸ hj
      rw [drop_modifyLast _ hqueue, flatten_modifyLast_append _ (by simpa using hqueue)]
    refine ⟨hbooks, h.rounded_put rfl rfl, ?_⟩
    refine h.settled.put h.books.consistent.parts ?_ ?_ rfl rfl ?_
    · exact fun j hj => savedCalls_add (h.books.consistent.aligned ▸ hj) rfl rfl
    · intro j hj c hc
      rw [hqueued j hj]
      exact List.mem_append_left _ hc
    · intro j hj _
      refine ⟨callInfo, ?_, hbooked⟩
      rw [hqueued j hj]
      exact List.mem_append_right _ List.mem_cons_self

theorem step [DecidableEq ρ] {a : UsageAct ρ kind.Query} (h : HistorySys kind s)
    (ha : s.Adding kind a) (hstep : s.step kind a = some s') : HistorySys kind s' := by
  cases a with
  | lookup q =>
      rw [← Option.some.inj hstep]
      exact h.lookup q
  | add callInfo =>
      rw [← Option.some.inj hstep]
      exact h.add ha
  | createNewPartition =>
      have hbooks := h.books.step (by simp) (by simp) hstep
      rw [← Option.some.inj hstep] at hbooks ⊢
      exact ⟨hbooks, h.rounded.createNewPartition h.books.consistent.aligned,
        h.settled.createNewPartition h.books.consistent.aligned⟩
  | save =>
      have hbooks := h.books.step (by simp) (by simp) hstep
      obtain ⟨-, heq⟩ := Option.ite_none_right_eq_some.mp hstep
      rw [← Option.some.inj heq] at hbooks ⊢
      have hparts := h.books.consistent.parts
      have haligned := h.books.consistent.aligned
      exact ⟨hbooks, h.rounded.save hparts haligned, h.settled.save hparts haligned⟩
  | load lastSaveCallTime res =>
      have hbooks := h.books.step (by simp) (by simp) hstep
      obtain ⟨-, heq⟩ := Option.ite_none_right_eq_some.mp hstep
      rw [← Option.some.inj heq] at hbooks ⊢
      exact ⟨hbooks, Prefixes.load h.rounded.stored, Settled.load res⟩
  | recalc fromId lastSaveCallTime res => exact ha.elim

end HistorySys

/-! ## Histories whose calls are all stored -/

/-- A history all of whose calls are stored, and what the database then holds. -/
structure Stored [DecidableEq ρ] (kind : UsageKind ρ) (s : UsageSys ρ) (table : IntMap ρ)
    (callsRaw : List Call) : Prop where
  run : ∃ as, Meets (UsageSys.step kind) (Adding kind) init as ∧
    Lib.run (UsageSys.step kind) init as = some s
  queued : s.queue.flatten = []
  table : table = s.table
  callsRaw : callsRaw = s.calls.map (·.call.stored)

namespace Stored

variable [DecidableEq ρ] {table : IntMap ρ} {callsRaw : List Call}

theorem history (h : Stored kind s table callsRaw) : HistorySys kind s := by
  obtain ⟨as, hok, hrun⟩ := h.run
  exact run_invariant_of_meets (fun _ _ _ h ha hstep => h.step ha hstep) HistorySys.init hok hrun

theorem counted (h : Stored kind s table callsRaw) :
    kind.Counted (fun _ => True) s.table s.calls :=
  h.history.books.counted.stored

theorem keyed (h : Stored kind s table callsRaw) :
    kind.Keyed s.manager.lastStatId s.table :=
  h.history.books.consistent.keyed.stored

/-- **The two forms of a counter.**  A row with calls is in the table as the manager has
it, with its credit rounded. -/
theorem row (h : Stored kind s table callsRaw) {i : Int} {r : ρ}
    (hr : s.table[i]? = some r) (hne : kind.counted i s.calls ≠ []) :
    ∃ stats, s.runtimeRow i = some stats ∧
      (kind.totals r).usedSeconds = (kind.totals stats).usedSeconds ∧
      (kind.totals r).usedCredit = toSignificant streamDigits (kind.totals stats).usedCredit := by
  have hdigits : toSignificant streamDigits (kind.totals r).usedCredit =
      (kind.totals r).usedCredit :=
    (toSignificant_eq_self_iff _ _).mpr (h.history.rounded.stored i r hr)
  cases hrow : s.manager.rows[i]? with
  | none => exact ⟨r, by rw [runtimeRow, hrow, hr]; rfl, rfl, hdigits.symm⟩
  | some stats =>
      refine ⟨stats, by rw [runtimeRow, hrow]; rfl, ?_⟩
      -- nothing of the row waits, so the row in memory is the one in the table
      have hsettled := h.history.settled 0 (Nat.zero_le _) i (by simpa using hne)
        (by simp [h.queued])
      obtain ⟨r', hr', hstored⟩ := h.history.books.consistent.covered i stats hrow
      rw [saved_zero, hr, hr', Option.some.injEq] at hsettled
      rcases hstored with heq | heq
      · rw [hsettled, heq] at hdigits ⊢
        exact ⟨rfl, hdigits.symm⟩
      · rw [hsettled, heq, kind.totals_stored]
        exact ⟨rfl, rfl⟩

end Stored
end UsageSys
end VoipBill
