import VoipBill.Billing.UsageStore

/-!
# Recalculation of the usage counters

A counter row counts the calls that the manager's `add` booked on it, in their
order.  `Counted` says so for a table and the calls stored beside it: the totals of
every row are those of its calls, the credit apart, which a save rounds.  Every step
of a manager keeps it, however many partitions are saved (`CountedSys.step`).

`recalc` computes the totals a second time, from the stored calls:

* for a saved history, the result is compared with the incremental totals;
* across whole runs with recalculations, what `recalc` writes into `min_call_id`
  decides which calls the next one sums.
-/

namespace VoipBill

open Lib

/-- What is counted without rounding. -/
def UsageTotals.withoutCredit (totals : UsageTotals) : UsageTotals :=
  { totals with usedCredit := 0 }

@[simp] theorem UsageTotals.withoutCredit_stored (totals : UsageTotals) :
    totals.stored.withoutCredit = totals.withoutCredit := rfl

theorem UsageTotals.withoutCredit_inj {t t' : UsageTotals}
    (h : t.withoutCredit = t'.withoutCredit) :
    t.usedSeconds = t'.usedSeconds ∧ t.minCallId = t'.minCallId ∧
      t.maxCallId = t'.maxCallId := by
  obtain ⟨hseconds, -, hmin, hmax⟩ := UsageTotals.mk.inj h
  exact ⟨hseconds, hmin, hmax⟩

/-- Counting a call does not look at the credit. -/
theorem UsageTotals.withoutCredit_add {t t' : UsageTotals}
    (h : t.withoutCredit = t'.withoutCredit) (seconds : Int) (credit : ℚ) (callId : Int) :
    (t.add seconds credit callId).withoutCredit = (t'.add seconds credit callId).withoutCredit := by
  obtain ⟨hseconds, hmin, -⟩ := withoutCredit_inj h
  simp only [add, withoutCredit, hseconds, hmin]

namespace UsageKind

variable {ρ : Type} (kind : UsageKind ρ)

/-! ## The totals of a list of calls -/

/-- The totals after the calls of a list have been counted one after another. -/
def totalsOf (group : List CallInfo) : UsageTotals :=
  group.foldl (fun totals callInfo =>
    totals.add (kind.seconds callInfo.call) (kind.credit callInfo.call) callInfo.call.id) {}

theorem totalsOf_concat (group : List CallInfo) (callInfo : CallInfo) :
    kind.totalsOf (group ++ [callInfo]) =
      (kind.totalsOf group).add (kind.seconds callInfo.call) (kind.credit callInfo.call)
        callInfo.call.id := by
  simp [totalsOf, List.foldl_append]

theorem usedSeconds_totalsOf (group : List CallInfo) :
    (kind.totalsOf group).usedSeconds = (group.map fun c => kind.seconds c.call).sum := by
  induction group using List.reverseRecOn with
  | nil => rfl
  | append_singleton group callInfo ih => simp [totalsOf_concat, UsageTotals.add, ih]

/-- Calls with growing ids. -/
def Increasing (calls : List CallInfo) : Prop :=
  (∀ c ∈ calls, 0 < c.call.id) ∧ calls.Pairwise fun a b => a.call.id < b.call.id

variable {kind}

theorem Increasing.sublist {calls calls' : List CallInfo} (h : Increasing calls)
    (hsub : calls'.Sublist calls) : Increasing calls' :=
  ⟨fun c hc => h.1 c (hsub.subset hc), h.2.sublist hsub⟩

theorem Increasing.append_left {front back : List CallInfo} (h : Increasing (front ++ back)) :
    Increasing front :=
  h.sublist (List.sublist_append_left front back)

theorem Increasing.concat {calls : List CallInfo} {callInfo : CallInfo} (h : Increasing calls)
    (hpos : 0 < callInfo.call.id) (hlt : ∀ c ∈ calls, c.call.id < callInfo.call.id) :
    Increasing (calls ++ [callInfo]) := by
  refine ⟨?_, List.pairwise_append.mpr ⟨h.2, List.pairwise_singleton _ _, ?_⟩⟩
  · intro c hc
    rcases List.mem_append.mp hc with hc | hc
    · exact h.1 c hc
    · exact List.mem_singleton.mp hc ▸ hpos
  · intro a ha b hb
    exact List.mem_singleton.mp hb ▸ hlt a ha

/-- `min_call_id` and `max_call_id` are ids of calls of the row. -/
theorem totalsOf_callIds (kind : UsageKind ρ) {group : List CallInfo} (hpos : ∀ c ∈ group, 0 < c.call.id)
    (hne : group ≠ []) :
    (∃ c ∈ group, c.call.id = (kind.totalsOf group).minCallId) ∧
      ∃ c ∈ group, c.call.id = (kind.totalsOf group).maxCallId := by
  induction group using List.reverseRecOn with
  | nil => exact absurd rfl hne
  | append_singleton group callInfo ih =>
      rw [totalsOf_concat]
      refine ⟨?_, callInfo, List.mem_append_right _ List.mem_cons_self, rfl⟩
      simp only [UsageTotals.add]
      split
      case isTrue => exact ⟨callInfo, List.mem_append_right _ List.mem_cons_self, rfl⟩
      case isFalse hmin =>
        have hgroup : group ≠ [] := by
          rintro rfl
          exact hmin rfl
        obtain ⟨⟨c, hc, hid⟩, -⟩ := ih (fun c hc => hpos c (List.mem_append_left _ hc)) hgroup
        exact ⟨c, List.mem_append_left _ hc, hid⟩

/-- They bound the ids of all calls of the row. -/
theorem totalsOf_bounds {group : List CallInfo} (h : Increasing group) :
    ∀ c ∈ group, (kind.totalsOf group).minCallId ≤ c.call.id ∧
      c.call.id ≤ (kind.totalsOf group).maxCallId := by
  induction group using List.reverseRecOn with
  | nil => exact fun c hc => absurd hc List.not_mem_nil
  | append_singleton group callInfo ih =>
      have hlt : ∀ a ∈ group, a.call.id < callInfo.call.id := fun a ha =>
        (List.pairwise_append.mp h.2).2.2 a ha callInfo List.mem_cons_self
      have hgroup := ih h.append_left
      intro c hc
      rw [totalsOf_concat]
      simp only [UsageTotals.add]
      rcases List.mem_append.mp hc with hc | hc
      · obtain ⟨hmin, hmax⟩ := hgroup c hc
        have hid := hlt c hc
        -- a row with a call has a smallest id already
        have hne : (kind.totalsOf group).minCallId ≠ 0 := by
          obtain ⟨⟨first, hfirst, hfid⟩, -⟩ :=
            totalsOf_callIds kind h.append_left.1 (List.ne_nil_of_mem hc)
          have hpos := h.append_left.1 first hfirst
          omega
        rw [if_neg hne]
        exact ⟨hmin, hid.le⟩
      · rw [List.mem_singleton.mp hc]
        refine ⟨?_, le_rfl⟩
        split
        case isTrue => exact le_rfl
        case isFalse hmin =>
          have hne : group ≠ [] := by
            rintro rfl
            exact hmin rfl
          obtain ⟨⟨first, hfirst, hfid⟩, -⟩ :=
            totalsOf_callIds kind h.append_left.1 hne
          have hid := hlt first hfirst
          omega

/-- A row without calls has no smallest id, and only such a row. -/
theorem totalsOf_minCallId_eq_zero {group : List CallInfo} (hpos : ∀ c ∈ group, 0 < c.call.id) :
    (kind.totalsOf group).minCallId = 0 ↔ group = [] := by
  constructor
  · intro hzero
    by_contra hne
    obtain ⟨⟨c, hc, hid⟩, -⟩ := totalsOf_callIds kind hpos hne
    have := hpos c hc
    omega
  · rintro rfl
    rfl

/-! ## Rows and the calls they counted -/

/-- The calls that `add` books on a row. -/
def counted (kind : UsageKind ρ) (i : Int) (calls : List CallInfo) : List CallInfo :=
  calls.filter fun callInfo => kind.bookedRow callInfo == some i

theorem mem_counted {i : Int} {calls : List CallInfo} {callInfo : CallInfo} :
    callInfo ∈ kind.counted i calls ↔ callInfo ∈ calls ∧ kind.bookedRow callInfo = some i := by
  simp [counted]

theorem counted_concat (i : Int) (calls : List CallInfo) (callInfo : CallInfo) :
    kind.counted i (calls ++ [callInfo]) =
      if kind.bookedRow callInfo = some i then kind.counted i calls ++ [callInfo]
      else kind.counted i calls := by
  by_cases h : kind.bookedRow callInfo = some i
  · simp [counted, h]
  · simp [counted, h]

/-- Every row has the totals of the calls booked on it, but for the credit, and every
booked call has its row.  `Q` is a condition on the calls. -/
structure Counted (kind : UsageKind ρ) (Q : CallInfo → Prop) (table : IntMap ρ)
    (calls : List CallInfo) : Prop where
  each : ∀ callInfo ∈ calls, Q callInfo
  increasing : Increasing calls
  row : ∀ (i : Int) (r : ρ), table[i]? = some r →
    (kind.totals r).withoutCredit = (kind.totalsOf (kind.counted i calls)).withoutCredit
  booked : ∀ callInfo ∈ calls, ∀ i, kind.bookedRow callInfo = some i →
    ∃ r, table[i]? = some r

namespace Counted

variable {Q : CallInfo → Prop} {table : IntMap ρ} {calls : List CallInfo} {i : Int} {r : ρ}

theorem empty : Counted kind Q ∅ [] where
  each := fun _ h => absurd h List.not_mem_nil
  increasing := ⟨fun _ h => absurd h List.not_mem_nil, List.Pairwise.nil⟩
  row := fun i r h => absurd h (by simp)
  booked := fun _ h => absurd h List.not_mem_nil

theorem congr {table' : IntMap ρ} {calls' : List CallInfo} (htable : table' = table)
    (hcalls : calls' = calls) (h : Counted kind Q table calls) : Counted kind Q table' calls' := by
  rw [htable, hcalls]
  exact h

/-- A row that is new has not counted anything. -/
theorem insert_new (h : Counted kind Q table calls) (hnone : table[i]? = none)
    (hr : (kind.totals r).withoutCredit = ({} : UsageTotals)) :
    Counted kind Q (table.insert i r) calls := by
  refine ⟨h.each, h.increasing, ?_, ?_⟩
  · intro i' r' hr'
    rw [IntMap.getElem?_insert] at hr'
    by_cases hi : i = i'
    · rw [if_pos hi, Option.some.injEq] at hr'
      subst hr' hi
      have hcounted : kind.counted i calls = [] := by
        refine List.filter_eq_nil_iff.mpr fun c hc hbooked => ?_
        obtain ⟨r', hr'⟩ := h.booked c hc i (by simpa using hbooked)
        rw [hnone] at hr'
        exact absurd hr' (by simp)
      rw [hr, hcounted]
      rfl
    · rw [if_neg hi] at hr'
      exact h.row i' r' hr'
  · intro c hc i' hbooked
    obtain ⟨r', hr'⟩ := h.booked c hc i' hbooked
    have hne : i ≠ i' := by
      rintro rfl
      rw [hnone] at hr'
      exact absurd hr' (by simp)
    exact ⟨r', by rw [IntMap.getElem?_insert_of_ne _ hne]; exact hr'⟩

section Add

variable {callInfo : CallInfo} (h : Counted kind Q table calls) (hQ : Q callInfo)
  (hpos : 0 < callInfo.call.id) (hlt : ∀ c ∈ calls, c.call.id < callInfo.call.id)

include h hQ hpos hlt

/-- A call that is booked nowhere. -/
theorem add_none (hbooked : kind.bookedRow callInfo = none) :
    Counted kind Q table (calls ++ [callInfo]) := by
  refine ⟨?_, h.increasing.concat hpos hlt, ?_, ?_⟩
  · intro c hc
    rcases List.mem_append.mp hc with hc | hc
    · exact h.each c hc
    · exact List.mem_singleton.mp hc ▸ hQ
  · intro i r hr
    rw [counted_concat, if_neg (by simp [hbooked])]
    exact h.row i r hr
  · intro c hc i hc'
    rcases List.mem_append.mp hc with hc | hc
    · exact h.booked c hc i hc'
    · rw [List.mem_singleton.mp hc, hbooked] at hc'
      exact absurd hc' (by simp)

/-- A call that is booked on a row of the table. -/
theorem add_row {r' : ρ} (hbooked : kind.bookedRow callInfo = some i) (hr : table[i]? = some r)
    (hr' : (kind.totals r').withoutCredit =
      (kind.totals (kind.update callInfo.call r)).withoutCredit) :
    Counted kind Q (table.insert i r') (calls ++ [callInfo]) := by
  refine ⟨?_, h.increasing.concat hpos hlt, ?_, ?_⟩
  · intro c hc
    rcases List.mem_append.mp hc with hc | hc
    · exact h.each c hc
    · exact List.mem_singleton.mp hc ▸ hQ
  · intro i₁ r₁ hr₁
    rw [IntMap.getElem?_insert] at hr₁
    by_cases hi : i = i₁
    · rw [if_pos hi, Option.some.injEq] at hr₁
      subst hr₁ hi
      rw [counted_concat, if_pos hbooked, totalsOf_concat, hr', update, kind.totals_withTotals]
      exact UsageTotals.withoutCredit_add (h.row i r hr) _ _ _
    · rw [if_neg hi] at hr₁
      rw [counted_concat, if_neg (by rw [hbooked]; simpa using hi)]
      exact h.row i₁ r₁ hr₁
  · intro c hc i₁ hc'
    rw [IntMap.getElem?_insert]
    by_cases hi : i = i₁
    · rw [if_pos hi]
      exact ⟨r', rfl⟩
    · rw [if_neg hi]
      rcases List.mem_append.mp hc with hc | hc
      · exact h.booked c hc i₁ hc'
      · rw [List.mem_singleton.mp hc, hbooked] at hc'
        exact absurd (Option.some.inj hc') hi

end Add

theorem increasing_counted (h : Counted kind Q table calls) (i : Int) :
    Increasing (kind.counted i calls) :=
  h.increasing.sublist List.filter_sublist

section Row

variable (h : Counted kind Q table calls) (hr : table[i]? = some r)

include h hr

theorem totals_eq :
    (kind.totals r).usedSeconds = (kind.totalsOf (kind.counted i calls)).usedSeconds ∧
      (kind.totals r).minCallId = (kind.totalsOf (kind.counted i calls)).minCallId ∧
      (kind.totals r).maxCallId = (kind.totalsOf (kind.counted i calls)).maxCallId :=
  UsageTotals.withoutCredit_inj (h.row i r hr)

theorem bounds {c : CallInfo} (hc : c ∈ kind.counted i calls) :
    (kind.totals r).minCallId ≤ c.call.id ∧ c.call.id ≤ (kind.totals r).maxCallId := by
  obtain ⟨-, hmin, hmax⟩ := h.totals_eq hr
  rw [hmin, hmax]
  exact totalsOf_bounds (h.increasing_counted i) c hc

theorem minCallId_eq_zero : (kind.totals r).minCallId = 0 ↔ kind.counted i calls = [] := by
  rw [(h.totals_eq hr).2.1]
  exact totalsOf_minCallId_eq_zero (h.increasing_counted i).1

theorem callIds (hne : kind.counted i calls ≠ []) :
    (∃ c ∈ kind.counted i calls, c.call.id = (kind.totals r).minCallId) ∧
      ∃ c ∈ kind.counted i calls, c.call.id = (kind.totals r).maxCallId := by
  obtain ⟨-, hmin, hmax⟩ := h.totals_eq hr
  rw [hmin, hmax]
  exact totalsOf_callIds kind (h.increasing_counted i).1 hne

theorem minCallId_nonneg : 0 ≤ (kind.totals r).minCallId := by
  by_cases hne : kind.counted i calls = []
  · exact ((h.minCallId_eq_zero hr).mpr hne).ge
  · obtain ⟨⟨c, hc, hid⟩, -⟩ := h.callIds hr hne
    have hpos := (h.increasing_counted i).1 c hc
    omega

end Row

end Counted
end UsageKind

/-! ## Runs -/

namespace UsageSys

variable {ρ : Type} {kind : UsageKind ρ} {Q : CallInfo → Prop} {s s' : UsageSys ρ}

/-- A priced call: its id is a new one, and the row it is booked on was looked up
since the manager was loaded. -/
def Priced (kind : UsageKind ρ) (s : UsageSys ρ) (callInfo : CallInfo) : Prop :=
  0 < callInfo.call.id ∧ (∀ c ∈ s.allCalls, c.call.id < callInfo.call.id) ∧
    ∀ i, kind.bookedRow callInfo = some i → ∃ stats, s.manager.rows[i]? = some stats

/-- However many partitions are saved, the rows have counted the saved calls. -/
structure CountedSys (kind : UsageKind ρ) (Q : CallInfo → Prop) (s : UsageSys ρ) : Prop where
  consistent : s.Consistent kind
  counted : s.Prefixes kind (kind.Counted Q)

namespace CountedSys

theorem init : CountedSys kind Q (UsageSys.init : UsageSys ρ) where
  consistent := Consistent.init
  counted := by
    intro j _
    have htable : (UsageSys.init : UsageSys ρ).saved kind j = ∅ := by
      cases j with
      | zero => rfl
      | succ j => simp [saved, UsageSys.init, UsageManager.empty]
    have hcalls : (UsageSys.init : UsageSys ρ).savedCalls j = [] := by
      cases j with
      | zero => rfl
      | succ j => simp [savedCalls, UsageSys.init]
    rw [htable, hcalls]
    exact UsageKind.Counted.empty

/-- The last of the states. -/
theorem last (h : CountedSys kind Q s) : kind.Counted Q (s.allSaved kind) s.allCalls := by
  rw [allCalls, h.consistent.aligned]
  exact h.counted _ le_rfl

theorem lookup (h : CountedSys kind Q s) (q : kind.Query) :
    CountedSys kind Q { s with manager := (kind.getCurrent s.manager q).2 } := by
  have hconsistent := h.consistent.lookup q
  refine ⟨hconsistent, ?_⟩
  rcases s.manager.getCurrent_cases (kind.queryKey q) (kind.isCurrent q) (kind.createStats q) with
    ⟨_, _, _, _, heq⟩ | heq
  · have hsame : (kind.getCurrent s.manager q).2 = s.manager := congrArg Prod.snd heq
    rw [hsame]
    exact h.counted
  · have hnew : (kind.getCurrent s.manager q).2 = _ := congrArg Prod.snd heq
    rw [hnew]
    refine h.counted.last h.consistent.aligned (Ledger.length_parts_put _ _ _) rfl
      (fun _ _ hc => hc) (fun j hj => ⟨saved_put hj rfl rfl, rfl⟩) ?_
    refine UsageKind.Counted.congr (allSaved_put h.consistent.parts rfl rfl) rfl ?_
    refine h.last.insert_new ?_ (by simp [UsageTotals.withoutCredit])
    by_contra hne
    obtain ⟨r, hr⟩ := Option.ne_none_iff_exists'.mp hne
    have hle := (h.consistent.keyed _ le_rfl _ r hr).2.2
    omega

theorem add {callInfo : CallInfo} (h : CountedSys kind Q s) (hQ : Q callInfo)
    (hpriced : s.Priced kind callInfo) :
    CountedSys kind Q
      { s with
        manager := kind.add s.manager callInfo
        queue := modifyLast (fun part => part ++ [callInfo]) s.queue } := by
  obtain ⟨hpos, hlt, hrow⟩ := hpriced
  have hlength : (modifyLast (fun part => part ++ [callInfo]) s.queue).length = s.queue.length :=
    length_modifyLast _ _
  refine ⟨h.consistent.add callInfo, ?_⟩
  rcases s.manager.addBooked_cases (kind.bookedRow callInfo) (kind.update callInfo.call) with
    ⟨hnone, heq⟩ | ⟨i, stats, hbooked, hstats, heq⟩
  · have hsame : kind.add s.manager callInfo = s.manager := heq
    rw [hsame]
    have hbooked : kind.bookedRow callInfo = none := by
      cases hcase : kind.bookedRow callInfo with
      | none => rfl
      | some i =>
          obtain ⟨stats, hstats⟩ := hrow i hcase
          rw [hnone i hcase] at hstats
          exact absurd hstats (by simp)
    refine h.counted.last h.consistent.aligned rfl hlength (fun _ _ hc => hc) ?_ ?_
    · exact fun j hj => ⟨rfl, savedCalls_add (h.consistent.aligned ▸ hj) rfl rfl⟩
    · exact UsageKind.Counted.congr rfl (allCalls_add h.consistent.queue_ne rfl rfl)
        (h.last.add_none hQ hpos hlt hbooked)
  · have hput : kind.add s.manager callInfo =
        s.manager.putRow i (kind.update callInfo.call stats) := heq
    rw [hput]
    refine h.counted.last h.consistent.aligned (Ledger.length_parts_put _ _ _) hlength
      (fun _ _ hc => hc) ?_ ?_
    · exact fun j hj =>
        ⟨saved_put hj rfl rfl, savedCalls_add (h.consistent.aligned ▸ hj) rfl rfl⟩
    · refine UsageKind.Counted.congr (allSaved_put h.consistent.parts rfl rfl)
        (allCalls_add h.consistent.queue_ne rfl rfl) ?_
      -- the row in memory and the saved one differ in the credit only
      obtain ⟨r, hr, hstored⟩ := h.consistent.covered i stats hstats
      refine h.last.add_row hQ hpos hlt hbooked hr ?_
      rcases hstored with rfl | rfl
      · rw [kind.totals_stored, UsageTotals.withoutCredit_stored]
      · rw [kind.totals_stored, UsageTotals.withoutCredit_stored]
        simp only [UsageKind.update, kind.totals_withTotals, kind.totals_stored]
        exact UsageTotals.withoutCredit_add rfl _ _ _

/-- What one step keeps, a recalculation apart. -/
theorem step [DecidableEq ρ] {a : UsageAct ρ kind.Query} (h : CountedSys kind Q s)
    (hadd : ∀ callInfo, a = .add callInfo → Q callInfo ∧ s.Priced kind callInfo)
    (hrecalc : ∀ fromId lastSaveCallTime res, a = .recalc fromId lastSaveCallTime res →
      kind.Counted Q (s.recalc kind fromId).1.table (s.recalc kind fromId).1.calls)
    (hstep : s.step kind a = some s') : CountedSys kind Q s' := by
  have hconsistent := h.consistent.step hstep
  cases a with
  | lookup q =>
      rw [← Option.some.inj hstep]
      exact h.lookup q
  | add callInfo =>
      obtain ⟨hQ, hpriced⟩ := hadd callInfo rfl
      rw [← Option.some.inj hstep]
      exact h.add hQ hpriced
  | createNewPartition =>
      rw [← Option.some.inj hstep] at hconsistent ⊢
      exact ⟨hconsistent, h.counted.createNewPartition h.consistent.aligned⟩
  | save =>
      obtain ⟨-, heq⟩ := Option.ite_none_right_eq_some.mp hstep
      rw [← Option.some.inj heq] at hconsistent ⊢
      exact ⟨hconsistent, h.counted.save h.consistent.parts h.consistent.aligned⟩
  | load lastSaveCallTime res =>
      obtain ⟨-, heq⟩ := Option.ite_none_right_eq_some.mp hstep
      rw [← Option.some.inj heq] at hconsistent ⊢
      exact ⟨hconsistent, Prefixes.load h.counted.stored⟩
  | recalc fromId lastSaveCallTime res =>
      obtain ⟨-, heq⟩ := Option.ite_none_right_eq_some.mp hstep
      rw [← Option.some.inj heq] at hconsistent ⊢
      exact ⟨hconsistent, Prefixes.load (hrecalc fromId lastSaveCallTime res rfl)⟩

end CountedSys
end UsageSys

/-! ## What a recalculation leaves -/

/-- Reading a number as an `int` never makes it greater. -/
theorem getI_le {n : Int} (h : 0 ≤ n) : getI (some n) ≤ n := by
  have hle : n.bmod (2 ^ 32) ≤ n % ((2 ^ 32 : Nat) : Int) := by
    rw [Int.bmod_def]
    split
    · exact le_rfl
    · omega
  have hmod : n % ((2 ^ 32 : Nat) : Int) ≤ n := by omega
  exact hle.trans hmod

namespace UsageKind

variable {ρ : Type} {kind : UsageKind ρ} {table : IntMap ρ} {column : Call → Option Int}
  {stored : List Call} {storedLastId i : Int} {r : ρ}

/-- A row that was in use has a first call that is summed. -/
theorem minCallId_le (hnonneg : ∀ (i : Int) (r : ρ), table[i]? = some r →
      0 ≤ (kind.totals r).minCallId)
    (hr : table[i]? = some r) (huse : kind.inUse storedLastId r = true) :
    kind.minCallId storedLastId table ≤ (kind.totals r).minCallId := by
  have hmem : ∀ (i : Int) (r : ρ), table[i]? = some r → r ∈ table.toList.map Prod.snd :=
    fun i r h => List.mem_map.mpr
      ⟨(i, r), Std.ExtTreeMap.mem_toList_iff_getElem?_eq_some.mpr h, rfl⟩
  have hlisted : (kind.totals r).minCallId ∈
      ((table.toList.map Prod.snd).filter (kind.inUse storedLastId)).map
        fun r => (kind.totals r).minCallId :=
    List.mem_map.mpr ⟨r, List.mem_filter.mpr ⟨hmem i r hr, huse⟩, rfl⟩
  cases hmin : (((table.toList.map Prod.snd).filter (kind.inUse storedLastId)).map
      fun r => (kind.totals r).minCallId).min? with
  | none =>
      rw [List.min?_eq_none_iff] at hmin
      rw [hmin] at hlisted
      exact absurd hlisted List.not_mem_nil
  | some least =>
      obtain ⟨hleast, hle⟩ := List.min?_eq_some_iff.mp hmin
      obtain ⟨r', hr', rfl⟩ := List.mem_map.mp hleast
      obtain ⟨⟨i', r''⟩, hentry, rfl⟩ := List.mem_map.mp (List.mem_of_mem_filter hr')
      have hnonneg' := hnonneg i' r'' (Std.ExtTreeMap.mem_toList_iff_getElem?_eq_some.mp hentry)
      rw [minCallId, hmin]
      exact (getI_le hnonneg').trans (hle _ hlisted)

theorem getElem?_deleteLater :
    (kind.deleteLater storedLastId table)[i]? = some r ↔
      table[i]? = some r ∧ (kind.totals r).minCallId ≤ storedLastId := by
  rw [deleteLater, Std.ExtTreeMap.getElem?_filter', Option.filter_eq_some_iff]
  simp

/-- The calls that are summed for a row. -/
def summed (column : Call → Option Int) (stored : List Call) (minCallId i : Int) : List Call :=
  stored.filter fun call => decide (minCallId ≤ call.id) && column call == some i

/-- The totals of a row after the two updates. -/
def resummed (kind : UsageKind ρ) (column : Call → Option Int) (stored : List Call)
    (storedLastId minCallId i : Int) (totals : UsageTotals) : UsageTotals :=
  if storedLastId ≤ totals.maxCallId then
    (kind.sums (summed column stored minCallId i)).getD { totals with minCallId := 0 }
  else
    totals

/-- A row after the two updates, if `table` is what the transaction starts with. -/
def rebuilt (kind : UsageKind ρ) (column : Call → Option Int) (stored : List Call)
    (storedLastId : Int) (table : IntMap ρ) (r : ρ) : ρ :=
  kind.resumRow column stored storedLastId (kind.minCallId storedLastId table)
    (kind.markRow storedLastId r)

theorem totals_rebuilt (r : ρ) :
    kind.totals (kind.rebuilt column stored storedLastId table r) =
      kind.resummed column stored storedLastId (kind.minCallId storedLastId table) (kind.id r)
        (kind.totals r) := by
  by_cases huse : storedLastId ≤ (kind.totals r).maxCallId
  · simp only [rebuilt, resummed, markRow, resumRow, inUse, huse, decide_true, if_true, kind.totals_withTotals,
      kind.id_withTotals, summed]
    cases kind.sums _ with
    | none => simp
    | some totals => simp
  · simp [rebuilt, resummed, markRow, resumRow, inUse, huse]

/-- The table after the transaction. -/
theorem recalc_of_pos (hcolumn : kind.recalcQuery.column = some column)
    (hpos : 0 < kind.minCallId storedLastId (kind.deleteLater storedLastId table)) :
    kind.recalc stored storedLastId table =
      (kind.deleteEmpty (kind.resum column stored storedLastId
        (kind.deleteLater storedLastId table)), true) := by
  simp only [recalc, hpos, if_true, hcolumn]

theorem recalc_of_nonpos
    (hnonpos : ¬0 < kind.minCallId storedLastId (kind.deleteLater storedLastId table)) :
    kind.recalc stored storedLastId table = (kind.deleteLater storedLastId table, true) := by
  simp only [recalc, hnonpos, if_false]

/-- A row of the table after the transaction comes from one before it that is kept and
whose new totals have a call. -/
theorem getElem?_deleteEmpty_resum :
    (kind.deleteEmpty (kind.resum column stored storedLastId table))[i]? = some r ↔
      ∃ r₀, table[i]? = some r₀ ∧ (kind.totals r).minCallId ≠ 0 ∧
        r = kind.rebuilt column stored storedLastId table r₀ := by
  rw [deleteEmpty, resum, Std.ExtTreeMap.getElem?_filter', Option.filter_eq_some_iff]
  simp only [Std.ExtTreeMap.getElem?_map, Option.map_map, Option.map_eq_some_iff,
    Function.comp_apply, bne_iff_ne]
  constructor
  · rintro ⟨⟨r₀, hr₀, rfl⟩, hmin⟩
    exact ⟨r₀, hr₀, hmin, rfl⟩
  · rintro ⟨r₀, hr₀, hmin, rfl⟩
    exact ⟨⟨r₀, hr₀, rfl⟩, hmin⟩

end UsageKind

namespace UsageSys

section Remaining

variable {calls : List CallInfo} {fromId : Int} {c : CallInfo}

theorem le_storedLastId (hc : c ∈ calls) : c.call.id ≤ storedLastId calls := by
  have hmem : c.call.id ∈ calls.map fun callInfo => callInfo.call.id := List.mem_map_of_mem hc
  cases hmax : (calls.map fun callInfo => callInfo.call.id).max? with
  | none =>
      rw [List.max?_eq_none_iff] at hmax
      rw [hmax] at hmem
      exact absurd hmem List.not_mem_nil
  | some greatest =>
      rw [storedLastId, hmax]
      exact (List.max?_eq_some_iff.mp hmax).2 _ hmem

theorem storedLastId_mem (hne : calls ≠ []) : ∃ c ∈ calls, c.call.id = storedLastId calls := by
  cases hmax : (calls.map fun callInfo => callInfo.call.id).max? with
  | none =>
      rw [List.max?_eq_none_iff, List.map_eq_nil_iff] at hmax
      exact absurd hmax hne
  | some greatest =>
      rw [storedLastId, hmax]
      exact List.mem_map.mp (List.max?_eq_some_iff.mp hmax).1

/-- The calls up to the greatest remaining id remain. -/
theorem mem_remaining_of_le (hc : c ∈ calls) (hpos : 0 < c.call.id)
    (hle : c.call.id ≤ storedLastId (remaining fromId calls)) : c ∈ remaining fromId calls := by
  refine List.mem_filter.mpr ⟨hc, decide_eq_true ?_⟩
  by_cases hne : remaining fromId calls = []
  · rw [hne] at hle
    have hzero : storedLastId [] = 0 := rfl
    omega
  · obtain ⟨c', hc', hid⟩ := storedLastId_mem hne
    have hlt : c'.call.id < fromId := of_decide_eq_true (List.mem_filter.mp hc').2
    omega

end Remaining

variable {ρ : Type} {kind : UsageKind ρ} {Q : CallInfo → Prop} {table : IntMap ρ}
  {calls : List CallInfo} {fromId i : Int} {r : ρ}

/-- When a recalculation keeps the books: a row that was in use and is summed up
again keeps at most one call, and if nothing is summed up (the least `min_call_id`
does not read as a positive `int`), no row in use has lost a call. -/
def RecalcOk (kind : UsageKind ρ) (table : IntMap ρ) (calls : List CallInfo) (fromId : Int) :
    Prop :=
  let left := remaining fromId calls
  let kept := kind.deleteLater (storedLastId left) table
  ∀ (i : Int) (r : ρ), kept[i]? = some r → kind.inUse (storedLastId left) r = true →
    if 0 < kind.minCallId (storedLastId left) kept then (kind.counted i left).length ≤ 1
    else (kind.totals r).maxCallId ≤ storedLastId left

/-- The calls counted by a row that lost none. -/
theorem counted_remaining (h : kind.Counted Q table calls) (hr : table[i]? = some r)
    (hmax : (kind.totals r).maxCallId ≤ storedLastId (remaining fromId calls)) :
    kind.counted i (remaining fromId calls) = kind.counted i calls := by
  rw [UsageKind.counted, UsageKind.counted, remaining, List.filter_filter]
  refine List.filter_congr fun c hc => ?_
  by_cases hbooked : kind.bookedRow c = some i
  · have hcounted := UsageKind.mem_counted.mpr ⟨hc, hbooked⟩
    have hle := (h.bounds hr hcounted).2
    have hleft := mem_remaining_of_le hc (h.increasing.1 c hc) (hle.trans hmax)
    simp [hbooked, of_decide_eq_true (List.mem_filter.mp hleft).2]
  · simp [hbooked]

/-- What is summed for a row: the remaining calls that it counted. -/
theorem summed_eq {column : Call → Option Int} {left : List CallInfo} {minCallId : Int}
    (hcolumn : ∀ c ∈ left, kind.bookedRow c = column c.call.stored)
    (hmin : ∀ c ∈ kind.counted i left, minCallId ≤ c.call.id) :
    UsageKind.summed column (left.map (·.call.stored)) minCallId i =
      (kind.counted i left).map (·.call.stored) := by
  rw [UsageKind.summed, List.filter_map, UsageKind.counted]
  refine congrArg (List.map _) (List.filter_congr fun c hc => ?_)
  by_cases hbooked : kind.bookedRow c = some i
  · have hle := hmin c (UsageKind.mem_counted.mpr ⟨hc, hbooked⟩)
    simp [← hcolumn c hc, hbooked, hle]
  · simp [← hcolumn c hc, hbooked]

/-- A row that a remaining call is booked on is not deleted at the start. -/
theorem kept_of_booked (h : kind.Counted Q table calls) {c : CallInfo}
    (hc : c ∈ remaining fromId calls) (hbooked : kind.bookedRow c = some i) :
    ∃ r, (kind.deleteLater (storedLastId (remaining fromId calls)) table)[i]? = some r := by
  have hcalls : c ∈ calls := List.mem_of_mem_filter hc
  obtain ⟨r, hr⟩ := h.booked c hcalls i hbooked
  have hle := (h.bounds hr (UsageKind.mem_counted.mpr ⟨hcalls, hbooked⟩)).1
  exact ⟨r, UsageKind.getElem?_deleteLater.mpr ⟨hr, hle.trans (le_storedLastId hc)⟩⟩

/-- The sums over one call are its totals, but for the credit. -/
theorem sums_singleton (hseconds : kind.recalcQuery.seconds = kind.seconds) (c : CallInfo) :
    ∃ totals, kind.sums [c.call.stored] = some totals ∧
      totals.withoutCredit = (kind.totalsOf [c]).withoutCredit := by
  have hstored : kind.seconds c.call.stored = kind.seconds c.call :=
    hseconds ▸ kind.seconds_stored c.call
  refine ⟨_, rfl, ?_⟩
  simp [UsageKind.totalsOf, UsageTotals.add, UsageTotals.withoutCredit, hseconds, hstored]

section Recalc

variable {column : Call → Option Int} {lastStatId : Int}
  (hseconds : kind.recalcQuery.seconds = kind.seconds)
  (hkeyed : kind.Keyed lastStatId table) (h : kind.Counted Q table calls)
  (hQ : ∀ c, Q c → kind.bookedRow c = column c.call.stored)

include hseconds hkeyed h hQ

/-- What the two updates make of a row: the totals of the calls that remain, if it
keeps at most one or was not in use; a row that keeps none may be marked instead. -/
theorem resummed_eq {minCallId : Int} (hr : table[i]? = some r)
    (huse : kind.inUse (storedLastId (remaining fromId calls)) r = true →
      minCallId ≤ (kind.totals r).minCallId ∧
        (kind.counted i (remaining fromId calls)).length ≤ 1) :
    (kind.resummed column ((remaining fromId calls).map (·.call.stored))
        (storedLastId (remaining fromId calls)) minCallId (kind.id r)
        (kind.totals r)).withoutCredit =
      (kind.totalsOf (kind.counted i (remaining fromId calls))).withoutCredit ∨
    kind.counted i (remaining fromId calls) = [] ∧
      (kind.resummed column ((remaining fromId calls).map (·.call.stored))
        (storedLastId (remaining fromId calls)) minCallId (kind.id r) (kind.totals r)).minCallId =
        0 := by
  rw [(hkeyed i r hr).1]
  by_cases hlast : storedLastId (remaining fromId calls) ≤ (kind.totals r).maxCallId
  · obtain ⟨hmin, hlength⟩ := huse (decide_eq_true hlast)
    have hsummed : UsageKind.summed column ((remaining fromId calls).map (·.call.stored)) minCallId i =
        (kind.counted i (remaining fromId calls)).map (·.call.stored) := by
      refine summed_eq (fun c hc => hQ c (h.each c (List.mem_of_mem_filter hc))) ?_
      intro c hc
      obtain ⟨hleft, hbooked⟩ := UsageKind.mem_counted.mp hc
      have hcounted := UsageKind.mem_counted.mpr ⟨List.mem_of_mem_filter hleft, hbooked⟩
      exact hmin.trans (h.bounds hr hcounted).1
    rw [UsageKind.resummed, if_pos hlast, hsummed]
    cases hcounted : kind.counted i (remaining fromId calls) with
    | nil => exact Or.inr ⟨rfl, rfl⟩
    | cons c rest =>
        have hrest : rest = [] := by
          rw [hcounted, List.length_cons] at hlength
          exact List.length_eq_zero_iff.mp (by omega)
        obtain ⟨totals, hsums, htotals⟩ := sums_singleton hseconds c
        left
        rw [hrest, List.map_singleton, hsums, Option.getD_some, htotals]
  · left
    rw [UsageKind.resummed, if_neg hlast, counted_remaining h hr (by omega)]
    exact h.row i r hr

/-- **A recalculation keeps the books** under `RecalcOk`. -/
theorem counted_recalc (hcolumn : kind.recalcQuery.column = some column)
    (hok : RecalcOk kind table calls fromId) :
    kind.Counted Q
      (kind.recalc ((remaining fromId calls).map (·.call.stored))
        (storedLastId (remaining fromId calls)) table).1 (remaining fromId calls) := by
  have hsub : (remaining fromId calls).Sublist calls := List.filter_sublist
  have heach : ∀ c ∈ remaining fromId calls, Q c := fun c hc => h.each c (hsub.subset hc)
  have hincreasing := h.increasing.sublist hsub
  by_cases hpos : 0 < kind.minCallId (storedLastId (remaining fromId calls))
      (kind.deleteLater (storedLastId (remaining fromId calls)) table)
  · rw [UsageKind.recalc_of_pos hcolumn hpos]
    -- every row that is kept gets the totals of the calls that remain, or is deleted
    have hrows : ∀ (i : Int) (r : ρ),
        (kind.deleteLater (storedLastId (remaining fromId calls)) table)[i]? = some r →
        (kind.totals (kind.rebuilt column ((remaining fromId calls).map (·.call.stored))
          (storedLastId (remaining fromId calls))
          (kind.deleteLater (storedLastId (remaining fromId calls)) table) r)).withoutCredit =
            (kind.totalsOf (kind.counted i (remaining fromId calls))).withoutCredit ∨
        kind.counted i (remaining fromId calls) = [] ∧
        (kind.totals (kind.rebuilt column ((remaining fromId calls).map (·.call.stored))
          (storedLastId (remaining fromId calls))
          (kind.deleteLater (storedLastId (remaining fromId calls)) table) r)).minCallId = 0 := by
      intro i r hr
      rw [UsageKind.totals_rebuilt]
      refine resummed_eq hseconds hkeyed h hQ (UsageKind.getElem?_deleteLater.mp hr).1 ?_
      intro huse
      have hone := hok i r hr huse
      rw [if_pos hpos] at hone
      refine ⟨UsageKind.minCallId_le ?_ hr huse, hone⟩
      intro i' r' hr'
      exact h.minCallId_nonneg (UsageKind.getElem?_deleteLater.mp hr').1
    refine ⟨heach, hincreasing, ?_, ?_⟩
    · intro i r hr
      obtain ⟨r₀, hr₀, hne, rfl⟩ := UsageKind.getElem?_deleteEmpty_resum.mp hr
      rcases hrows i r₀ hr₀ with heq | ⟨-, hzero⟩
      · exact heq
      · exact absurd hzero hne
    · intro c hc i hbooked
      obtain ⟨r, hr⟩ := kept_of_booked h hc hbooked
      have hmem := UsageKind.mem_counted.mpr ⟨hc, hbooked⟩
      refine ⟨_, UsageKind.getElem?_deleteEmpty_resum.mpr ⟨r, hr, ?_, rfl⟩⟩
      rcases hrows i r hr with heq | ⟨hnil, -⟩
      · rw [(UsageTotals.withoutCredit_inj heq).2.1, Ne, UsageKind.totalsOf_minCallId_eq_zero]
        · exact List.ne_nil_of_mem hmem
        · exact fun c' hc' => hincreasing.1 c' (List.mem_of_mem_filter hc')
      · rw [hnil] at hmem
        exact absurd hmem List.not_mem_nil
  · rw [UsageKind.recalc_of_nonpos hpos]
    refine ⟨heach, hincreasing, ?_, fun c hc i hbooked => kept_of_booked h hc hbooked⟩
    intro i r hr
    have hr₀ := (UsageKind.getElem?_deleteLater.mp hr).1
    have hmax : (kind.totals r).maxCallId ≤ storedLastId (remaining fromId calls) := by
      by_cases huse : kind.inUse (storedLastId (remaining fromId calls)) r = true
      · have hle := hok i r hr huse
        rw [if_neg hpos] at hle
        exact hle
      · exact le_of_lt (not_le.mp fun hle => huse (decide_eq_true hle))
    rw [counted_remaining h hr₀ hmax]
    exact h.row i r hr₀

end Recalc

/-! ## Runs with recalculations -/

section Invariant

variable {s s' : UsageSys ρ} {column : Call → Option Int}

/-- The calls charged to a row lie between its two call ids, and it has used their
seconds; `column` is the row a stored call is charged to. -/
def UsageInvariant (kind : UsageKind ρ) (column : Call → Option Int) (table : IntMap ρ)
    (calls : List Call) : Prop :=
  ∀ (i : Int) (r : ρ), table[i]? = some r → (∃ call ∈ calls, column call = some i) →
    (∀ call ∈ calls, column call = some i →
      (kind.totals r).minCallId ≤ call.id ∧ call.id ≤ (kind.totals r).maxCallId) ∧
    (kind.totals r).usedSeconds =
      ((calls.filter fun call => column call == some i).map (·.packageTime)).sum

/-- A priced call that is charged to a row is counted by `add`, and recalculations
keep the books. -/
def Careful (kind : UsageKind ρ) (column : Call → Option Int) (s : UsageSys ρ) :
    UsageAct ρ kind.Query → Prop
  | .add callInfo => kind.bookedRow callInfo = column callInfo.call ∧ s.Priced kind callInfo
  | .recalc fromId _ _ => RecalcOk kind s.table s.calls fromId
  | _ => True

/-- Books that count what is charged have the invariant. -/
theorem usageInvariant_of_counted (hpackage : kind.seconds = (·.packageTime))
    (h : kind.Counted (fun c => kind.bookedRow c = column c.call) table calls) :
    UsageInvariant kind column table (calls.map (·.call)) := by
  intro i r hr _
  have hcharged : ∀ c ∈ calls, column c.call = some i → c ∈ kind.counted i calls :=
    fun c hc hcolumn => UsageKind.mem_counted.mpr ⟨hc, (h.each c hc).trans hcolumn⟩
  constructor
  · intro call hcall hcolumn
    obtain ⟨c, hc, rfl⟩ := List.mem_map.mp hcall
    exact h.bounds hr (hcharged c hc hcolumn)
  · have hfilter : kind.counted i calls = calls.filter fun c => column c.call == some i :=
      List.filter_congr fun c hc => by rw [h.each c hc]
    rw [(h.totals_eq hr).1, UsageKind.usedSeconds_totalsOf, hfilter, hpackage, List.filter_map,
      List.map_map]
    rfl

/-- **What every careful run keeps.** -/
theorem usageInvariant_of_run [DecidableEq ρ] (hseconds : kind.recalcQuery.seconds = kind.seconds)
    (hcolumn : kind.recalcQuery.column = some column) (hpackage : kind.seconds = (·.packageTime))
    {as : List (UsageAct ρ kind.Query)} (hok : Meets (step kind) (Careful kind column) init as)
    (hrun : Lib.run (step kind) init as = some s) :
    UsageInvariant kind column s.table (s.calls.map (·.call)) := by
  have hcounted : CountedSys kind (fun c => kind.bookedRow c = column c.call) s := by
    refine run_invariant_of_meets ?_ CountedSys.init hok hrun
    intro s a s' h ha hstep
    refine h.step ?_ ?_ hstep
    · rintro callInfo rfl
      exact ha
    · rintro fromId lastSaveCallTime res rfl
      refine counted_recalc hseconds h.consistent.keyed.stored h.counted.stored ?_ hcolumn ha
      intro c hc
      rw [kind.column_stored column hcolumn]
      exact hc
  exact usageInvariant_of_counted hpackage hcounted.counted.stored

end Invariant
end UsageSys

section RepeatedRecalculation

open UsageSys

/-- **Usage survives repeated recalculation** in every careful run of the free minutes
and of the prepaid packages. -/
theorem usage_survives_recalc
    (as : List (UsageAct StatsFreemin CallInfo)) (s : UsageSys StatsFreemin)
    (as' : List (UsageAct StatsPackage StatsPackageManager.Query)) (s' : UsageSys StatsPackage) :
    (Meets (step StatsFreeminManager.kind)
        (Careful StatsFreeminManager.kind StatsFreeminManager.chargedRow) init as →
      run (step StatsFreeminManager.kind) init as = some s →
      UsageInvariant StatsFreeminManager.kind StatsFreeminManager.chargedRow s.table
        (s.calls.map (·.call))) ∧
    (Meets (step StatsPackageManager.kind)
        (Careful StatsPackageManager.kind StatsPackageManager.chargedRow) init as' →
      run (step StatsPackageManager.kind) init as' = some s' →
      UsageInvariant StatsPackageManager.kind StatsPackageManager.chargedRow s'.table
        (s'.calls.map (·.call))) := by
  constructor
  · intro hok hrun
    exact usageInvariant_of_run rfl rfl rfl hok hrun
  · intro hok hrun
    exact usageInvariant_of_run rfl rfl rfl hok hrun

/-- A call of sixty seconds taken from the first free minutes of number 5. -/
def freeCall (id : Int) : CallInfo :=
  { call :=
      { id := id, numberServiceId := 5, servicePackageId := 1, servicePackageStatsId := 1
        billedTime := 60, packageTime := 60 } }

/-- Look the counter up, add a call and save everything. -/
def billFreeCall (id : Int) : List (UsageAct StatsFreemin CallInfo) :=
  [.lookup (freeCall id), .add (freeCall id), .createNewPartition, .save]

/-- The counter after one call. -/
def freeRow (used minCallId maxCallId : Int) : StatsFreemin :=
  { id := 1, serviceNumberId := 5, usedSeconds := used, minCallId := minCallId
    maxCallId := maxCallId }

/-- The first call finds the counter that was looked up for it. -/
theorem priced_freeCall {s : UsageSys StatsFreemin}
    (hs : step StatsFreeminManager.kind init (.lookup (freeCall 1)) = some s) :
    s.Priced StatsFreeminManager.kind (freeCall 1) := by
  rw [← Option.some.inj hs]
  refine ⟨by decide, by decide +kernel, ?_⟩
  intro i hbooked
  obtain rfl : (1 : Int) = i := Option.some.inj hbooked
  exact ⟨freeRow 0 0 0, by decide +kernel⟩

/-- One call, and two recalculations. -/
def oneCallRun : List (UsageAct StatsFreemin CallInfo) :=
  billFreeCall 1 ++ [.recalc 10 0 [freeRow 60 1 1], .recalc 10 0 [freeRow 60 1 1]]

/-- Two calls, a recalculation, a third call, and another recalculation. -/
def threeCallRun : List (UsageAct StatsFreemin CallInfo) :=
  billFreeCall 1 ++ billFreeCall 2 ++ [.recalc 10 0 [freeRow 120 2 2]] ++ billFreeCall 3 ++
    [.recalc 10 0 [freeRow 120 3 3]]

/-- After the second recalculation the row has used 120 of the 180 seconds charged
to it. -/
theorem usage_lost_after_second_recalc :
    ∃ s, run (step StatsFreeminManager.kind) init threeCallRun = some s ∧
      ¬UsageInvariant StatsFreeminManager.kind StatsFreeminManager.chargedRow s.table
        (s.calls.map (·.call)) := by
  have hrun : (run (step StatsFreeminManager.kind) init threeCallRun).map
      (fun s => (s.table[(1 : Int)]?, s.calls)) =
        some (some (freeRow 120 3 3), [freeCall 1, freeCall 2, freeCall 3]) := by
    decide +kernel
  obtain ⟨s, hs, heq⟩ := Option.map_eq_some_iff.mp hrun
  obtain ⟨hrow, hcalls⟩ := Prod.mk.inj heq
  refine ⟨s, hs, fun hinv => ?_⟩
  rw [hcalls] at hinv
  have hused := (hinv 1 (freeRow 120 3 3) hrow ⟨(freeCall 1).call, by decide, by decide⟩).2
  exact absurd hused (by decide)

/-- A row with one call is recalculated with care. -/
theorem careful_oneCall {table : IntMap StatsFreemin} {calls : List CallInfo}
    (h : (calls, decide (0 < StatsFreeminManager.kind.minCallId (storedLastId (remaining 10 calls))
      (StatsFreeminManager.kind.deleteLater (storedLastId (remaining 10 calls)) table))) =
        ([freeCall 1], true)) : RecalcOk StatsFreeminManager.kind table calls 10 := by
  obtain ⟨hcalls, hpos⟩ := Prod.mk.inj h
  intro i r hr huse
  rw [if_pos (of_decide_eq_true hpos), hcalls]
  exact (List.length_filter_le _ _).trans (by decide +kernel)

/-- One call and two recalculations. -/
theorem usage_survives_recalc_of_oneCall :
    ∃ s, run (step StatsFreeminManager.kind) init oneCallRun = some s ∧
      s.table[(1 : Int)]? = some (freeRow 60 1 1) ∧
      UsageInvariant StatsFreeminManager.kind StatsFreeminManager.chargedRow s.table
        (s.calls.map (·.call)) := by
  have hrun : (run (step StatsFreeminManager.kind) init oneCallRun).map
      (fun s => s.table[(1 : Int)]?) = some (some (freeRow 60 1 1)) := by
    decide +kernel
  obtain ⟨s, hs, hrow⟩ := Option.map_eq_some_iff.mp hrun
  refine ⟨s, hs, hrow, (usage_survives_recalc oneCallRun s [] init).1 ?_ hs⟩
  refine ⟨trivial, fun s₁ h₁ => ⟨⟨rfl, priced_freeCall h₁⟩, fun s₂ h₂ => ⟨trivial, fun s₃ h₃ =>
    ⟨trivial, fun s₄ h₄ => ⟨careful_oneCall ?_, fun s₅ h₅ => ⟨careful_oneCall ?_,
      fun _ _ => trivial⟩⟩⟩⟩⟩⟩
  all_goals
    rw [← Option.some.inj h₁] at h₂
    rw [← Option.some.inj h₂] at h₃
    rw [← Option.some.inj h₃] at h₄
  · rw [← Option.some.inj h₄]
    decide +kernel
  · rw [← Option.some.inj h₄] at h₅
    -- the second recalculation starts from what the first one left
    have hstate := congrArg (Option.map fun s : UsageSys StatsFreemin =>
      (s.calls, decide (0 < StatsFreeminManager.kind.minCallId
        (storedLastId (remaining 10 s.calls))
        (StatsFreeminManager.kind.deleteLater (storedLastId (remaining 10 s.calls)) s.table)))) h₅
    refine Option.some.inj (hstate.symm.trans ?_)
    decide +kernel

end RepeatedRecalculation
end VoipBill
