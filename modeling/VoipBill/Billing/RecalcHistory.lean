import VoipBill.Billing.StoredHistory

/-!
# Recalculation of a stored history

A recalculation for the greatest stored id touches one row only, the one the last call
is booked on, and sums its calls from the first one on (`UsageKind.resumed`).

Two things keep the sums from being the counters of the run time:

* calls that carry the id of the row and were not counted (`UsageKind.uncounted`);
* the six digits of a stream: the counters and the calls were rounded when they were
  saved, so the other rows have a rounded sum, and the resumed one a sum of rounded
  credits (`UsageKind.storedCredit`).
-/

namespace VoipBill

open Lib UsageSys

namespace UsageKind

variable {ρ : Type} {kind : UsageKind ρ} {Q : CallInfo → Prop} {table : IntMap ρ}
  {calls : List CallInfo} {i m : Int} {r : ρ}

/-- The row that a recalculation for the greatest stored id sums up again, and the id
from which it does: the row of the last call, and its first call as an `int`. -/
def resumed (kind : UsageKind ρ) (calls : List CallInfo) : Option (Int × Int) := do
  let last ← calls.getLast?
  let i ← kind.bookedRow last
  let first ← (kind.counted i calls).head?
  let fromId := getI (some first.call.id)
  if 0 < fromId then some (i, fromId) else none

/-- The calls that are summed for a row and were not counted by it. -/
def uncounted (kind : UsageKind ρ) (column : Call → Option Int) (calls : List CallInfo)
    (i m : Int) : List CallInfo :=
  calls.filter fun c =>
    decide (m ≤ c.call.id) && column c.call == some i && !(kind.bookedRow c == some i)

/-- The sum of credits as `calls_raw` holds them, each with six digits. -/
def storedCredit (kind : UsageKind ρ) (group : List CallInfo) : ℚ :=
  (group.map fun c => toSignificant streamDigits (kind.credit c.call)).sum

/-! ## The row that is summed -/

theorem Increasing.id_le_getLast {last c : CallInfo} (h : Increasing calls)
    (hlast : calls.getLast? = some last) (hc : c ∈ calls) :
    c.call.id < last.call.id ∨ c = last := by
  obtain ⟨front, rfl⟩ := List.getLast?_eq_some_iff.mp hlast
  rcases List.mem_append.mp hc with hc | hc
  · exact Or.inl ((List.pairwise_append.mp h.2).2.2 c hc last List.mem_cons_self)
  · exact Or.inr (List.mem_singleton.mp hc)

theorem Increasing.storedLastId_eq {last : CallInfo} (h : Increasing calls)
    (hlast : calls.getLast? = some last) : storedLastId calls = last.call.id := by
  have hmem : last ∈ calls := List.mem_of_getLast? hlast
  obtain ⟨c, hc, hid⟩ := storedLastId_mem (List.ne_nil_of_mem hmem)
  have hle := le_storedLastId hmem
  rcases h.id_le_getLast hlast hc with hlt | rfl
  · omega
  · exact hid.symm

/-- A row with calls was in use at the last stored call exactly if that call is
booked on it. -/
theorem Counted.inUse_iff {last : CallInfo} (h : Counted kind Q table calls)
    (hr : table[i]? = some r) (hlast : calls.getLast? = some last) :
    kind.inUse (storedLastId calls) r = true ↔ kind.bookedRow last = some i := by
  have hmem : last ∈ calls := List.mem_of_getLast? hlast
  rw [inUse, decide_eq_true_eq, h.increasing.storedLastId_eq hlast]
  constructor
  · intro hle
    by_cases hne : kind.counted i calls = []
    · have hzero : (kind.totals r).maxCallId = 0 := by
        rw [(h.totals_eq hr).2.2, hne]
        rfl
      have hpos := h.increasing.1 last hmem
      omega
    · obtain ⟨-, c, hc, hid⟩ := h.callIds hr hne
      obtain ⟨hcalls, hbooked⟩ := mem_counted.mp hc
      rcases h.increasing.id_le_getLast hlast hcalls with hlt | rfl
      · omega
      · exact hbooked
  · intro hbooked
    exact (h.bounds hr (mem_counted.mpr ⟨hmem, hbooked⟩)).2

/-- The smallest id of a row is that of its first call. -/
theorem Counted.minCallId_eq_head {first : CallInfo} (h : Counted kind Q table calls)
    (hr : table[i]? = some r) (hfirst : (kind.counted i calls).head? = some first) :
    (kind.totals r).minCallId = first.call.id := by
  obtain ⟨rest, heq⟩ := List.head?_eq_some_iff.mp hfirst
  have hmem : first ∈ kind.counted i calls := List.mem_of_head? hfirst
  obtain ⟨⟨c, hc, hid⟩, -⟩ := h.callIds hr (List.ne_nil_of_mem hmem)
  have hle := (h.bounds hr hmem).1
  have hincreasing := h.increasing_counted i
  rw [heq] at hc hincreasing
  rcases List.mem_cons.mp hc with rfl | hc
  · exact hid.symm
  · have hlt := (List.pairwise_cons.mp hincreasing.2).1 c hc
    omega

/-- No row of a history is deleted at the start. -/
theorem Counted.deleteLater_eq (h : Counted kind Q table calls) :
    kind.deleteLater (storedLastId calls) table = table := by
  apply Std.ExtTreeMap.ext_getElem?
  intro i
  cases hr : table[i]? with
  | none => simp [deleteLater, hr]
  | some r =>
      refine getElem?_deleteLater.mpr ⟨hr, ?_⟩
      by_cases hne : kind.counted i calls = []
      · rw [(h.minCallId_eq_zero hr).mpr hne]
        by_cases hcalls : calls = []
        · rw [hcalls]
          exact le_rfl
        · obtain ⟨c, hc, hid⟩ := storedLastId_mem hcalls
          have hpos := h.increasing.1 c hc
          omega
      · obtain ⟨⟨c, hc, hid⟩, -⟩ := h.callIds hr hne
        have hle := le_storedLastId (mem_counted.mp hc).1
        omega

/-- If no row was in use, nothing is summed. -/
theorem minCallId_of_unused (kind : UsageKind ρ) (table : IntMap ρ) (storedLastId : Int)
    (h : ∀ (i : Int) (r : ρ), table[i]? = some r → kind.inUse storedLastId r = false) :
    kind.minCallId storedLastId table = 0 := by
  have hnil : (table.toList.map Prod.snd).filter (kind.inUse storedLastId) = [] := by
    refine List.filter_eq_nil_iff.mpr fun r hr => ?_
    obtain ⟨⟨i, r'⟩, hentry, rfl⟩ := List.mem_map.mp hr
    simpa using h i r' (Std.ExtTreeMap.mem_toList_iff_getElem?_eq_some.mp hentry)
  rw [minCallId, hnil]
  rfl

/-- If one row was in use, its calls are summed from its smallest id on. -/
theorem minCallId_of_used {storedLastId : Int} (hr : table[i]? = some r)
    (huse : ∀ (i' : Int) (r' : ρ), table[i']? = some r' →
      (kind.inUse storedLastId r' = true ↔ i' = i)) :
    kind.minCallId storedLastId table = getI (some (kind.totals r).minCallId) := by
  rw [minCallId]
  refine congrArg getI (List.min?_eq_some_iff.mpr ⟨?_, ?_⟩)
  · refine List.mem_map.mpr ⟨r, List.mem_filter.mpr ⟨?_, (huse i r hr).mpr rfl⟩, rfl⟩
    exact List.mem_map.mpr ⟨(i, r), Std.ExtTreeMap.mem_toList_iff_getElem?_eq_some.mpr hr, rfl⟩
  · intro b hb
    obtain ⟨r', hr', rfl⟩ := List.mem_map.mp hb
    obtain ⟨hmem, huse'⟩ := List.mem_filter.mp hr'
    obtain ⟨⟨i', r''⟩, hentry, rfl⟩ := List.mem_map.mp hmem
    have hrow' := Std.ExtTreeMap.mem_toList_iff_getElem?_eq_some.mp hentry
    obtain rfl : i' = i := (huse i' r'' hrow').mp huse'
    rw [hr, Option.some.injEq] at hrow'
    rw [hrow']

/-- What `resumed` says about a history. -/
theorem Counted.resumed_cases (h : Counted kind Q table calls) :
    (kind.resumed calls = none ∧ ¬0 < kind.minCallId (storedLastId calls) table) ∨
    ∃ i m r, kind.resumed calls = some (i, m) ∧ 0 < m ∧
      kind.minCallId (storedLastId calls) table = m ∧ table[i]? = some r ∧
      m ≤ (kind.totals r).minCallId ∧ kind.counted i calls ≠ [] ∧
      ∀ (i' : Int) (r' : ρ), table[i']? = some r' →
        (kind.inUse (storedLastId calls) r' = true ↔ i' = i) := by
  cases hlast : calls.getLast? with
  | none =>
      left
      have hcalls : calls = [] := List.getLast?_eq_none_iff.mp hlast
      refine ⟨by simp [resumed, hlast], ?_⟩
      intro hpos
      -- without calls every row has the totals of a new one
      have hzero : ∀ (i : Int) (r : ρ), table[i]? = some r → (kind.totals r).minCallId = 0 := by
        intro i r hr
        refine (h.minCallId_eq_zero hr).mpr ?_
        rw [hcalls]
        rfl
      by_cases hused : ∃ (i : Int) (r : ρ), table[i]? = some r ∧
          kind.inUse (storedLastId calls) r = true
      · obtain ⟨i, r, hr, huse⟩ := hused
        have hle := minCallId_le (fun i' r' hr' => (hzero i' r' hr').ge) hr huse
        rw [hzero i r hr] at hle
        omega
      · have hunused := minCallId_of_unused kind table (storedLastId calls) fun i r hr => by
            rw [← Bool.not_eq_true]
            exact fun huse => hused ⟨i, r, hr, huse⟩
        omega
  | some last =>
      have hmem : last ∈ calls := List.mem_of_getLast? hlast
      cases hbooked : kind.bookedRow last with
      | none =>
          left
          refine ⟨by simp [resumed, hlast, hbooked], ?_⟩
          have hunused := minCallId_of_unused kind table (storedLastId calls) fun i r hr => by
              rw [← Bool.not_eq_true, h.inUse_iff hr hlast, hbooked]
              simp
          omega
      | some i =>
          have hcounted : last ∈ kind.counted i calls := mem_counted.mpr ⟨hmem, hbooked⟩
          obtain ⟨r, hr⟩ := h.booked last hmem i hbooked
          have huse : ∀ (i' : Int) (r' : ρ), table[i']? = some r' →
              (kind.inUse (storedLastId calls) r' = true ↔ i' = i) := by
            intro i' r' hr'
            rw [h.inUse_iff hr' hlast, hbooked, Option.some.injEq, eq_comm]
          obtain ⟨first, rest, heq⟩ := List.exists_cons_of_ne_nil (List.ne_nil_of_mem hcounted)
          have hfirst : (kind.counted i calls).head? = some first := by rw [heq, List.head?_cons]
          have hmin : kind.minCallId (storedLastId calls) table = getI (some first.call.id) := by
            rw [minCallId_of_used hr huse, h.minCallId_eq_head hr hfirst]
          by_cases hpos : 0 < getI (some first.call.id)
          · right
            refine ⟨i, _, r, by simp [resumed, hlast, hbooked, hfirst, hpos], hpos, hmin, hr, ?_,
              List.ne_nil_of_mem hcounted, huse⟩
            rw [h.minCallId_eq_head hr hfirst]
            exact getI_le (by
              have := (h.increasing_counted i).1 first (List.mem_of_head? hfirst)
              omega)
          · left
            exact ⟨by simp [resumed, hlast, hbooked, hfirst, hpos], by omega⟩

/-- The row that is summed up again. -/
theorem Counted.of_resumed (h : Counted kind Q table calls)
    (hsome : kind.resumed calls = some (i, m)) :
    ∃ r, 0 < m ∧ kind.minCallId (storedLastId calls) table = m ∧ table[i]? = some r ∧
      m ≤ (kind.totals r).minCallId ∧ kind.counted i calls ≠ [] ∧
      ∀ (i' : Int) (r' : ρ), table[i']? = some r' →
        (kind.inUse (storedLastId calls) r' = true ↔ i' = i) := by
  rcases h.resumed_cases with ⟨hnone, -⟩ | ⟨i', m', r, hsome', hrow⟩
  · rw [hnone] at hsome
    cases hsome
  · obtain ⟨rfl, rfl⟩ := Prod.mk.inj (Option.some.inj (hsome'.symm.trans hsome))
    exact ⟨r, hrow⟩

/-! ## The sums of that row -/

/-- A sum over a part and over the rest of a selection. -/
theorem sum_filter_split {α β : Type} [AddCommMonoid β] (f : α → β) (p q : α → Bool)
    (l : List α) (hsub : ∀ a ∈ l, q a = true → p a = true) :
    ((l.filter p).map f).sum =
      ((l.filter q).map f).sum + ((l.filter fun a => p a && !q a).map f).sum := by
  induction l with
  | nil => simp
  | cons a l ih =>
      have hrest := ih fun b hb => hsub b (List.mem_cons_of_mem a hb)
      cases hq : q a with
      | true => simp [hsub a List.mem_cons_self hq, hq, hrest, add_assoc]
      | false =>
          cases hp : p a with
          | true => simp [hp, hq, hrest, add_left_comm]
          | false => simp [hp, hq, hrest]

section Sums

variable {column : Call → Option Int} (h : Counted kind Q table calls)
  (hcolumn : kind.recalcQuery.column = some column)
  (hsub : ∀ c i, kind.bookedRow c = some i → column c.call = some i)
  (hr : table[i]? = some r) (hmin : m ≤ (kind.totals r).minCallId)
  (hne : kind.counted i calls ≠ [])

include h hcolumn hsub hr hmin

/-- The calls that are summed are those that were counted and the uncounted ones. -/
theorem sum_summed {β : Type} [AddCommMonoid β] (f : Call → β) :
    ((summed column (calls.map (·.call.stored)) m i).map f).sum =
      ((kind.counted i calls).map fun c => f c.call.stored).sum +
        ((kind.uncounted column calls i m).map fun c => f c.call.stored).sum := by
  have hstored : (fun call : Call => decide (m ≤ call.id) && column call == some i) ∘
      (fun c : CallInfo => c.call.stored) =
        fun c => decide (m ≤ c.call.id) && column c.call == some i := by
    funext c
    show (decide (m ≤ c.call.id) && column c.call.stored == some i) = _
    rw [kind.column_stored column hcolumn]
  rw [summed, List.filter_map, List.map_map, hstored]
  refine sum_filter_split (fun c : CallInfo => f c.call.stored) _
    (fun c => kind.bookedRow c == some i) calls ?_
  intro c hc hbooked
  have hbooked : kind.bookedRow c = some i := by simpa using hbooked
  have hle := (h.bounds hr (mem_counted.mpr ⟨hc, hbooked⟩)).1
  simp [hsub c i hbooked, hmin.trans hle]

include hne

/-- The new totals of the row. -/
theorem sums_summed (hseconds : kind.recalcQuery.seconds = kind.seconds)
    (hcredit : kind.recalcQuery.credit = kind.credit) :
    ∃ totals, kind.sums (summed column (calls.map (·.call.stored)) m i) = some totals ∧
      totals.minCallId ≠ 0 ∧
      totals.usedSeconds = (kind.totals r).usedSeconds +
        ((kind.uncounted column calls i m).map fun c => kind.seconds c.call).sum ∧
      totals.usedCredit = kind.storedCredit (kind.counted i calls) +
        kind.storedCredit (kind.uncounted column calls i m) := by
  obtain ⟨c, rest, heq⟩ := List.exists_cons_of_ne_nil hne
  have hc : c ∈ kind.counted i calls := heq ▸ List.mem_cons_self
  obtain ⟨hcalls, hbooked⟩ := mem_counted.mp hc
  have hmem : c.call.stored ∈ summed column (calls.map (·.call.stored)) m i := by
    refine List.mem_filter.mpr ⟨List.mem_map_of_mem hcalls, ?_⟩
    simp [kind.column_stored column hcolumn, hsub c i hbooked, hmin.trans (h.bounds hr hc).1]
  have hids : ∀ call ∈ summed column (calls.map (·.call.stored)) m i, 0 < call.id := by
    intro call hcall
    obtain ⟨c', hc', rfl⟩ := List.mem_map.mp (List.mem_of_mem_filter hcall)
    exact h.increasing.1 c' hc'
  rw [sums, if_neg (List.ne_nil_of_mem hmem)]
  refine ⟨_, rfl, ?_, ?_, ?_⟩
  · show (((summed column (calls.map (·.call.stored)) m i).map Call.id).max?).getD 0 ≠ 0
    cases hmax : ((summed column (calls.map (·.call.stored)) m i).map Call.id).max? with
    | none =>
        rw [List.max?_eq_none_iff, List.map_eq_nil_iff] at hmax
        rw [hmax] at hmem
        exact absurd hmem List.not_mem_nil
    | some greatest =>
        obtain ⟨call, hcall, rfl⟩ := List.mem_map.mp (List.max?_eq_some_iff.mp hmax).1
        have hpos := hids call hcall
        rw [Option.getD_some]
        omega
  · show ((summed column (calls.map (·.call.stored)) m i).map kind.recalcQuery.seconds).sum = _
    rw [sum_summed h hcolumn hsub hr hmin, (h.totals_eq hr).1, usedSeconds_totalsOf]
    simp only [kind.seconds_stored, hseconds]
  · show ((summed column (calls.map (·.call.stored)) m i).map kind.recalcQuery.credit).sum = _
    rw [sum_summed h hcolumn hsub hr hmin, storedCredit, storedCredit]
    simp only [kind.credit_stored, hcredit]

end Sums

/-- A row that was not in use keeps its totals. -/
theorem totals_rebuilt_of_unused {column : Call → Option Int} {stored : List Call}
    {storedLastId : Int} (hunused : ¬kind.inUse storedLastId r = true) :
    kind.totals (kind.rebuilt column stored storedLastId table r) = kind.totals r := by
  rw [totals_rebuilt, resummed, if_neg fun hle => hunused (decide_eq_true hle)]

/-- A row that was in use gets the sums, or loses its first call. -/
theorem totals_rebuilt_of_used {column : Call → Option Int} {stored : List Call}
    {storedLastId : Int} (hused : kind.inUse storedLastId r = true)
    (hid : kind.id r = i) (hm : kind.minCallId storedLastId table = m) :
    kind.totals (kind.rebuilt column stored storedLastId table r) =
      (kind.sums (summed column stored m i)).getD { kind.totals r with minCallId := 0 } := by
  rw [totals_rebuilt, resummed, if_pos (of_decide_eq_true hused), hid, hm]

theorem getElem?_resum {column : Call → Option Int} {stored : List Call} {storedLastId : Int}
    (hr : table[i]? = some r) :
    (kind.resum column stored storedLastId table)[i]? =
      some (kind.rebuilt column stored storedLastId table r) := by
  simp [resum, rebuilt, hr]

/-- Nothing is summed up again: the table stays. -/
theorem Counted.recalc_of_none (h : Counted kind Q table calls)
    (hnone : kind.resumed calls = none) (stored : List Call) :
    kind.recalc stored (storedLastId calls) table = (table, true) := by
  rcases h.resumed_cases with ⟨-, hnonpos⟩ | ⟨i, m, r, hsome, -⟩
  · rw [recalc_of_nonpos (h.deleteLater_eq.symm ▸ hnonpos), h.deleteLater_eq]
  · rw [hnone] at hsome
    exact absurd hsome (by simp)

/-- Nothing is deleted from a table exactly if every row has a first call. -/
theorem deleteEmpty_eq_self_iff :
    kind.deleteEmpty table = table ↔
      ∀ (i : Int) (r : ρ), table[i]? = some r → (kind.totals r).minCallId ≠ 0 := by
  constructor
  · intro heq i r hr
    rw [← heq, deleteEmpty, Std.ExtTreeMap.getElem?_filter', Option.filter_eq_some_iff] at hr
    simpa using hr.2
  · intro hall
    apply Std.ExtTreeMap.ext_getElem?
    intro i
    cases hr : table[i]? with
    | none => simp [deleteEmpty, hr]
    | some r => simp [deleteEmpty, hr, Option.filter, hall i r hr]

end UsageKind

/-! ## Against the counters of the run time -/

namespace UsageSys

variable {ρ : Type} {kind : UsageKind ρ} {s : UsageSys ρ}

/-- The recalculation returns, and every row that counted a call has what the
incremental updates gave it. -/
def Reproduces (kind : UsageKind ρ) (s : UsageSys ρ) (result : IntMap ρ × Bool) : Prop :=
  result.2 = true ∧ ∀ (i : Int) (stats : ρ), s.runtimeRow i = some stats →
    kind.counted i s.calls ≠ [] →
    ∃ r, result.1[i]? = some r ∧
      (kind.totals r).usedSeconds = (kind.totals stats).usedSeconds ∧
      (kind.totals r).usedCredit = (kind.totals stats).usedCredit

/-- Every counter with calls, but for the one that is summed up again, has a credit of
six digits. -/
def ShortCredits (kind : UsageKind ρ) (s : UsageSys ρ) : Prop :=
  ∀ (i : Int) (stats : ρ), s.runtimeRow i = some stats → kind.counted i s.calls ≠ [] →
    (∀ m, kind.resumed s.calls ≠ some (i, m)) →
    HasDigits streamDigits (kind.totals stats).usedCredit

/-- The uncounted calls add no seconds, and the credits of all calls that are summed, as
they are stored, make the counter's. -/
def CreditsAgree (kind : UsageKind ρ) (column : Call → Option Int) (s : UsageSys ρ) : Prop :=
  ∀ i m stats, kind.resumed s.calls = some (i, m) → s.runtimeRow i = some stats →
    ((kind.uncounted column s.calls i m).map fun c => kind.seconds c.call).sum = 0 ∧
      kind.storedCredit (kind.counted i s.calls) +
        kind.storedCredit (kind.uncounted column s.calls i m) = (kind.totals stats).usedCredit

/-- One row at most is summed up again. -/
theorem forall_resumed_iff {p : Int → Int → ρ → Prop} {i m : Int} {stats : ρ}
    (hsome : kind.resumed s.calls = some (i, m)) (hstats : s.runtimeRow i = some stats) :
    (∀ i' m' stats', kind.resumed s.calls = some (i', m') → s.runtimeRow i' = some stats' →
      p i' m' stats') ↔ p i m stats := by
  constructor
  · exact fun hall => hall i m stats hsome hstats
  · intro hp i' m' stats' hsome' hstats'
    obtain ⟨rfl, rfl⟩ := Prod.mk.inj (Option.some.inj (hsome.symm.trans hsome'))
    obtain rfl : stats = stats' := Option.some.inj (hstats.symm.trans hstats')
    exact hp

theorem forall_not_resumed {p : Int → Int → ρ → Prop} (hnone : kind.resumed s.calls = none)
    (i m : Int) (stats : ρ) (hsome : kind.resumed s.calls = some (i, m))
    (_ : s.runtimeRow i = some stats) : p i m stats := by
  rw [hnone] at hsome
  cases hsome

namespace Stored

variable [DecidableEq ρ] {table : IntMap ρ} {callsRaw : List Call}

/-- A recalculation that keeps the totals of the other rows is right about them if their
credits are short; the rest is about the row that is summed up again. -/
theorem reproduces_iff_resumed (h : Stored kind s table callsRaw) {result : IntMap ρ}
    (hothers : ∀ (i : Int) (r : ρ), s.table[i]? = some r → kind.counted i s.calls ≠ [] →
      (∀ m, kind.resumed s.calls ≠ some (i, m)) →
      ∃ r', result[i]? = some r' ∧ kind.totals r' = kind.totals r) :
    s.Reproduces kind (result, true) ↔
      s.ShortCredits kind ∧
      ∀ i m stats, kind.resumed s.calls = some (i, m) → s.runtimeRow i = some stats →
        ∃ r, result[i]? = some r ∧
          (kind.totals r).usedSeconds = (kind.totals stats).usedSeconds ∧
          (kind.totals r).usedCredit = (kind.totals stats).usedCredit := by
  -- a counter with calls, as the manager has it and as the table does
  have hforms : ∀ (i : Int) (stats : ρ), s.runtimeRow i = some stats →
      kind.counted i s.calls ≠ [] → ∃ r, s.table[i]? = some r ∧
        (kind.totals r).usedSeconds = (kind.totals stats).usedSeconds ∧
        (kind.totals r).usedCredit = toSignificant streamDigits (kind.totals stats).usedCredit := by
    intro i stats hstats hne
    obtain ⟨c, hc⟩ := List.exists_mem_of_ne_nil _ hne
    obtain ⟨hcalls, hbooked⟩ := UsageKind.mem_counted.mp hc
    obtain ⟨r, hr⟩ := h.counted.booked c hcalls i hbooked
    obtain ⟨stats', hstats', hforms⟩ := h.row hr hne
    rw [hstats, Option.some.injEq] at hstats'
    exact ⟨r, hr, hstats' ▸ hforms⟩
  constructor
  · rintro ⟨-, hall⟩
    constructor
    case right =>
      intro i m stats hsome hstats
      obtain ⟨r, -, -, -, -, hne, -⟩ := h.counted.of_resumed hsome
      exact hall i stats hstats hne
    intro i stats hstats hne hother
    obtain ⟨r, hr, -, hrounded⟩ := hforms i stats hstats hne
    obtain ⟨r', hr', htotals⟩ := hothers i r hr hne hother
    obtain ⟨r'', hr'', -, hcredit⟩ := hall i stats hstats hne
    obtain rfl : r' = r'' := Option.some.inj (hr'.symm.trans hr'')
    rw [htotals, hrounded] at hcredit
    exact (toSignificant_eq_self_iff _ _).mp hcredit
  · rintro ⟨hshort, hresumed⟩
    refine ⟨rfl, fun i stats hstats hne => ?_⟩
    by_cases hother : ∀ m, kind.resumed s.calls ≠ some (i, m)
    · obtain ⟨r, hr, hseconds, hrounded⟩ := hforms i stats hstats hne
      obtain ⟨r', hr', htotals⟩ := hothers i r hr hne hother
      have hdigits := (toSignificant_eq_self_iff _ _).mpr (hshort i stats hstats hne hother)
      exact ⟨r', hr', by rw [htotals, hseconds], by rw [htotals, hrounded, hdigits]⟩
    · push Not at hother
      obtain ⟨m, hsome⟩ := hother
      exact hresumed i m stats hsome hstats

/-- **Recalculation of a history.**  It reproduces the counters exactly if the credits of
the other rows are short and the sums of the resumed one agree. -/
theorem reproduces_iff {column : Call → Option Int} (h : Stored kind s table callsRaw)
    (hcolumn : kind.recalcQuery.column = some column)
    (hseconds : kind.recalcQuery.seconds = kind.seconds)
    (hcredit : kind.recalcQuery.credit = kind.credit)
    (hsub : ∀ c i, kind.bookedRow c = some i → column c.call = some i) :
    s.Reproduces kind (kind.recalc callsRaw (storedLastId s.calls) table) ↔
      s.ShortCredits kind ∧ s.CreditsAgree kind column := by
  rw [h.callsRaw, h.table]
  rcases h.counted.resumed_cases with
    ⟨hnone, -⟩ | ⟨i, m, r, hsome, hpos, hm, hr, hmin, hne, huse⟩
  · rw [h.counted.recalc_of_none hnone,
      h.reproduces_iff_resumed fun i r hr _ _ => ⟨r, hr, rfl⟩]
    exact and_congr_right fun _ =>
      iff_of_true (forall_not_resumed hnone) (forall_not_resumed hnone)
  · have hkept := h.counted.deleteLater_eq
    rw [UsageKind.recalc_of_pos hcolumn (by rw [hkept, hm]; exact hpos), hkept,
      h.reproduces_iff_resumed]
    · refine and_congr_right fun _ => ?_
      obtain ⟨totals, hsums, hzero, hused, hpaid⟩ :=
        UsageKind.sums_summed h.counted hcolumn hsub hr hmin hne hseconds hcredit
      obtain ⟨stats, hstats, hseconds', -⟩ := h.row hr hne
      rw [CreditsAgree, forall_resumed_iff hsome hstats, forall_resumed_iff hsome hstats]
      -- the row of the last call gets the sums, and they are not those of no call
      have hrow : kind.totals (kind.rebuilt column (s.calls.map (·.call.stored))
          (storedLastId s.calls) s.table r) = totals := by
        rw [UsageKind.totals_rebuilt_of_used ((huse i r hr).mpr rfl) (h.keyed i r hr).1 hm,
          hsums, Option.getD_some]
      have hresult := UsageKind.getElem?_deleteEmpty_resum.mpr ⟨r, hr, hrow ▸ hzero, rfl⟩
      rw [hresult]
      simp only [Option.some.injEq, exists_eq_left', hrow]
      rw [hused, hpaid, hseconds']
      exact and_congr_left' add_eq_left
    · intro i' r' hr' hne' hother
      have hunused : ¬kind.inUse (storedLastId s.calls) r' = true := by
        intro hused
        obtain rfl : i' = i := (huse i' r' hr').mp hused
        exact hother m hsome
      have htotals : kind.totals (kind.rebuilt column (s.calls.map (·.call.stored))
          (storedLastId s.calls) s.table r') = kind.totals r' :=
        UsageKind.totals_rebuilt_of_unused hunused
      refine ⟨_, UsageKind.getElem?_deleteEmpty_resum.mpr ⟨r', hr', ?_, rfl⟩, htotals⟩
      rw [htotals]
      exact fun hzero => hne' ((h.counted.minCallId_eq_zero hr').mp hzero)

/-- The rows after the two updates alone: the row of the last call has the sums of the
calls that are grouped under it, if there are any. -/
theorem reproduces_resum_iff {column : Call → Option Int} {i m : Int} {stats : ρ}
    (h : Stored kind s table callsRaw) (hsome : kind.resumed s.calls = some (i, m))
    (hstats : s.runtimeRow i = some stats) :
    s.Reproduces kind (kind.resum column callsRaw (storedLastId s.calls) table, true) ↔
      s.ShortCredits kind ∧
      match kind.sums (UsageKind.summed column callsRaw m i) with
      | none => HasDigits streamDigits (kind.totals stats).usedCredit
      | some totals => totals.usedSeconds = (kind.totals stats).usedSeconds ∧
          totals.usedCredit = (kind.totals stats).usedCredit := by
  obtain ⟨r, -, hm, hr, -, hne, huse⟩ := h.counted.of_resumed hsome
  obtain ⟨stats', hstats', hseconds, hrounded⟩ := h.row hr hne
  obtain rfl : stats = stats' := Option.some.inj (hstats.symm.trans hstats')
  rw [h.table, h.reproduces_iff_resumed]
  · refine and_congr_right fun _ => ?_
    have hrow : kind.totals (kind.rebuilt column callsRaw (storedLastId s.calls) s.table r) =
        (kind.sums (UsageKind.summed column callsRaw m i)).getD
          { kind.totals r with minCallId := 0 } :=
      UsageKind.totals_rebuilt_of_used ((huse i r hr).mpr rfl) (h.keyed i r hr).1 hm
    rw [forall_resumed_iff hsome hstats, UsageKind.getElem?_resum hr]
    simp only [Option.some.injEq, exists_eq_left', hrow]
    -- a group without calls leaves the row the sums that were saved
    cases kind.sums (UsageKind.summed column callsRaw m i) with
    | none =>
        show (kind.totals r).usedSeconds = _ ∧ (kind.totals r).usedCredit = _ ↔ _
        rw [hrounded, toSignificant_eq_self_iff]
        exact and_iff_right hseconds
    | some totals => exact Iff.rfl
  · intro i₁ r₁ hr₁ _ hother
    refine ⟨_, UsageKind.getElem?_resum hr₁, UsageKind.totals_rebuilt_of_unused ?_⟩
    intro hused
    obtain rfl : i₁ = i := (huse i₁ r₁ hr₁).mp hused
    exact hother m hsome

end Stored
end UsageSys

theorem StatsFreeminManager.chargedRow_of_bookedRow (c : CallInfo) (i : Int)
    (h : StatsFreeminManager.bookedRow c = some i) :
    StatsFreeminManager.chargedRow c.call = some i := by
  simp only [StatsFreeminManager.bookedRow] at h
  split at h
  · exact absurd h (by simp)
  · simp_all [StatsFreeminManager.chargedRow, nullable]

theorem StatsPackageManager.chargedRow_of_bookedRow (c : CallInfo) (i : Int)
    (h : StatsPackageManager.bookedRow c = some i) :
    StatsPackageManager.chargedRow c.call = some i := by
  simp only [StatsPackageManager.bookedRow] at h
  split at h
  · exact absurd h (by simp)
  · simp_all [StatsPackageManager.chargedRow, nullable]

/-- What the recalculation of package minutes needs of a counter with credit `credit`:
the column exists, no row of `stats_trunk_settings` is without a call, and the calls
grouped under the row, if there are any, are billed and cost together, as they are
stored, what the counter has counted. -/
def StatsNNPPackageMinuteManager.SumsAgree (origColumn : Option (Call → Option Int))
    (statsTrunkSettings : IntMap StatsTrunkSettings) (callsRaw : List Call)
    (stats : StatsNNPPackageMinute) (i m : Int) : Prop :=
  (∀ (k : Int) (row : StatsTrunkSettings), statsTrunkSettings[k]? = some row →
    row.minCallId ≠ 0) ∧
  ∃ column, origColumn = some column ∧
    if UsageKind.summed column callsRaw m i = [] then
      HasDigits streamDigits stats.usedCredit
    else
      ((UsageKind.summed column callsRaw m i).map (·.billedTime)).sum = stats.usedSeconds ∧
        ((UsageKind.summed column callsRaw m i).map (·.cost)).sum = stats.usedCredit

/-- The sums of a group as a condition on its calls. -/
theorem StatsNNPPackageMinuteManager.sums_iff (group : List Call) (stats : StatsNNPPackageMinute) :
    (match kind.sums group with
    | none => HasDigits streamDigits stats.usedCredit
    | some totals => totals.usedSeconds = stats.usedSeconds ∧
        totals.usedCredit = stats.usedCredit) ↔
    if group = [] then HasDigits streamDigits stats.usedCredit
    else (group.map (·.billedTime)).sum = stats.usedSeconds ∧
      (group.map (·.cost)).sum = stats.usedCredit := by
  by_cases hgroup : group = []
  · simp [UsageKind.sums, hgroup]
  · rw [if_neg hgroup, UsageKind.sums, if_neg hgroup]
    exact Iff.rfl

theorem StatsNNPPackageMinuteManager.reproduces_iff {db : UsageDb}
    {s : UsageSys StatsNNPPackageMinute}
    (h : Stored StatsNNPPackageMinuteManager.kind s db.statsNNPPackageMinute db.callsRaw)
    (origColumn : Option (Call → Option Int)) :
    (s.Reproduces StatsNNPPackageMinuteManager.kind
        ((StatsNNPPackageMinuteManager.recalc origColumn db
            (storedLastId s.calls)).1.statsNNPPackageMinute,
          (StatsNNPPackageMinuteManager.recalc origColumn db (storedLastId s.calls)).2) ∧
      (StatsNNPPackageMinuteManager.recalc origColumn db (storedLastId s.calls)).1 =
        { db with
          statsNNPPackageMinute :=
            (StatsNNPPackageMinuteManager.recalc origColumn db
              (storedLastId s.calls)).1.statsNNPPackageMinute }) ↔
    s.ShortCredits StatsNNPPackageMinuteManager.kind ∧
    ∀ i m stats, StatsNNPPackageMinuteManager.kind.resumed s.calls = some (i, m) →
      s.runtimeRow i = some stats →
      StatsNNPPackageMinuteManager.SumsAgree origColumn db.statsTrunkSettings db.callsRaw stats
        i m := by
  have hkept := h.counted.deleteLater_eq
  rw [← h.table] at hkept
  rcases h.counted.resumed_cases with
    ⟨hnone, hnonpos⟩ | ⟨i, m, r, hsome, hpos, hm, hr, -, hne, -⟩
  · rw [← h.table] at hnonpos
    have hrecalc : StatsNNPPackageMinuteManager.recalc origColumn db (storedLastId s.calls) =
        (db, true) := by
      simp only [StatsNNPPackageMinuteManager.recalc, hkept, hnonpos, if_false]
    rw [hrecalc, and_iff_left rfl, h.table, h.reproduces_iff_resumed fun i r hr _ _ => ⟨r, hr, rfl⟩]
    exact and_congr_right fun _ =>
      iff_of_true (forall_not_resumed hnone) (forall_not_resumed hnone)
  rw [← h.table] at hm
  obtain ⟨stats, hstats, -⟩ := h.row hr hne
  rw [forall_resumed_iff hsome hstats]
  cases origColumn with
  | none =>
      have hrecalc : StatsNNPPackageMinuteManager.recalc none db (storedLastId s.calls) =
          (db, false) := by
        simp only [StatsNNPPackageMinuteManager.recalc, hkept, hm, hpos, if_true]
      -- the statement that groups by the missing column fails
      rw [hrecalc]
      refine iff_of_false (fun hreproduces => absurd hreproduces.1.1 (by simp)) ?_
      rintro ⟨-, -, column, hcolumn, -⟩
      exact absurd hcolumn (by simp)
  | some column =>
      have hrecalc : StatsNNPPackageMinuteManager.recalc (some column) db (storedLastId s.calls) =
          ({ db with
            statsNNPPackageMinute := StatsNNPPackageMinuteManager.kind.resum column
              db.callsRaw (storedLastId s.calls) db.statsNNPPackageMinute
            statsTrunkSettings :=
              StatsTrunkSettingsManager.kind.deleteEmpty db.statsTrunkSettings }, true) := by
        simp only [StatsNNPPackageMinuteManager.recalc, hkept, hm, hpos, if_true]
      rw [hrecalc, h.reproduces_resum_iff hsome hstats]
      have hsums := StatsNNPPackageMinuteManager.sums_iff
        (UsageKind.summed column db.callsRaw m i) stats
      constructor
      · rintro ⟨⟨hshort, hagree⟩, hdb⟩
        have htrunk : StatsTrunkSettingsManager.kind.deleteEmpty db.statsTrunkSettings =
            db.statsTrunkSettings := congrArg UsageDb.statsTrunkSettings hdb
        exact ⟨hshort, UsageKind.deleteEmpty_eq_self_iff.mp htrunk, column, rfl,
          hsums.mp hagree⟩
      · rintro ⟨hshort, hrows, column', hcolumn, hagree⟩
        obtain rfl : column = column' := Option.some.inj hcolumn
        have htrunk : StatsTrunkSettingsManager.kind.deleteEmpty db.statsTrunkSettings =
            db.statsTrunkSettings := UsageKind.deleteEmpty_eq_self_iff.mpr hrows
        refine ⟨⟨hshort, hsums.mpr hagree⟩, ?_⟩
        rw [htrunk]

/-- The database after the free call. -/
def freeCallDb (table : IntMap StatsFreemin) : UsageDb :=
  ⟨[(freeCall 1).call.stored], table, ∅, ∅, ∅⟩

/-- A call of sixty seconds, thirty of them taken from the first counter of package
minutes. -/
def minuteCallInfo : CallInfo :=
  { call := { id := 1, billedTime := 60, packageTime := 30, statsNnpPackageMinuteId := 1 } }

/-- Look the counter up, add the call and save everything. -/
def minuteRun : List (UsageAct StatsNNPPackageMinute StatsNNPPackageMinuteManager.Query) :=
  [.lookup ⟨0, { id := 1 }, { id := 1 }⟩, .add minuteCallInfo, .createNewPartition, .save]

/-- The database after it. -/
def minuteDb (table : IntMap StatsNNPPackageMinute) : UsageDb :=
  ⟨[minuteCallInfo.call.stored], ∅, ∅, ∅, table⟩

/-- The recalculation of package minutes throws; with the column it would count the
billed seconds. -/
theorem recalc_throws_of_minuteCall :
    ∃ s, run (step StatsNNPPackageMinuteManager.kind) init minuteRun = some s ∧
      Stored StatsNNPPackageMinuteManager.kind s s.table (minuteDb s.table).callsRaw ∧
      (s.runtimeRow 1).map (·.usedSeconds) = some 30 ∧
      (StatsNNPPackageMinuteManager.recalc none (minuteDb s.table) 1).2 = false ∧
      (StatsNNPPackageMinuteManager.recalc (some fun call => nullable call.statsNnpPackageMinuteId)
        (minuteDb s.table) 1).1.statsNNPPackageMinute[(1 : Int)]?.map (·.usedSeconds) =
          some 60 := by
  have hrun : (run (step StatsNNPPackageMinuteManager.kind) init minuteRun).map
      (fun s => (s.calls, s.queue, (s.runtimeRow 1).map (·.usedSeconds),
        (StatsNNPPackageMinuteManager.recalc none (minuteDb s.table) 1).2,
        (StatsNNPPackageMinuteManager.recalc
          (some fun call => nullable call.statsNnpPackageMinuteId)
          (minuteDb s.table) 1).1.statsNNPPackageMinute[(1 : Int)]?.map (·.usedSeconds))) =
        some ([minuteCallInfo], [[]], some 30, false, some 60) := by
    decide +kernel
  obtain ⟨s, hs, heq⟩ := Option.map_eq_some_iff.mp hrun
  obtain ⟨hcalls, heq⟩ := Prod.mk.inj heq
  obtain ⟨hqueue, heq⟩ := Prod.mk.inj heq
  obtain ⟨hused, heq⟩ := Prod.mk.inj heq
  obtain ⟨hthrows, hsums⟩ := Prod.mk.inj heq
  refine ⟨s, hs, ⟨⟨_, ?_, hs⟩, by rw [hqueue]; rfl, rfl, by rw [hcalls]; rfl⟩, hused, hthrows,
    hsums⟩
  refine ⟨trivial, fun s₁ h₁ => ⟨⟨by decide, ?_, ?_⟩, fun _ _ => ⟨trivial, fun _ _ =>
    ⟨trivial, fun _ _ => trivial⟩⟩⟩⟩
  · rw [← Option.some.inj h₁]
    decide +kernel
  · intro i hbooked
    obtain rfl : (1 : Int) = i := Option.some.inj hbooked
    rw [← Option.some.inj h₁]
    exact ⟨{ id := 1, nnpAccountTariffLightId := 1, nnpPackageMinuteId := 1 }, by decide +kernel⟩

/-- A call by trunk that costs 1234.564. -/
def trunkCallInfo (id : Int) : CallInfo :=
  { call := { id := id, billedTime := 60, cost := -1234.564, trunkSettingsStatsId := 1 } }

/-- Look the counter up, add two calls and save everything. -/
def trunkRun : List (UsageAct StatsTrunkSettings StatsTrunkSettingsManager.Query) :=
  [.lookup ⟨0, {}, { id := 1 }⟩, .add (trunkCallInfo 1), .add (trunkCallInfo 2),
    .createNewPartition, .save]

/-- The database after it. -/
def trunkDb (table : IntMap StatsTrunkSettings) : UsageDb :=
  ⟨[(trunkCallInfo 1).call.stored, (trunkCallInfo 2).call.stored], ∅, ∅, table, ∅⟩

/-- Two credits that are rounded before they are summed. -/
theorem recalc_rounds_of_trunkCalls :
    ∃ s, run (step StatsTrunkSettingsManager.kind) init trunkRun = some s ∧
      Stored StatsTrunkSettingsManager.kind s s.table (trunkDb s.table).callsRaw ∧
      (s.runtimeRow 1).map (·.usedCredit) = some (-2469.128) ∧
      (StatsTrunkSettingsManager.recalc (trunkDb s.table)
        2).1.statsTrunkSettings[(1 : Int)]?.map (·.usedCredit) = some (-2469.12) := by
  have hrun : (run (step StatsTrunkSettingsManager.kind) init trunkRun).map
      (fun s => (s.calls, s.queue, (s.runtimeRow 1).map (·.usedCredit),
        (StatsTrunkSettingsManager.recalc (trunkDb s.table)
          2).1.statsTrunkSettings[(1 : Int)]?.map (·.usedCredit))) =
        some ([trunkCallInfo 1, trunkCallInfo 2], [[]], some (-2469.128), some (-2469.12)) := by
    decide +kernel
  obtain ⟨s, hs, heq⟩ := Option.map_eq_some_iff.mp hrun
  obtain ⟨hcalls, heq⟩ := Prod.mk.inj heq
  obtain ⟨hqueue, heq⟩ := Prod.mk.inj heq
  obtain ⟨hcredit, hsum⟩ := Prod.mk.inj heq
  refine ⟨s, hs, ⟨⟨_, ?_, hs⟩, by rw [hqueue]; rfl, rfl, by rw [hcalls]; rfl⟩, hcredit, hsum⟩
  refine ⟨trivial, fun s₁ h₁ => ⟨⟨by decide, ?_, ?_⟩, fun s₂ h₂ => ⟨⟨by decide, ?_, ?_⟩,
    fun _ _ => ⟨trivial, fun _ _ => ⟨trivial, fun _ _ => trivial⟩⟩⟩⟩⟩
  · rw [← Option.some.inj h₁]
    decide +kernel
  · intro i hbooked
    obtain rfl : (1 : Int) = i := Option.some.inj hbooked
    rw [← Option.some.inj h₁]
    exact Option.isSome_iff_exists.mp (by decide +kernel)
  · rw [← Option.some.inj h₂, ← Option.some.inj h₁]
    decide +kernel
  · intro i hbooked
    obtain rfl : (1 : Int) = i := Option.some.inj hbooked
    rw [← Option.some.inj h₂, ← Option.some.inj h₁]
    exact Option.isSome_iff_exists.mp (by decide +kernel)

end VoipBill
