import Mathlib.Logic.Relation
import VoipBill.Sync.ManagerPull

/-!
# Does the loop of a pull end?

`ManagerPull::pull` repeats its iteration until the select comes back empty.  When
every puller succeeds and no events arrive, an iteration deletes the events without a
puller among the rows it reads, and the events of the pullers up to the version of the
last row of the whole result.

* `run_iteration`, `run_of_ends`: this is what the steps of the loop do;
* `Stuck`: a result with which nothing is deleted;
* `ends_iff`: the loop ends, with no event of the regions left, exactly if it never
  comes to a stuck result.
-/

namespace VoipBill
namespace ManagerPull

open Lib Relation

variable {regions : List Int} {events : List String} {queue queue' res : List EventRow}

/-! ## One iteration -/

/-- A result of the select.  The order of rows with the same server and version is
left open. -/
structure IsResult (regions : List Int) (queue res : List EventRow) : Prop where
  perm : res.Perm (queue.filter fun row => inRegions regions row)
  sorted : res.Pairwise rowLe

/-- An iteration deletes the row: its event has no puller and is among those that are
read, or it has one and the version is reached. -/
def Deletes (events : List String) (res : List EventRow) (row : EventRow) : Prop :=
  (∃ read ∈ res.take partSize, read.event ∉ events ∧ read.event = row.event) ∨
    row.event ∈ events ∧ row.version ≤ lastVersion res

instance (events : List String) (res : List EventRow) (row : EventRow) :
    Decidable (Deletes events res row) :=
  inferInstanceAs (Decidable ((∃ read ∈ res.take partSize, read.event ∉ events ∧
    read.event = row.event) ∨ row.event ∈ events ∧ row.version ≤ lastVersion res))

/-- The queue after an iteration. -/
def afterIteration (regions : List Int) (events : List String) (res queue : List EventRow) :
    List EventRow :=
  queue.filter fun row => ¬(inRegions regions row ∧ Deletes events res row)

/-- The loop goes round once. -/
def Iteration (regions : List Int) (events : List String) (queue queue' : List EventRow) : Prop :=
  ∃ res, IsResult regions queue res ∧ res ≠ [] ∧
    queue' = afterIteration regions events res queue

/-- However the rows are ordered, the loop ends after finitely many iterations, and
then no event of the regions is left. -/
inductive Ends (regions : List Int) (events : List String) : List EventRow → Prop where
  | empty {queue : List EventRow} (h : ∀ row ∈ queue, ¬inRegions regions row) :
      Ends regions events queue
  | next {queue : List EventRow} (hsome : ∃ row ∈ queue, inRegions regions row)
      (h : ∀ res, IsResult regions queue res →
        Ends regions events (afterIteration regions events res queue)) :
      Ends regions events queue

/-- All rows that are read have a puller, and all rows with a puller have a greater
version than the last row of the result. -/
structure Stuck (events : List String) (res : List EventRow) : Prop where
  some : res ≠ []
  read : ∀ row ∈ res.take partSize, row.event ∈ events
  above : ∀ row ∈ res, row.event ∈ events → lastVersion res < row.version

theorem mem_result_iff (h : IsResult regions queue res) {row : EventRow} :
    row ∈ res ↔ row ∈ queue ∧ inRegions regions row := by
  rw [h.perm.mem_iff, List.mem_filter, decide_eq_true_eq]

theorem result_ne_nil_iff (h : IsResult regions queue res) :
    res ≠ [] ↔ ∃ row ∈ queue, inRegions regions row := by
  constructor
  · intro hne
    obtain ⟨row, hrow⟩ := List.exists_mem_of_ne_nil res hne
    exact ⟨row, (mem_result_iff h).mp hrow⟩
  · rintro ⟨row, hrow⟩
    exact List.ne_nil_of_mem ((mem_result_iff h).mpr hrow)

/-- A stuck iteration leaves the queue as it is. -/
theorem afterIteration_of_stuck (h : IsResult regions queue res) (hstuck : Stuck events res) :
    afterIteration regions events res queue = queue := by
  refine List.filter_eq_self.mpr fun row hrow => decide_eq_true ?_
  rintro ⟨hregion, hdeletes⟩
  rcases hdeletes with ⟨read, hread, hunknown, -⟩ | ⟨hknown, hversion⟩
  · exact hunknown (hstuck.read read hread)
  · have hmem : row ∈ res := (mem_result_iff h).mpr ⟨hrow, hregion⟩
    exact absurd (hstuck.above row hmem hknown) (not_lt.mpr hversion)

/-- Any other iteration deletes a row. -/
theorem exists_deleted (hne : res ≠ []) (h : ¬Stuck events res) :
    ∃ row ∈ res, Deletes events res row := by
  by_contra hnone
  rw [not_exists] at hnone
  simp only [not_and] at hnone
  refine h ⟨hne, fun row hrow => ?_, fun row hrow hknown => ?_⟩
  · by_contra hunknown
    exact hnone row (List.mem_of_mem_take hrow) (.inl ⟨row, hrow, hunknown, rfl⟩)
  · by_contra hversion
    exact hnone row hrow (.inr ⟨hknown, not_lt.mp hversion⟩)

/-- The rows of the regions become fewer. -/
theorem length_afterIteration_lt (hres : IsResult regions queue res) (hne : res ≠ [])
    (h : ¬Stuck events res) :
    ((afterIteration regions events res queue).filter fun row => inRegions regions row).length <
      (queue.filter fun row => inRegions regions row).length := by
  obtain ⟨row, hrow, hdeletes⟩ := exists_deleted hne h
  obtain ⟨hmem, hregion⟩ := (mem_result_iff hres).mp hrow
  have hcomm : (afterIteration regions events res queue).filter
      (fun row => decide (inRegions regions row)) =
        (queue.filter fun row => inRegions regions row).filter
          fun row => ¬(inRegions regions row ∧ Deletes events res row) :=
    List.filter_comm ..
  rw [hcomm]
  refine List.length_filter_lt_length_iff_exists.mpr ⟨row, ?_, ?_⟩
  · exact List.mem_filter.mpr ⟨hmem, decide_eq_true hregion⟩
  · simpa using ⟨hregion, hdeletes⟩

/-! ## The steps of an iteration -/

section Steps

instance : Std.Total rowLe := ⟨fun a b => by unfold rowLe; omega⟩

instance : IsTrans EventRow rowLe := ⟨fun a b c => by unfold rowLe; omega⟩

theorem isResult_selectEvents (regions : List Int) (queue : List EventRow) :
    IsResult regions queue (selectEvents regions queue) :=
  ⟨List.perm_insertionSort _ _, List.pairwise_insertionSort _ _⟩

/-- The events of the pullers. -/
def PullSys.pullEvents (s : PullSys) : List String := s.pulls.map BasePull.event

theorem map_events {f : BasePull → BasePull} (hf : ∀ p, (f p).event = p.event)
    (pulls : List BasePull) : (pulls.map f).map BasePull.event = pulls.map BasePull.event := by
  rw [List.map_map]
  exact List.map_congr_left fun p _ => hf p

/-- The read row stays with its puller, or its event is deleted. -/
theorem step_readRow {s : PullSys} {row : EventRow} {k : Nat} (hphase : s.phase = .reading res k)
    (hrow : res[k]? = some row) (hpart : k < partSize) :
    ∃ s', step regions s .readRow = some s' ∧ s'.phase = .reading res (k + 1) ∧
      s'.pullEvents = s.pullEvents ∧
      s'.queue = s.queue.filter fun r =>
        ¬(inRegions regions r ∧ row.event ∉ s.pullEvents ∧ row.event = r.event) := by
  simp only [step, hphase, hrow, if_neg (not_le.mpr hpart)]
  by_cases hknown : row.event ∈ s.pullEvents
  · have hfind : (find s.pulls row.event).isSome = true := mem_events_iff.mp hknown
    rw [if_pos hfind]
    refine ⟨_, rfl, rfl, map_events (fun p => ?_) s.pulls, ?_⟩
    · split
      · exact p.addId_event _
      · rfl
    · exact (List.filter_eq_self.mpr fun r _ => by simp [hknown]).symm
  · have hfind : ¬(find s.pulls row.event).isSome = true := fun hsome =>
      hknown (mem_events_iff.mpr hsome)
    rw [if_neg hfind]
    refine ⟨_, rfl, rfl, rfl, List.filter_congr fun r _ => ?_⟩
    simp [hknown, eq_comm]

theorem exists_mem_snoc_iff {rows : List EventRow} {row : EventRow} {P : EventRow → Prop} :
    (∃ read ∈ rows ++ [row], P read) ↔ (∃ read ∈ rows, P read) ∨ P row := by
  simp [or_and_right, exists_or]

/-- Reading the first rows deletes the events among them that have no puller. -/
theorem run_readRow {s : PullSys} (hphase : s.phase = .reading res 0) (k : Nat)
    (hlength : k ≤ res.length) (hpart : k ≤ partSize) :
    ∃ s', run (step regions) s (List.replicate k .readRow) = some s' ∧
      s'.phase = .reading res k ∧ s'.pullEvents = s.pullEvents ∧
      s'.queue = s.queue.filter fun row => ¬(inRegions regions row ∧
        ∃ read ∈ res.take k, read.event ∉ s.pullEvents ∧ read.event = row.event) := by
  induction k with
  | zero =>
      refine ⟨s, rfl, hphase, rfl, (List.filter_eq_self.mpr fun row _ => ?_).symm⟩
      simp
  | succ k ih =>
      obtain ⟨t, hrun, htphase, htevents, htqueue⟩ := ih (by omega) (by omega)
      obtain ⟨s', hstep, hphase', hevents', hqueue'⟩ :=
        @step_readRow regions res t res[k] k htphase (List.getElem?_eq_getElem hlength) hpart
      refine ⟨s', ?_, hphase', hevents'.trans htevents, ?_⟩
      · rw [List.replicate_succ', run_append, hrun, Option.bind_some, run_cons, hstep]
        rfl
      · have htake := List.take_succ_eq_append_getElem hlength
        rw [hqueue', htqueue, htevents, List.filter_filter, htake]
        refine List.filter_congr fun row _ => ?_
        rw [← Bool.decide_and, decide_eq_decide, exists_mem_snoc_iff, and_or_left, not_or, and_comm]

theorem step_pullOne {s : PullSys} {version : Int} {event : String} {todo : List String}
    (hphase : s.phase = .pulling version (event :: todo)) :
    ∃ s', run (step regions) s [.pullOne true, .delete true] = some s' ∧
      s'.phase = .pulling version todo ∧ s'.pullEvents = s.pullEvents ∧
      s'.queue = s.queue.filter fun row =>
        ¬(inRegions regions row ∧ row.event = event ∧ row.version ≤ version) := by
  simp only [run, step, hphase, if_true, Option.bind_some]
  refine ⟨_, rfl, rfl, map_events (fun p => ?_) s.pulls, rfl⟩
  split
  · exact p.afterPull_event
  · rfl

theorem run_pulls {s : PullSys} {version : Int} {todo : List String}
    (hphase : s.phase = .pulling version todo) :
    ∃ s', run (step regions) s (todo.flatMap fun _ => [.pullOne true, .delete true]) = some s' ∧
      s'.phase = .pulling version [] ∧ s'.pullEvents = s.pullEvents ∧
      s'.queue = s.queue.filter fun row =>
        ¬(inRegions regions row ∧ row.event ∈ todo ∧ row.version ≤ version) := by
  induction todo generalizing s with
  | nil =>
      refine ⟨s, rfl, hphase, rfl, (List.filter_eq_self.mpr fun row _ => ?_).symm⟩
      simp
  | cons event todo ih =>
      obtain ⟨t, hrun, htphase, htevents, htqueue⟩ := @step_pullOne regions s version event todo hphase
      obtain ⟨s', hrest, hphase', hevents', hqueue'⟩ := ih htphase
      refine ⟨s', ?_, hphase', hevents'.trans htevents, ?_⟩
      · rw [List.flatMap_cons, run_append, hrun, Option.bind_some, hrest]
      · rw [hqueue', htqueue, List.filter_filter]
        refine List.filter_congr fun row _ => ?_
        rw [← Bool.decide_and, decide_eq_decide, List.mem_cons]
        tauto

/-- The steps of one iteration in which nothing fails. -/
def iterationActs (res : List EventRow) (events : List String) : List Act :=
  .select :: List.replicate (min partSize res.length) .readRow ++ .startPulls ::
    (events.flatMap fun _ => [.pullOne true, .delete true]) ++ [.finish]

/-- An iteration of the source without failures and arrivals is one of the loop. -/
theorem run_iteration {s : PullSys} (hidle : s.phase = .idle)
    (hne : selectEvents regions s.queue ≠ []) :
    ∃ s', run (step regions) s
        (iterationActs (selectEvents regions s.queue) s.pullEvents) = some s' ∧
      s'.phase = .idle ∧ s'.pullEvents = s.pullEvents ∧
      s'.queue = afterIteration regions s.pullEvents (selectEvents regions s.queue) s.queue := by
  generalize hres : selectEvents regions s.queue = res at hne
  obtain ⟨row, rest, rfl⟩ := List.exists_cons_of_ne_nil hne
  generalize hread : min partSize (row :: rest).length = k
  have hselect : step regions s .select = some { s with
      pulls := s.pulls.map BasePull.clear
      phase := .reading (row :: rest) 0
      read := []
      pulled := [] } := by
    simp only [step, hidle, hres]
  -- the rows are read, then every puller pulls and deletes
  obtain ⟨t, hrows, htphase, htevents, htqueue⟩ :=
    @run_readRow regions (row :: rest) { s with
      pulls := s.pulls.map BasePull.clear
      phase := .reading (row :: rest) 0
      read := []
      pulled := [] } rfl k (by omega) (by omega)
  have hclear : PullSys.pullEvents { s with
      pulls := s.pulls.map BasePull.clear
      phase := .reading (row :: rest) 0
      read := []
      pulled := [] } = s.pullEvents := map_events BasePull.clear_event s.pulls
  rw [hclear] at htevents htqueue
  have hstart : step regions t .startPulls = some { t with
      phase := .pulling (lastVersion (row :: rest)) s.pullEvents } := by
    simp only [step, htphase]
    rw [if_pos (by omega), ← htevents]
    rfl
  obtain ⟨u, hpulls, huphase, huevents, huqueue⟩ :=
    @run_pulls regions { t with phase := .pulling (lastVersion (row :: rest)) s.pullEvents }
      (lastVersion (row :: rest)) s.pullEvents rfl
  have hfinish : step regions u .finish = some { u with phase := .idle } := by
    simp only [step, huphase]
  refine ⟨{ u with phase := .idle }, ?_, rfl, huevents.trans htevents, ?_⟩
  · rw [iterationActs, hread, List.cons_append, List.cons_append, run_cons, hselect,
      Option.bind_some, List.append_assoc, run_append, hrows, Option.bind_some, List.cons_append,
      run_cons, hstart, Option.bind_some, run_append, hpulls, Option.bind_some, run_cons, hfinish]
    rfl
  · show u.queue = _
    -- what is left has survived both filters
    rw [huqueue]
    show t.queue.filter _ = _
    rw [htqueue, List.filter_filter, afterIteration]
    have htake : (row :: rest).take k = (row :: rest).take partSize := by
      rw [← hread]
      exact List.take_eq_take_min.symm
    refine List.filter_congr fun r _ => ?_
    rw [← Bool.decide_and, decide_eq_decide, htake, Deletes, and_or_left, not_or, and_comm]

end Steps

/-! ## The loop -/

/-- Whatever the loop comes to from a queue it ends from is not stuck. -/
theorem not_stuck_of_ends (h : Ends regions events queue)
    (hreach : ReflTransGen (Iteration regions events) queue queue')
    (hres : IsResult regions queue' res) : ¬Stuck events res := by
  induction h with
  | @empty queue hempty =>
      intro hstuck
      rcases ReflTransGen.cases_head hreach with rfl | ⟨middle, ⟨first, hfirst, hne, -⟩, -⟩
      · obtain ⟨row, hrow, hregion⟩ := (result_ne_nil_iff hres).mp hstuck.some
        exact hempty row hrow hregion
      · obtain ⟨row, hrow, hregion⟩ := (result_ne_nil_iff hfirst).mp hne
        exact hempty row hrow hregion
  | @next queue _ _ ih =>
      rcases ReflTransGen.cases_head hreach with rfl | ⟨middle, ⟨first, hfirst, -, rfl⟩, hrest⟩
      · -- a stuck iteration leads back to the same queue
        intro hstuck
        refine ih res hres ?_ hstuck
        rw [afterIteration_of_stuck hres hstuck]
      · exact ih first hfirst hrest

theorem ends_of_not_stuck (regions : List Int) (events : List String) (queue : List EventRow)
    (h : ∀ queue' res, ReflTransGen (Iteration regions events) queue queue' →
      IsResult regions queue' res → ¬Stuck events res) : Ends regions events queue := by
  -- the number of rows of the regions goes down
  induction hlen : (queue.filter fun row => inRegions regions row).length
    using Nat.strong_induction_on generalizing queue with
  | _ n ih =>
      by_cases hsome : ∃ row ∈ queue, inRegions regions row
      · refine .next hsome fun res hres => ?_
        have hne := (result_ne_nil_iff hres).mpr hsome
        have hlt := length_afterIteration_lt hres hne (h queue res .refl hres)
        refine ih _ (hlen ▸ hlt) _ (fun queue' res' hreach => ?_) rfl
        exact h queue' res' (.head ⟨res, hres, hne, rfl⟩ hreach)
      · exact .empty fun row hrow hregion => hsome ⟨row, hrow, hregion⟩

/-- A loop that ends is a run of the steps to a state without events of the regions. -/
theorem run_of_ends {s : PullSys} (hidle : s.phase = .idle)
    (h : Ends regions s.pullEvents s.queue) :
    ∃ acts s', run (step regions) s acts = some s' ∧ s'.phase = .idle ∧
      ∀ row ∈ s'.queue, ¬inRegions regions row := by
  generalize hqueue : s.queue = queue at h
  generalize hevents : s.pullEvents = events at h
  induction h generalizing s with
  | empty hempty => exact ⟨[], s, rfl, hidle, hqueue ▸ hempty⟩
  | @next queue hsome _ ih =>
      have hres := isResult_selectEvents regions queue
      have hne : selectEvents regions s.queue ≠ [] := hqueue ▸ (result_ne_nil_iff hres).mpr hsome
      obtain ⟨t, hrun, htidle, htevents, htqueue⟩ := run_iteration hidle hne
      rw [hqueue, hevents] at htqueue
      obtain ⟨acts, s', hrest, hidle', hempty⟩ := ih _ hres htidle htqueue (htevents.trans hevents)
      refine ⟨iterationActs (selectEvents regions s.queue) s.pullEvents ++ acts, s', ?_, hidle',
        hempty⟩
      rw [run_append, hrun, Option.bind_some, hrest]

/-- The loop ends from a queue exactly if no iteration it can come to is stuck. -/
theorem ends_iff (regions : List Int) (events : List String) (queue : List EventRow) :
    Ends regions events queue ↔
      ∀ queue' res, ReflTransGen (Iteration regions events) queue queue' →
        IsResult regions queue' res → ¬Stuck events res :=
  ⟨fun h _ _ hreach hres => not_stuck_of_ends h hreach hres,
    ends_of_not_stuck regions events queue⟩

/-- A hundred changes of clients in one region, and behind them an older event that
has no puller. -/
def stuckEvents : List EventRow :=
  (List.range 100).map (fun i =>
    { serverId := 98, event := "client", param := toString (i + 1), version := i + 2 }) ++
  [{ serverId := 99, event := "obsolete", param := "0", version := 1 }]

/-- With them the loop goes round for ever. -/
theorem not_ends_stuckEvents : ¬Ends [98, 99] ["client"] stuckEvents := by
  intro h
  have hres : IsResult [98, 99] stuckEvents stuckEvents := by
    constructor
    · have hfilter : stuckEvents.filter (fun row => inRegions [98, 99] row) = stuckEvents := by
        decide +kernel
      rw [hfilter]
    · decide +kernel
  refine not_stuck_of_ends h .refl hres ⟨by decide, ?_, ?_⟩
  · decide +kernel
  · decide +kernel

end ManagerPull
end VoipBill
