import Mathlib.Data.List.Perm.Basic
import VoipBill.Sync.BasePull

/-!
# The local copies of the central tables

`ManagerPull::pull` with the tables its pullers copy.  Other sessions change central tables
and announce every change by an event; the pulls may lose their connection at any statement.

* `step`: the steps of `ManagerPull`, where a pull rewrites its local table;
* `Inv`: a key whose rows differ is announced by an event that the iteration under way does
  not delete unapplied;
* `copied_or_announced`: this holds in every run whose steps meet `CopyOk`;
* `perm_of_no_events`: without events for a table, its copy has the selected rows.
-/

namespace VoipBill
namespace TableCopies

open Lib ManagerPull

/-- The queue and the pullers, the central and the local tables by the event of their puller,
and whether the connection to the local database is open. -/
structure CopySys (ρ : Type) where
  sys : PullSys
  src : String → List ρ
  dst : String → List ρ
  connected : Bool

/-- Another session changes tables and announces it, the next puller runs, or `pull` does
something else. -/
inductive Act (ρ : Type) where
  | change (src : String → List ρ) (queue : List EventRow)
  | pull (drops : BasePull.PullDrops)
  | other (a : ManagerPull.Act)

section

variable {ρ : Type} (regions : List Int) (tables : String → PullTable ρ)

/-- The next puller, if one is about to run. -/
def nextPull (s : PullSys) : Option BasePull :=
  match s.phase with
  | .pulling _ (event :: _) => find s.pulls event
  | _ => none

def step (s : CopySys ρ) : Act ρ → Option (CopySys ρ)
  | .change src queue => some { s with src := src, sys := { s.sys with queue := queue } }
  | .pull drops =>
      match nextPull s.sys with
      | some p =>
          let result := p.pullAll (tables p.event) (s.src p.event)
            (BasePull.auto (s.dst p.event) s.connected) drops
          (ManagerPull.step regions s.sys (.pullOne result.2)).map fun sys =>
            { s with
              sys := sys
              dst := Function.update s.dst p.event result.1.durable
              connected := result.1.connected }
      | none => none
  | .other (.arrive _) => none
  | .other (.pullOne _) => none
  | .other a => (ManagerPull.step regions s.sys a).map fun sys => { s with sys := sys }

/-- An event concerns the rows of a key: it names the key or all, or the table has none. -/
def Covers (p : BasePull) (param id : String) : Prop := p.key = "" ∨ param = "0" ∨ param = id

/-- The local rows of a key are those that the puller selects. -/
def Agrees (s : CopySys ρ) (event id : String) : Prop :=
  ((tables event).rowsOf id (s.dst event)).Perm
    ((tables event).rowsOf id ((tables event).selected (s.src event)))

/-- The event is in the queue of the regions and concerns the key. -/
def Announces (p : BasePull) (id : String) (row : EventRow) : Prop :=
  inRegions regions row ∧ row.event = p.event ∧ Covers p row.param id

/-- The row stays, or the event has a newer row for the same record or for all. -/
def Renewed (queue queue' : List EventRow) (row : EventRow) : Prop :=
  ∃ row' ∈ queue', inRegions regions row' ∧ row'.event = row.event ∧
    (row'.param = row.param ∨ row'.param = "0") ∧ (row' = row ∨ row' ∉ queue)

/-- What is assumed of a step: changes are announced by new rows, whose versions are out of
reach of the deletes under way, and no event of the regions is taken away; selects meet the
condition of `ManagerPull`; no transaction is lost at its `COMMIT`. -/
def CopyOk (s : CopySys ρ) : Act ρ → Prop
  | .change src queue =>
      PullOk regions s.sys (.arrive queue) ∧
      (∀ p ∈ s.sys.pulls, ∀ id,
        (tables p.event).rowsOf id ((tables p.event).selected (src p.event)) =
            (tables p.event).rowsOf id ((tables p.event).selected (s.src p.event)) ∨
          ∃ row ∈ queue, row ∉ s.sys.queue ∧ Announces regions p id row) ∧
      ∀ row ∈ s.sys.queue, inRegions regions row → Renewed regions s.sys.queue queue row
  | .pull drops => ∀ p, nextPull s.sys = some p → ¬ p.LosesCommit drops
  | .other a => PullOk regions s.sys a

end

/-! ## What the iteration has still to do -/

/-- The puller of the event has not run in this iteration. -/
def Remaining : Phase → String → Prop
  | .idle, _ => False
  | .reading _ _, _ => True
  | .pulling _ todo, event => event ∈ todo
  | .deleting _ _ todo, event => event ∈ todo

/-- The next delete does not hit the row. -/
def Survives (phase : Phase) (row : EventRow) : Prop :=
  ∀ version todo, phase = .deleting version row.event todo → version < row.version

/-- The pullers that are still to run, without repetitions. -/
def TodoNodup : Phase → Prop
  | .pulling _ todo => todo.Nodup
  | .deleting _ event todo => (event :: todo).Nodup
  | _ => True

section

variable {ρ : Type} (regions : List Int) (tables : String → PullTable ρ)

/-- What a puller has collected: the events it has read, each of them in the queue or renewed
there; a table without key is pulled as a whole. -/
structure Collects (s : PullSys) (p : BasePull) : Prop where
  read : ∀ row ∈ s.read, row.event = p.event → p.Copies row.param
  backed : ∀ id, p.Copies id → ∃ row ∈ s.queue, Announces regions p id row
  cleared : p.needPull = true ∨ p = p.clear
  keyless : p.key = "" → p.fullPull = true
  zero : "0" ∉ p.idsToPull

/-- The rows of the result are in the queue or renewed there. -/
def ResBacked (s : PullSys) : Prop :=
  ∀ res waiting, s.phase = .reading res waiting → ∀ row ∈ res, (find s.pulls row.event).isSome →
    ∃ row' ∈ s.queue, inRegions regions row' ∧ row'.event = row.event ∧
      (row'.param = row.param ∨ row'.param = "0")

/-- Keys that differ are announced. -/
structure Inv (s : CopySys ρ) : Prop where
  pull : ManagerPull.Inv regions s.sys
  nodup : (s.sys.pulls.map BasePull.event).Nodup
  todo : TodoNodup s.sys.phase
  collects : ∀ p ∈ s.sys.pulls, Remaining s.sys.phase p.event → Collects regions s.sys p
  resBacked : ResBacked regions s.sys
  announced : ∀ p ∈ s.sys.pulls, ∀ id, Agrees tables s p.event id ∨
    ∃ row ∈ s.sys.queue, Announces regions p id row ∧ Survives s.sys.phase row

end

section

variable {ρ : Type} {regions : List Int} {tables : String → PullTable ρ}

/-! ## Other sessions -/

/-- A row that renews an announcement is one. -/
theorem Announces.renewed {p : BasePull} {id : String} {row : EventRow}
    {queue queue' : List EventRow} (h : Announces regions p id row)
    (hrenewed : Renewed regions queue queue' row) :
    ∃ row' ∈ queue', Announces regions p id row' ∧ (row' = row ∨ row' ∉ queue) := by
  obtain ⟨-, hevent, hcovers⟩ := h
  obtain ⟨row', hmem, hregion, hevent', hparam, hnew⟩ := hrenewed
  refine ⟨row', hmem, ⟨hregion, hevent'.trans hevent, ?_⟩, hnew⟩
  rcases hparam with hsame | hall
  · rw [hsame]
    exact hcovers
  · exact Or.inr (Or.inl hall)

/-- A new row is out of reach of the next delete. -/
theorem survives_of_new {s : PullSys} {queue : List EventRow}
    (hok : PullOk regions s (.arrive queue)) {row : EventRow} (hmem : row ∈ queue)
    (hnew : row ∉ s.queue) (hregion : inRegions regions row) : Survives s.phase row := by
  intro version todo hphase
  by_contra hle
  refine hok row hmem hnew ⟨hregion, ?_⟩
  rw [hphase]
  exact ⟨Or.inl rfl, not_lt.mp hle⟩

theorem Inv.change {s : CopySys ρ} (h : Inv regions tables s) {src : String → List ρ}
    {queue : List EventRow} (hok : CopyOk regions tables s (.change src queue)) :
    Inv regions tables { s with src := src, sys := { s.sys with queue := queue } } := by
  obtain ⟨harrive, hannounced, hkept⟩ := hok
  refine ⟨step_inv h.pull harrive rfl, h.nodup, h.todo, fun p hp hremaining => ?_,
    fun res waiting hphase row hrow hpuller => ?_, fun p hp id => ?_⟩
  · have hcollects := h.collects p hp hremaining
    refine ⟨hcollects.read, fun id hcopies => ?_, hcollects.cleared, hcollects.keyless,
      hcollects.zero⟩
    obtain ⟨row, hrow, hannounces⟩ := hcollects.backed id hcopies
    obtain ⟨row', hrow', hannounces', -⟩ := hannounces.renewed (hkept row hrow hannounces.1)
    exact ⟨row', hrow', hannounces'⟩
  · obtain ⟨row', hrow', hregion, hevent, hparam⟩ := h.resBacked res waiting hphase row hrow hpuller
    obtain ⟨renewed, hmem, hregion', hevent', hparam', -⟩ := hkept row' hrow' hregion
    refine ⟨renewed, hmem, hregion', hevent'.trans hevent, ?_⟩
    rcases hparam' with hsame | hall
    · rw [hsame]
      exact hparam
    · exact Or.inr hall
  · rcases hannounced p hp id with hsame | ⟨row, hrow, hnew, hannounces⟩
    · rcases h.announced p hp id with hagrees | ⟨row, hrow, hannounces, hsurvives⟩
      · left
        show ((tables p.event).rowsOf id (s.dst p.event)).Perm
          ((tables p.event).rowsOf id ((tables p.event).selected (src p.event)))
        rw [hsame]
        exact hagrees
      · right
        obtain ⟨row', hrow', hannounces', hnew⟩ :=
          hannounces.renewed (hkept row hrow hannounces.1)
        refine ⟨row', hrow', hannounces', ?_⟩
        rcases hnew with rfl | hnew
        · exact hsurvives
        · exact survives_of_new harrive hrow' hnew hannounces'.1
    · exact Or.inr ⟨row, hrow, hannounces, survives_of_new harrive hrow hnew hannounces.1⟩

/-! ## Reading events -/

theorem mem_of_find {pulls : List BasePull} {event : String} {p : BasePull}
    (h : find pulls event = some p) : p ∈ pulls :=
  List.mem_of_find?_eq_some h

/-- Pullers with the same event are the same. -/
theorem eq_of_event_eq {pulls : List BasePull} (hnodup : (pulls.map BasePull.event).Nodup)
    {p q : BasePull} (hp : p ∈ pulls) (hq : q ∈ pulls) (h : p.event = q.event) : p = q :=
  List.inj_on_of_nodup_map hnodup hp hq h

theorem find_isSome {pulls : List BasePull} {p : BasePull} (hp : p ∈ pulls) :
    (find pulls p.event).isSome :=
  mem_events_iff.mp (List.mem_map_of_mem hp)

/-- A selected puller starts without events. -/
theorem not_copies_clear (p : BasePull) (id : String) : ¬ p.clear.Copies id := by
  rintro ⟨hneed, -⟩
  exact absurd hneed Bool.false_ne_true

theorem Inv.select {s : CopySys ρ} (h : Inv regions tables s)
    (hok : PullOk regions s.sys .select) :
    Inv regions tables { s with
      sys := { s.sys with
        pulls := s.sys.pulls.map BasePull.clear
        phase := .reading (selectEvents regions s.sys.queue) 0
        read := []
        pulled := [] } } := by
  refine ⟨ManagerPull.Inv.select hok, ?_, trivial, fun p hp _ => ?_,
    fun res waiting hphase row hrow _ => ?_, fun p hp id => ?_⟩
  · rw [List.map_map]
    exact h.nodup
  · obtain ⟨q, -, rfl⟩ := List.mem_map.mp hp
    refine ⟨by simp, fun id hcopies => absurd hcopies (not_copies_clear q id), Or.inr rfl,
      fun hkey => ?_, List.not_mem_nil⟩
    show (q.key == "") = true
    exact beq_iff_eq.mpr hkey
  · obtain ⟨rfl, -⟩ := Phase.reading.inj hphase
    obtain ⟨hmem, hregion⟩ := mem_selectEvents.mp hrow
    exact ⟨row, hmem, hregion, rfl, Or.inl rfl⟩
  · obtain ⟨q, hq, rfl⟩ := List.mem_map.mp hp
    rcases h.announced q hq id with hagrees | ⟨row, hrow, hannounces, -⟩
    · exact Or.inl hagrees
    · exact Or.inr ⟨row, hrow, hannounces, by simp [Survives]⟩

/-- What an event adds to a puller. -/
theorem copies_addId {p : BasePull} {param id : String} (hcleared : p.needPull = true ∨ p = p.clear)
    (h : (p.addId param).Copies id) : p.Copies id ∨ Covers p param id := by
  obtain ⟨-, hcopies⟩ := h
  simp only [BasePull.addId] at hcopies
  split at hcopies
  case isTrue hfull =>
    rcases hcleared with hneed | hclear
    · exact Or.inl ⟨hneed, Or.inl hfull⟩
    · -- a cleared puller is a full one if its table has no key
      rw [hclear] at hfull
      exact Or.inr (Or.inl (beq_iff_eq.mp hfull))
  case isFalse hnotFull =>
    split at hcopies
    case isTrue hzero => exact Or.inr (Or.inr (Or.inl hzero))
    case isFalse =>
      rcases hcopies with hfull | hmem
      · exact absurd hfull hnotFull
      · rcases List.mem_insert_iff.mp hmem with rfl | hold
        · exact Or.inr (Or.inr (Or.inr rfl))
        · rcases hcleared with hneed | hclear
          · exact Or.inl ⟨hneed, Or.inr hold⟩
          · rw [hclear] at hold
            exact absurd hold List.not_mem_nil

@[simp] theorem addId_key (p : BasePull) (id : String) : (p.addId id).key = p.key := by
  simp only [BasePull.addId]
  split
  · rfl
  · split <;> rfl

theorem addId_needPull (p : BasePull) (id : String) : (p.addId id).needPull = true := by
  simp only [BasePull.addId]
  split
  · rfl
  · split <;> rfl

theorem addId_fullPull {p : BasePull} (h : p.fullPull = true) (id : String) :
    (p.addId id).fullPull = true := by
  simp only [BasePull.addId]
  rw [if_pos h]
  exact h

theorem zero_not_mem_addId {p : BasePull} (h : "0" ∉ p.idsToPull) (id : String) :
    "0" ∉ (p.addId id).idsToPull := by
  simp only [BasePull.addId]
  split
  case isTrue => exact h
  case isFalse =>
    split
    case isTrue => exact h
    case isFalse hne =>
      intro hmem
      rcases List.mem_insert_iff.mp hmem with heq | hold
      · exact hne heq.symm
      · exact h hold

/-- The puller of the event that is read. -/
theorem Collects.addId {s : PullSys} {q : BasePull} (h : Collects regions s q) {row : EventRow}
    (hevent : q.event = row.event) (hbacked : ∃ row' ∈ s.queue, inRegions regions row' ∧
      row'.event = row.event ∧ (row'.param = row.param ∨ row'.param = "0"))
    (pulls : List BasePull) (phase : Phase) :
    Collects regions { s with pulls := pulls, phase := phase, read := s.read ++ [row] }
      (q.addId row.param) := by
  refine ⟨fun r hr hrevent => ?_, fun id hcopies => ?_, Or.inl (addId_needPull q _), fun hkey => ?_,
    zero_not_mem_addId h.zero _⟩
  · rw [BasePull.addId_event] at hrevent
    rcases List.mem_append.mp hr with hold | hnew
    · exact (h.read r hold hrevent).addId _
    · rw [List.mem_singleton.mp hnew]
      exact q.copies_addId_self
  · rcases copies_addId h.cleared hcopies with hold | hcovers
    · obtain ⟨row', hrow', hregion, hevent', hcovers⟩ := h.backed id hold
      exact ⟨row', hrow', hregion, by rw [hevent', BasePull.addId_event], by
        simpa [Covers] using hcovers⟩
    · obtain ⟨row', hrow', hregion, hevent', hparam⟩ := hbacked
      refine ⟨row', hrow', hregion, by rw [hevent', BasePull.addId_event, hevent], ?_⟩
      show (q.addId row.param).key = "" ∨ row'.param = "0" ∨ row'.param = id
      rw [addId_key]
      rcases hparam with hsame | hall
      · rw [hsame]
        exact hcovers
      · exact Or.inr (Or.inl hall)
  · rw [addId_key] at hkey
    exact addId_fullPull (h.keyless hkey) _

/-- Other pullers do not notice. -/
theorem Collects.skip {s : PullSys} {q : BasePull} (h : Collects regions s q) {row : EventRow}
    (hevent : q.event ≠ row.event) (pulls : List BasePull) (phase : Phase)
    {queue : List EventRow} (hqueue : ∀ r ∈ s.queue, r.event = q.event → r ∈ queue) :
    Collects regions
      { s with queue := queue, pulls := pulls, phase := phase, read := s.read ++ [row] } q := by
  refine ⟨fun r hr hrevent => ?_, fun id hcopies => ?_, h.cleared, h.keyless, h.zero⟩
  · rcases List.mem_append.mp hr with hold | hnew
    · exact h.read r hold hrevent
    · rw [List.mem_singleton.mp hnew] at hrevent
      exact absurd hrevent.symm hevent
  · obtain ⟨row', hrow', hannounces⟩ := h.backed id hcopies
    exact ⟨row', hqueue row' hrow' hannounces.2.1, hannounces⟩

theorem Inv.readRow {s : CopySys ρ} (h : Inv regions tables s) {res : List EventRow}
    {waiting : Nat} {row : EventRow} (hphase : s.sys.phase = .reading res waiting)
    (hrow : res[waiting]? = some row) (hlt : waiting < partSize) :
    Inv regions tables { s with
      sys := { s.sys with
        pulls := s.sys.pulls.map fun p => if p.event = row.event then p.addId row.param else p
        phase := .reading res (waiting + 1)
        read := s.sys.read ++ [row] } } := by
  -- reading a row changes what a puller collects, not its name
  have hevent : ∀ p : BasePull,
      (if p.event = row.event then p.addId row.param else p).event = p.event := by
    intro p
    split
    · exact p.addId_event _
    · rfl
  have hkey : ∀ p : BasePull,
      (if p.event = row.event then p.addId row.param else p).key = p.key := by
    intro p
    split
    · exact addId_key p _
    · rfl
  refine ⟨h.pull.readRow hphase hrow hlt, ?_, trivial, fun p hp _ => ?_,
    fun res' waiting' hphase' r hr hpuller => ?_, fun p hp id => ?_⟩
  · rw [List.map_map]
    refine (congrArg List.Nodup (List.map_congr_left fun p _ => ?_)).mp h.nodup
    exact (hevent p).symm
  · obtain ⟨q, hq, rfl⟩ := List.mem_map.mp hp
    have hremaining : Remaining s.sys.phase q.event := by
      rw [hphase]
      trivial
    have hcollects := h.collects q hq hremaining
    -- only the puller of the event collects the record
    by_cases hqevent : q.event = row.event
    · rw [if_pos hqevent]
      have hpuller : (find s.sys.pulls row.event).isSome := hqevent ▸ find_isSome hq
      exact hcollects.addId hqevent
        (h.resBacked res waiting hphase row (List.mem_of_getElem? hrow) hpuller) _ _
    · rw [if_neg hqevent]
      exact hcollects.skip hqevent _ _ fun r hr _ => hr
  · obtain ⟨rfl, -⟩ := Phase.reading.inj hphase'
    simp only [find_map hevent, Option.isSome_map] at hpuller
    exact h.resBacked res waiting hphase r hr hpuller
  · obtain ⟨q, hq, rfl⟩ := List.mem_map.mp hp
    rcases h.announced q hq id with hagrees | ⟨r, hr, ⟨hregion, hrevent, hcovers⟩, -⟩
    · left
      rw [hevent]
      exact hagrees
    · refine Or.inr ⟨r, hr, ⟨hregion, hrevent.trans (hevent q).symm, ?_⟩, by simp [Survives]⟩
      show _ = "" ∨ _
      rw [hkey]
      exact hcovers

/-- Deleting the events of a name without a puller. -/
theorem Inv.deleteUnknown {s : CopySys ρ} (h : Inv regions tables s) {res : List EventRow}
    {waiting : Nat} {row : EventRow} (hphase : s.sys.phase = .reading res waiting)
    (hrow : res[waiting]? = some row) (hlt : waiting < partSize)
    (hunknown : find s.sys.pulls row.event = none) :
    Inv regions tables { s with
      sys := { s.sys with
        queue := s.sys.queue.filter fun r => ¬ (inRegions regions r ∧ r.event = row.event)
        phase := .reading res (waiting + 1)
        read := s.sys.read ++ [row] } } := by
  -- no row of an event with a puller is deleted
  have hstays : ∀ r ∈ s.sys.queue, (find s.sys.pulls r.event).isSome →
      r ∈ s.sys.queue.filter fun r => ¬ (inRegions regions r ∧ r.event = row.event) := by
    intro r hr hpuller
    refine List.mem_filter.mpr ⟨hr, decide_eq_true ?_⟩
    rintro ⟨-, hsame⟩
    rw [hsame, hunknown] at hpuller
    exact absurd hpuller Bool.false_ne_true
  refine ⟨h.pull.deleteUnknown hphase hrow hlt hunknown _ fun r hr => (List.mem_filter.mp hr).1,
    h.nodup, trivial, fun p hp _ => ?_, fun res' waiting' hphase' r hr hpuller => ?_,
    fun p hp id => ?_⟩
  · have hremaining : Remaining s.sys.phase p.event := by
      rw [hphase]
      trivial
    have hne : p.event ≠ row.event := by
      intro hsame
      have hpuller := find_isSome hp
      rw [hsame, hunknown] at hpuller
      exact absurd hpuller Bool.false_ne_true
    refine (h.collects p hp hremaining).skip hne _ _ fun r hr hrevent => hstays r hr ?_
    rw [hrevent]
    exact find_isSome hp
  · obtain ⟨rfl, -⟩ := Phase.reading.inj hphase'
    obtain ⟨row', hrow', hregion, hevent, hparam⟩ := h.resBacked res waiting hphase r hr hpuller
    exact ⟨row', hstays row' hrow' (hevent ▸ hpuller), hregion, hevent, hparam⟩
  · rcases h.announced p hp id with hagrees | ⟨r, hr, hannounces, -⟩
    · exact Or.inl hagrees
    · refine Or.inr ⟨r, hstays r hr ?_, hannounces, by simp [Survives]⟩
      rw [hannounces.2.1]
      exact find_isSome hp

theorem Inv.startPulls {s : CopySys ρ} (h : Inv regions tables s) {res : List EventRow}
    {waiting : Nat} (hphase : s.sys.phase = .reading res waiting)
    (hend : res.length ≤ waiting ∨ partSize ≤ waiting) :
    Inv regions tables { s with
      sys := { s.sys with
        phase := .pulling (lastVersion res) (s.sys.pulls.map BasePull.event) } } := by
  refine ⟨h.pull.startPulls hphase hend, h.nodup, h.nodup, fun p hp _ => ?_, by simp [ResBacked],
    fun p hp id => ?_⟩
  · have hremaining : Remaining s.sys.phase p.event := by
      rw [hphase]
      trivial
    obtain ⟨hread, hbacked, hcleared, hkeyless, hzero⟩ := h.collects p hp hremaining
    exact ⟨hread, hbacked, hcleared, hkeyless, hzero⟩
  · rcases h.announced p hp id with hagrees | ⟨r, hr, hannounces, -⟩
    · exact Or.inl hagrees
    · exact Or.inr ⟨r, hr, hannounces, by simp [Survives]⟩

/-! ## Pulling and deleting -/

/-- Reading an event for all rows, or for the rows of a key, the puller copies the key. -/
theorem Collects.copies_of_covers {s : PullSys} {p : BasePull} (h : Collects regions s p)
    {param id : String} (hcopies : p.Copies param) (hcovers : Covers p param id) :
    p.Copies id := by
  obtain ⟨hneed, hrows⟩ := hcopies
  rcases hcovers with hkey | rfl | rfl
  · exact ⟨hneed, Or.inl (h.keyless hkey)⟩
  · exact ⟨hneed, Or.inl (hrows.resolve_right h.zero)⟩
  · exact ⟨hneed, hrows⟩

/-- Who is about to run. -/
theorem of_nextPull {s : PullSys} {p : BasePull} (h : nextPull s = some p) :
    ∃ version todo, s.phase = .pulling version (p.event :: todo) ∧ p ∈ s.pulls := by
  unfold nextPull at h
  split at h
  case h_1 version event todo hphase =>
    have hevent := event_of_find h
    exact ⟨version, todo, by rw [hphase, hevent], mem_of_find h⟩
  case h_2 => exact absurd h (by simp)

/-- The state after the next puller ran, with what its connection left. -/
def afterNext (s : CopySys ρ) (sys : PullSys) (event : String) (db : BDb (List ρ)) : CopySys ρ :=
  { s with
    sys := sys
    dst := Function.update s.dst event db.durable
    connected := db.connected }

theorem agrees_afterNext_of_ne {s : CopySys ρ} {sys : PullSys} {event event' : String}
    {db : BDb (List ρ)} (hne : event' ≠ event) (id : String) :
    Agrees tables (afterNext s sys event db) event' id ↔ Agrees tables s event' id := by
  show ((tables event').rowsOf id (Function.update s.dst event db.durable event')).Perm _ ↔ _
  rw [Function.update_of_ne hne]
  rfl

theorem agrees_afterNext {s : CopySys ρ} {sys : PullSys} {event id : String}
    {db : BDb (List ρ)} (hrows : (tables event).rowsOf id db.durable =
      (tables event).rowsOf id ((tables event).selected (s.src event))) :
    Agrees tables (afterNext s sys event db) event id := by
  show ((tables event).rowsOf id (Function.update s.dst event db.durable event)).Perm _
  rw [Function.update_self, hrows]
  exact List.Perm.refl _

/-- Rows of a key that did not change agree as before. -/
theorem agrees_afterNext_of_same {s : CopySys ρ} {sys : PullSys} {event id : String}
    {db : BDb (List ρ)}
    (hrows : (tables event).rowsOf id db.durable = (tables event).rowsOf id (s.dst event))
    (h : Agrees tables s event id) : Agrees tables (afterNext s sys event db) event id := by
  show ((tables event).rowsOf id (Function.update s.dst event db.durable event)).Perm _
  rw [Function.update_self, hrows]
  exact h

/-- The pullers that run later keep what they have collected. -/
theorem Inv.collects_later {s : CopySys ρ} (h : Inv regions tables s) {version : Int}
    {event : String} {todo : List String} (hphase : s.sys.phase = .pulling version (event :: todo))
    {q : BasePull} (hq : q ∈ s.sys.pulls) (hmem : q.event ∈ todo) :
    q.event ≠ event ∧ Collects regions s.sys q := by
  have htodo : (event :: todo).Nodup := by
    have hnodup := h.todo
    rw [hphase] at hnodup
    exact hnodup
  refine ⟨fun heq => (List.nodup_cons.mp htodo).1 (heq ▸ hmem), h.collects q hq ?_⟩
  rw [hphase]
  exact List.mem_cons_of_mem _ hmem

theorem Inv.pullReturned {s : CopySys ρ} (h : Inv regions tables s) {p : BasePull}
    {version : Int} {todo : List String} (hp : p ∈ s.sys.pulls)
    (hphase : s.sys.phase = .pulling version (p.event :: todo)) {db : BDb (List ρ)}
    (hkept : ∀ id, ¬ p.Copies id →
      (tables p.event).rowsOf id db.durable = (tables p.event).rowsOf id (s.dst p.event))
    (hreplaced : ∀ id, p.Copies id → (tables p.event).rowsOf id db.durable =
      (tables p.event).rowsOf id ((tables p.event).selected (s.src p.event))) :
    Inv regions tables (afterNext s
      { s.sys with
        pulls := s.sys.pulls.map fun q => if q.event = p.event then q.afterPull else q
        phase := .deleting version p.event todo
        pulled := (find s.sys.pulls p.event).toList ++ s.sys.pulled } p.event db) := by
  have hevent : ∀ q : BasePull,
      (if q.event = p.event then q.afterPull else q).event = q.event := by
    intro q
    split
    · exact q.afterPull_event
    · rfl
  have hkey : ∀ q : BasePull,
      (if q.event = p.event then q.afterPull else q).key = q.key := by
    intro q
    split
    · unfold BasePull.afterPull
      split <;> rfl
    · rfl
  have hremaining : Remaining s.sys.phase p.event := by
    rw [hphase]
    exact List.mem_cons_self
  have hcollects := h.collects p hp hremaining
  refine ⟨h.pull.pullOne hphase, ?_, ?_, fun q' hq' hlater => ?_, by simp [ResBacked, afterNext],
    fun q' hq' id => ?_⟩
  · show ((s.sys.pulls.map _).map BasePull.event).Nodup
    rw [List.map_map]
    refine (congrArg List.Nodup (List.map_congr_left fun q _ => ?_)).mp h.nodup
    exact (hevent q).symm
  · have hnodup := h.todo
    rw [hphase] at hnodup
    exact hnodup
  · obtain ⟨q, hq, rfl⟩ := List.mem_map.mp hq'
    rw [hevent] at hlater
    obtain ⟨hne, hread, hbacked, hcleared, hkeyless, hzero⟩ := h.collects_later hphase hq hlater
    rw [if_neg hne]
    exact ⟨hread, hbacked, hcleared, hkeyless, hzero⟩
  · obtain ⟨q, hq, rfl⟩ := List.mem_map.mp hq'
    have hannounces : ∀ row, Announces regions q id row →
        Announces regions (if q.event = p.event then q.afterPull else q) id row := by
      rintro row ⟨hregion, hrowevent, hcovers⟩
      refine ⟨hregion, hrowevent.trans (hevent q).symm, ?_⟩
      show _ = "" ∨ _
      rw [hkey]
      exact hcovers
    rw [hevent]
    by_cases hqevent : q.event = p.event
    · obtain rfl : q = p := eq_of_event_eq h.nodup hq hp hqevent
      by_cases hcopies : q.Copies id
      · exact Or.inl (agrees_afterNext (hreplaced id hcopies))
      · rcases h.announced q hq id with hagrees | ⟨row, hrow, hrowannounces, -⟩
        · exact Or.inl (agrees_afterNext_of_same (hkept id hcopies) hagrees)
        · refine Or.inr ⟨row, hrow, hannounces row hrowannounces, ?_⟩
          rintro version' todo' hdeleting
          obtain ⟨rfl, -, -⟩ := Phase.deleting.inj hdeleting
          -- a row that the delete would hit was read, so the key would have been copied
          by_contra hle
          have hdoomed : Doomed regions s.sys row := by
            refine ⟨hrowannounces.1, ?_⟩
            rw [hphase]
            exact ⟨by rw [hrowannounces.2.1]; exact List.mem_cons_self, not_lt.mp hle⟩
          have hread : row ∈ s.sys.read := by
            have hbatch := h.pull.doomed row hrow hdoomed
            simp only [batch, hphase] at hbatch
            exact hbatch
          exact hcopies (hcollects.copies_of_covers (hcollects.read row hread hrowannounces.2.1)
            hrowannounces.2.2)
    · rcases h.announced q hq id with hagrees | ⟨row, hrow, hrowannounces, -⟩
      · exact Or.inl ((agrees_afterNext_of_ne hqevent id).mpr hagrees)
      · refine Or.inr ⟨row, hrow, hannounces row hrowannounces, ?_⟩
        rintro version' todo' hdeleting
        obtain ⟨-, hsame, -⟩ := Phase.deleting.inj hdeleting
        exact absurd (hrowannounces.2.1.symm.trans hsame.symm) hqevent

theorem Inv.pullThrew {s : CopySys ρ} (h : Inv regions tables s) {p : BasePull}
    {version : Int} {todo : List String} (hp : p ∈ s.sys.pulls)
    (hphase : s.sys.phase = .pulling version (p.event :: todo)) {db : BDb (List ρ)}
    (hkept : ∀ id, ¬ p.Copies id →
      (tables p.event).rowsOf id db.durable = (tables p.event).rowsOf id (s.dst p.event)) :
    Inv regions tables
      (afterNext s { s.sys with phase := .pulling version todo } p.event db) := by
  have hremaining : Remaining s.sys.phase p.event := by
    rw [hphase]
    exact List.mem_cons_self
  refine ⟨h.pull.next (Or.inl hphase) s.sys.queue fun _ hr => hr, h.nodup, ?_,
    fun q hq hlater => ?_, by simp [ResBacked, afterNext], fun q hq id => ?_⟩
  · have hnodup := h.todo
    rw [hphase] at hnodup
    exact (List.nodup_cons.mp hnodup).2
  · obtain ⟨-, hread, hbacked, hcleared, hkeyless, hzero⟩ := h.collects_later hphase hq hlater
    exact ⟨hread, hbacked, hcleared, hkeyless, hzero⟩
  · by_cases hqevent : q.event = p.event
    · obtain rfl : q = p := eq_of_event_eq h.nodup hq hp hqevent
      by_cases hcopies : q.Copies id
      · obtain ⟨row, hrow, hannounces⟩ := (h.collects q hq hremaining).backed id hcopies
        exact Or.inr ⟨row, hrow, hannounces, by simp [Survives, afterNext]⟩
      · rcases h.announced q hq id with hagrees | ⟨row, hrow, hannounces, -⟩
        · exact Or.inl (agrees_afterNext_of_same (hkept id hcopies) hagrees)
        · exact Or.inr ⟨row, hrow, hannounces, by simp [Survives, afterNext]⟩
    · rcases h.announced q hq id with hagrees | ⟨row, hrow, hannounces, -⟩
      · exact Or.inl ((agrees_afterNext_of_ne hqevent id).mpr hagrees)
      · exact Or.inr ⟨row, hrow, hannounces, by simp [Survives, afterNext]⟩

/-- Going on after a delete, which takes only rows within its reach. -/
theorem Inv.deleted {s : CopySys ρ} (h : Inv regions tables s) {version : Int} {event : String}
    {todo : List String} (hphase : s.sys.phase = .deleting version event todo)
    {queue : List EventRow} (hqueue : ∀ r ∈ queue, r ∈ s.sys.queue)
    (hstays : ∀ r ∈ s.sys.queue, (r.event = event → version < r.version) → r ∈ queue) :
    Inv regions tables
      { s with sys := { s.sys with queue := queue, phase := .pulling version todo } } := by
  have hnodup := h.todo
  rw [hphase] at hnodup
  refine ⟨h.pull.next (Or.inr hphase) queue hqueue, h.nodup, (List.nodup_cons.mp hnodup).2,
    fun q hq hlater => ?_, by simp [ResBacked], fun q hq id => ?_⟩
  · have hremaining : Remaining s.sys.phase q.event := by
      rw [hphase]
      exact hlater
    have hne : q.event ≠ event := fun heq => (List.nodup_cons.mp hnodup).1 (heq ▸ hlater)
    obtain ⟨hread, hbacked, hcleared, hkeyless, hzero⟩ := h.collects q hq hremaining
    refine ⟨hread, fun id hcopies => ?_, hcleared, hkeyless, hzero⟩
    obtain ⟨row, hrow, hannounces⟩ := hbacked id hcopies
    exact ⟨row, hstays row hrow fun heq => absurd (hannounces.2.1.symm.trans heq) hne, hannounces⟩
  · rcases h.announced q hq id with hagrees | ⟨row, hrow, hannounces, hsurvives⟩
    · exact Or.inl hagrees
    · refine Or.inr ⟨row, hstays row hrow fun heq => ?_, hannounces, by simp [Survives]⟩
      exact hsurvives version todo (by rw [hphase, heq])

theorem Inv.idle {s : CopySys ρ} (h : Inv regions tables s) :
    Inv regions tables { s with sys := { s.sys with phase := .idle } } := by
  refine ⟨ManagerPull.Inv.idle s.sys, h.nodup, trivial, fun p _ hremaining => hremaining.elim,
    by simp [ResBacked], fun p hp id => ?_⟩
  rcases h.announced p hp id with hagrees | ⟨row, hrow, hannounces, -⟩
  · exact Or.inl hagrees
  · exact Or.inr ⟨row, hrow, hannounces, by simp [Survives]⟩

/-! ## Steps and runs -/

theorem Inv.pullStep {s s' : CopySys ρ} (h : Inv regions tables s) {drops : BasePull.PullDrops}
    (hok : CopyOk regions tables s (.pull drops))
    (hs : step regions tables s (.pull drops) = some s') : Inv regions tables s' := by
  simp only [step] at hs
  split at hs
  case h_2 => exact absurd hs (by simp)
  case h_1 p hnext =>
    obtain ⟨version, todo, hphase, hp⟩ := of_nextPull hnext
    obtain ⟨sys, hsys, rfl⟩ := Option.map_eq_some_iff.mp hs
    have hrows := BasePull.rows_after_pull p (tables p.event) (s.src p.event) (s.dst p.event)
      s.connected drops
    generalize p.pullAll (tables p.event) (s.src p.event)
      (BasePull.auto (s.dst p.event) s.connected) drops = result at hsys hrows ⊢
    obtain ⟨db, returned⟩ := result
    have hkept : ∀ id, ¬ p.Copies id →
        (tables p.event).rowsOf id db.durable = (tables p.event).rowsOf id (s.dst p.event) :=
      fun id => (hrows id).2.1
    cases returned with
    | true =>
        simp only [ManagerPull.step, hphase, if_true, Option.some.injEq] at hsys
        subst hsys
        refine h.pullReturned hp hphase hkept fun id hcopies => ?_
        have hreplaced := (hrows id).2.2.1 hcopies rfl
        rw [if_neg (hok p hnext)] at hreplaced
        exact hreplaced
    | false =>
        simp only [ManagerPull.step, hphase, Bool.false_eq_true, if_false, Option.some.injEq] at hsys
        subst hsys
        exact h.pullThrew hp hphase hkept

theorem Inv.otherStep {s s' : CopySys ρ} (h : Inv regions tables s) {a : ManagerPull.Act}
    (hok : CopyOk regions tables s (.other a))
    (hs : step regions tables s (.other a) = some s') : Inv regions tables s' := by
  have hnotArrive : ∀ queue, a ≠ .arrive queue := by
    rintro queue rfl
    exact absurd hs (by simp [step])
  have hnotPull : ∀ ok, a ≠ .pullOne ok := by
    rintro ok rfl
    exact absurd hs (by simp [step])
  obtain ⟨sys, hsys, rfl⟩ : ∃ sys, ManagerPull.step regions s.sys a = some sys ∧
      { s with sys := sys } = s' := by
    cases a with
    | arrive queue => exact absurd rfl (hnotArrive queue)
    | pullOne ok => exact absurd rfl (hnotPull ok)
    | select | readRow | startPulls | delete ok | finish | abort =>
        exact Option.map_eq_some_iff.mp hs
  obtain ⟨queue, rfl, -⟩ | ⟨rfl, -, rfl⟩ | ⟨res, waiting, row, -, hphase, hrow, hlt, hread⟩ |
    ⟨res, waiting, -, hphase, hend, rfl⟩ | ⟨version, event, todo, -, hpull⟩ |
    ⟨version, event, todo, hphase, hdelete⟩ | ⟨-, rfl⟩ := step_cases regions hsys
  · exact absurd rfl (hnotArrive queue)
  · exact h.select hok
  · rcases hread with rfl | ⟨hunknown, rfl⟩
    · exact h.readRow hphase hrow hlt
    · exact h.deleteUnknown hphase hrow hlt hunknown
  · exact h.startPulls hphase hend
  · rcases hpull with ⟨rfl, -⟩ | ⟨rfl, -⟩
    · exact absurd rfl (hnotPull true)
    · exact absurd rfl (hnotPull false)
  · rcases hdelete with ⟨-, rfl⟩ | ⟨-, rfl⟩
    · refine h.deleted hphase (fun r hr => (List.mem_filter.mp hr).1) fun r hr hsurvives => ?_
      refine List.mem_filter.mpr ⟨hr, decide_eq_true ?_⟩
      rintro ⟨-, hevent, hle⟩
      exact absurd hle (not_le.mpr (hsurvives hevent))
    · exact h.deleted hphase (fun _ hr => hr) fun _ hr _ => hr
  · exact h.idle

theorem step_inv {s s' : CopySys ρ} {a : Act ρ} (h : Inv regions tables s)
    (hok : CopyOk regions tables s a) (hs : step regions tables s a = some s') :
    Inv regions tables s' := by
  cases a with
  | change src queue =>
      rw [step, Option.some.injEq] at hs
      exact hs ▸ h.change hok
  | pull drops => exact h.pullStep hok hs
  | other a => exact h.otherStep hok hs

/-- Before the first iteration: one puller an event, and every key that differs is announced. -/
structure Start (regions : List Int) (tables : String → PullTable ρ) (s : CopySys ρ) : Prop where
  idle : s.sys.phase = .idle
  nodup : (s.sys.pulls.map BasePull.event).Nodup
  announced : ∀ p ∈ s.sys.pulls, ∀ id, Agrees tables s p.event id ∨
    ∃ row ∈ s.sys.queue, Announces regions p id row

theorem Start.inv {s : CopySys ρ} (h : Start regions tables s) : Inv regions tables s := by
  have hidle : s.sys = { s.sys with phase := .idle } := by rw [← h.idle]
  refine ⟨hidle ▸ ManagerPull.Inv.idle s.sys, h.nodup, ?_, fun p _ hremaining => ?_,
    fun res waiting hphase => ?_, fun p hp id => ?_⟩
  · rw [h.idle]
    trivial
  · rw [h.idle] at hremaining
    exact hremaining.elim
  · rw [h.idle] at hphase
    exact absurd hphase (by simp)
  · refine (h.announced p hp id).imp (fun hagrees => hagrees) ?_
    rintro ⟨row, hrow, hannounces⟩
    refine ⟨row, hrow, hannounces, fun version todo hphase => ?_⟩
    rw [h.idle] at hphase
    exact absurd hphase (by simp)

/-- Tables with the same rows for every key have the same rows. -/
theorem perm_of_rowsOf [DecidableEq ρ] {t : PullTable ρ} {rows rows' : List ρ}
    (h : ∀ id, (t.rowsOf id rows).Perm (t.rowsOf id rows')) : rows.Perm rows' := by
  refine List.perm_iff_count.mpr fun row => ?_
  have hcount := List.perm_iff_count.mp (h (t.keyText row)) row
  unfold PullTable.rowsOf at hcount
  rwa [List.count_filter (by simp), List.count_filter (by simp)] at hcount

end

/-- Clients with their balances. -/
def clientTable : PullTable (String × Int) where
  hasDatatype := true
  srcSqlWhere := fun _ => true
  keyText := Prod.fst
  whereOnlyTyped := Or.inl rfl

/-- One client, in both databases. -/
def oneClient : CopySys (String × Int) where
  sys := { queue := [], pulls := [{ event := "client", key := "id" }], phase := .idle, read := [],
           pulled := [] }
  src := fun _ => [("1", 10)]
  dst := fun _ => [("1", 10)]
  connected := true

/-- The event of client 2. -/
def clientAdded : EventRow := { serverId := 99, event := "client", param := "2", version := 1 }

/-- The connection is lost at the delete, which is sent again. -/
def lostDelete : BasePull.PullDrops where
  begin := ⟨false, false⟩
  delete := ⟨true, false⟩
  copy := false
  commit := ⟨false, false⟩
  rollback := ⟨false, false⟩

/-- Client 2 is added, and one iteration pulls it. -/
def addAndPull : List (Act (String × Int)) :=
  [.change (fun _ => [("1", 10), ("2", -5)]) [clientAdded], .other .select, .other .readRow,
    .other .startPulls, .pull lostDelete, .other (.delete true), .other .finish]

end TableCopies
end VoipBill
